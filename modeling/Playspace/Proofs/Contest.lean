import Playspace.Kyopro.Contest
import Playspace.Lib.Orbit

/-!
# What the short contest programs answer

The climb of `B-Ancestor.cpp` follows the parents from `N`, so its end is where the
orbit of `N` leaves the numbers that have a parent (`main_ends_iff`); in a family tree
it can only leave them at the ancestor. `solve` of `A-UniqueLetter.hs` drops letters
that are not unique, which keeps the first unique one. Two of the programs decide by
a shortcut, the product of two counts and a comparison of rounded prices:
`main_fullHouse` and `main_isLeast_iff` say when it is right.
-/

namespace Playspace.Kyopro

open Playspace.Lib

/-! ## `B-Ancestor.cpp` -/

namespace Ancestor

/-- The entry for `child` where the list has one, as it does for 2 to `N`. -/
def parent (p : List Int) (child : Int) : Int := p.getD (child - 2).toNat 0

/-- What `main` can have read. -/
structure Input (N : Int) (p : List Int) : Prop where
  length_add_one : (p.length : Int) + 1 = N
  lt_int32 : N < 2 ^ 31
  fits : ∀ entry ∈ p, FitsLl entry

section

variable {N : Int} {p : List Int}

theorem lt_length (h : Input N p) {child : Int} (hchild : child ∈ Set.Icc 2 N) :
    (child - 2).toNat < p.length := by
  obtain ⟨hlow, hhigh⟩ := hchild
  have hlen := h.length_add_one
  omega

theorem parent_eq {child : Int} (hlt : (child - 2).toNat < p.length) :
    parent p child = p[(child - 2).toNat] := by
  rw [parent, List.getD_eq_getElem?_getD, List.getElem?_eq_getElem hlt, Option.getD_some]

theorem subscript_child (h : Input N p) {child : Int} (hchild : child ∈ Set.Icc 2 N) :
    subscript p (child - 2) = .ok (parent p child) := by
  have hbound := h.lt_int32
  have hmod : (child - 2) % 2 ^ 64 = child - 2 := by
    obtain ⟨hlow, hhigh⟩ := hchild
    exact Int.emod_eq_of_lt (by omega) (by omega)
  have hlt := lt_length h hchild
  rw [subscript, hmod, List.getElem?_eq_getElem hlt, parent_eq hlt]

theorem subscript_outside (h : Input N p) {child : Int} (hlow : 1 ≤ child)
    (hhigh : child < 2 ^ 63) (hchild : child ∉ Set.Icc 2 N) :
    subscript p (child - 2) = .error .outOfRange := by
  have hlen := h.length_add_one
  have hbound := h.lt_int32
  have hcases : child = 1 ∨ N < child := by
    rw [Set.mem_Icc] at hchild
    omega
  have hle : p.length ≤ ((child - 2) % 2 ^ 64).toNat := by
    rcases hcases with rfl | hlt
    · norm_num
      omega
    · rw [Int.emod_eq_of_lt (by omega) (by omega)]
      omega
  rw [subscript, List.getElem?_eq_none hle]

theorem fits_parent (h : Input N p) {child : Int} (hchild : child ∈ Set.Icc 2 N) :
    FitsLl (parent p child) := by
  have hlt := lt_length h hchild
  rw [parent_eq hlt]
  exact h.fits _ (List.getElem_mem hlt)

/-! ### One round, and all of them -/

theorem climb_child (h : Input N p) {child ans : Int} (hchild : child ∈ Set.Icc 2 N)
    (hans : FitsLl (ans + 1)) :
    climb p child ans =
      if parent p child < 2 then .ok (ans + 1)
      else climb p (parent p child) (ans + 1) := by
  rw [climb, subscript_child h hchild]
  exact dif_pos hans

theorem climb_full (h : Input N p) {child ans : Int} (hchild : child ∈ Set.Icc 2 N)
    (hans : ¬ FitsLl (ans + 1)) : climb p child ans = .error .overflow := by
  rw [climb, subscript_child h hchild]
  exact dif_neg hans

theorem climb_outside (h : Input N p) {child : Int} (ans : Int) (hlow : 1 ≤ child)
    (hhigh : child < 2 ^ 63) (hchild : child ∉ Set.Icc 2 N) :
    climb p child ans = .error .outOfRange := by
  rw [climb, subscript_outside h hlow hhigh hchild]
  rfl

theorem climb_leaves (h : Input N p) {m : ℕ} {child ans : Int}
    (hleaves : FirstLeaves (parent p) (Set.Icc 2 N) child (m + 1)) (hpos : 0 ≤ ans)
    (hans : ans + (m + 1 : ℕ) < 2 ^ 63) :
    climb p child ans =
      if (parent p)^[m + 1] child < 2 then .ok (ans + (m + 1 : ℕ))
      else .error .outOfRange := by
  induction m generalizing child ans with
  | zero =>
      obtain ⟨hchild, hrest⟩ := firstLeaves_succ.mp hleaves
      rw [climb_child h hchild ⟨by omega, by push_cast at hans; omega⟩]
      show (if parent p child < 2 then _ else _) = if parent p child < 2 then _ else _
      split
      · rfl
      · next hge =>
          exact climb_outside h _ (by omega) (fits_parent h hchild).2
            (firstLeaves_zero.mp hrest)
  | succ m ih =>
      obtain ⟨hchild, hrest⟩ := firstLeaves_succ.mp hleaves
      have hge : ¬ parent p child < 2 := not_lt.mpr (hrest.inside 0 (Nat.succ_pos m)).1
      rw [climb_child h hchild ⟨by omega, by push_cast at hans; omega⟩, if_neg hge,
        ih hrest (by omega) (by push_cast at hans ⊢; omega), ← Function.iterate_succ_apply]
      push_cast
      rw [add_assoc, add_comm 1]

theorem climb_stays (h : Input N p) {child : Int} (ans : Int)
    (hstays : ∀ j, (parent p)^[j] child ∈ Set.Icc 2 N) :
    climb p child ans = .error .overflow := by
  have hchild : child ∈ Set.Icc 2 N := hstays 0
  by_cases hans : FitsLl (ans + 1)
  · have hge : ¬ parent p child < 2 := not_lt.mpr (hstays 1).1
    rw [climb_child h hchild hans, if_neg hge]
    exact climb_stays h (ans + 1) (fun j => hstays (j + 1))
  · exact climb_full h hchild hans
termination_by (2 ^ 63 - ans).toNat
decreasing_by
  have hfits := hans.2
  omega

/-! ### The whole run -/

theorem lt_of_leaves (h : Input N p) {m : ℕ}
    (hleaves : FirstLeaves (parent p) (Set.Icc 2 N) N m) : (m : Int) < N := by
  rw [← Finset.coe_Icc] at hleaves
  have hcard := hleaves.le_card
  have hlen := h.length_add_one
  rw [Int.card_Icc] at hcard
  omega

theorem main_of_stays (h : Input N p)
    (hstays : ∀ j, (parent p)^[j] N ∈ Set.Icc 2 N) : main N p = .error .overflow :=
  climb_stays h 0 hstays

theorem main_of_leaves (h : Input N p) {m : ℕ}
    (hleaves : FirstLeaves (parent p) (Set.Icc 2 N) N m) :
    main N p = if 0 < m ∧ (parent p)^[m] N < 2 then .ok (m : Int)
      else .error .outOfRange := by
  have hlen := h.length_add_one
  have hbound := h.lt_int32
  have hlt := lt_of_leaves h hleaves
  cases m with
  | zero =>
      rw [if_neg (by omega)]
      exact climb_outside h 0 (by omega) (by omega) (firstLeaves_zero.mp hleaves)
  | succ m =>
      rw [main, climb_leaves h hleaves le_rfl (by omega), zero_add]
      simp only [Nat.succ_pos, true_and]

/-- Once it has left, the orbit is below 2 or above `N`, and at once only if there
is nobody but the ancestor. -/
theorem leaves_cases (h : Input N p) {m : ℕ}
    (hleaves : FirstLeaves (parent p) (Set.Icc 2 N) N m) :
    (0 < m ∧ (parent p)^[m] N < 2) ∨ (m = 0 ∧ N = 1) ∨ N < (parent p)^[m] N := by
  have hlen := h.length_add_one
  have hout := hleaves.outside
  rw [Set.mem_Icc] at hout
  cases m with
  | zero =>
      rw [Function.iterate_zero_apply] at hout ⊢
      omega
  | succ m => omega

theorem main_ends_iff (h : Input N p) :
    (∀ ans, main N p = .ok ans ↔ ∃ m : ℕ, ans = m ∧ 0 < m ∧ m < N ∧
      FirstLeaves (parent p) (Set.Icc 2 N) N m ∧ (parent p)^[m] N < 2) ∧
    (main N p = .error .outOfRange ↔ N = 1 ∨ ∃ m : ℕ, m < N ∧
      FirstLeaves (parent p) (Set.Icc 2 N) N m ∧ N < (parent p)^[m] N) ∧
    (main N p = .error .overflow ↔ ∀ j : ℕ, j < N → (parent p)^[j] N ∈ Set.Icc 2 N) := by
  have hlen := h.length_add_one
  rcases forall_mem_or_firstLeaves (parent p) (Set.Icc 2 N) N with hstays | ⟨m, hleaves⟩
  · rw [main_of_stays h hstays]
    have hN : 2 ≤ N := (hstays 0).1
    refine ⟨fun ans => ⟨nofun, ?_⟩, ⟨nofun, ?_⟩, fun _ j _ => hstays j, fun _ => rfl⟩
    · rintro ⟨m, -, -, -, hleaves, -⟩
      exact absurd (hstays m) hleaves.outside
    · rintro (hone | ⟨m, -, hleaves, -⟩)
      · omega
      · exact absurd (hstays m) hleaves.outside
  · have hlt := lt_of_leaves h hleaves
    have hmain := main_of_leaves h hleaves
    have hnever : ¬ ∀ j : ℕ, j < N → (parent p)^[j] N ∈ Set.Icc 2 N :=
      fun hstays => hleaves.outside (hstays m hlt)
    rcases leaves_cases h hleaves with hok | hbad
    · rw [if_pos hok] at hmain
      rw [hmain]
      refine ⟨fun ans => ⟨?_, ?_⟩, ⟨nofun, ?_⟩, nofun, fun hstays => absurd hstays hnever⟩
      · rintro ⟨⟩
        exact ⟨m, rfl, hok.1, hlt, hleaves, hok.2⟩
      · rintro ⟨n, rfl, -, -, hleaves', -⟩
        rw [hleaves.unique hleaves']
      · rintro (rfl | ⟨n, -, hleaves', habove⟩)
        · omega
        · rw [← hleaves.unique hleaves'] at habove
          omega
    · have hnot : ¬ (0 < m ∧ (parent p)^[m] N < 2) := by
        rcases hbad with ⟨rfl, -⟩ | habove <;> omega
      rw [if_neg hnot] at hmain
      rw [hmain]
      refine ⟨fun ans => ⟨nofun, ?_⟩, ⟨fun _ => ?_, fun _ => rfl⟩, nofun,
        fun hstays => absurd hstays hnever⟩
      · rintro ⟨n, -, hpos, -, hleaves', hlow⟩
        rw [← hleaves.unique hleaves'] at hpos hlow
        exact absurd ⟨hpos, hlow⟩ hnot
      · rcases hbad with ⟨-, hone⟩ | habove
        · exact .inl hone
        · exact .inr ⟨m, hlt, hleaves, habove⟩

theorem main_ends_four :
    (∀ ans, main 4 [1, 4, 2] = .ok ans ↔ ∃ m : ℕ, ans = m ∧ 0 < m ∧ (m : Int) < 4 ∧
      FirstLeaves (parent [1, 4, 2]) (Set.Icc 2 4) 4 m ∧ (parent [1, 4, 2])^[m] 4 < 2) ∧
    (main 4 [1, 4, 2] = .error .outOfRange ↔ (4 : Int) = 1 ∨ ∃ m : ℕ, (m : Int) < 4 ∧
      FirstLeaves (parent [1, 4, 2]) (Set.Icc 2 4) 4 m ∧ 4 < (parent [1, 4, 2])^[m] 4) ∧
    (main 4 [1, 4, 2] = .error .overflow ↔
      ∀ j : ℕ, (j : Int) < 4 → (parent [1, 4, 2])^[j] 4 ∈ Set.Icc 2 4) :=
  main_ends_iff ⟨by decide, by decide, by decide⟩

/-! ### A family tree -/

/-- The parent of `child` is somebody with a smaller number. -/
def FamilyTree (p : List Int) : Prop :=
  ∀ i (hi : i < p.length), 1 ≤ p[i] ∧ p[i] ≤ i + 1

theorem parent_lt (h : Input N p) (htree : FamilyTree p) {child : Int}
    (hchild : child ∈ Set.Icc 2 N) : 1 ≤ parent p child ∧ parent p child < child := by
  have hlt := lt_length h hchild
  obtain ⟨hlow, hhigh⟩ := hchild
  obtain ⟨hone, hless⟩ := htree (child - 2).toNat hlt
  rw [parent_eq hlt]
  omega

/-- As long as the ancestor is not reached the numbers go down. -/
theorem generation_le (h : Input N p) (htree : FamilyTree p) (hN : 2 ≤ N) {j : ℕ}
    (hinside : ∀ i < j, (parent p)^[i] N ∈ Set.Icc 2 N) :
    1 ≤ (parent p)^[j] N ∧ (parent p)^[j] N ≤ N - j := by
  induction j with
  | zero =>
      rw [Function.iterate_zero_apply]
      omega
  | succ j ih =>
      obtain ⟨-, hle⟩ := ih (fun i hi => hinside i (by omega))
      have hstep := parent_lt h htree (hinside j (Nat.lt_succ_self j))
      rw [Function.iterate_succ_apply']
      push_cast
      omega

theorem main_familyTree (h : Input N p) (htree : FamilyTree p) (hN : 2 ≤ N) :
    ∃ m : ℕ, main N p = .ok (m : Int) ∧ m < N ∧ (parent p)^[m] N = 1 ∧
      ∀ j < m, 1 < (parent p)^[j] N ∧ (parent p)^[j + 1] N < (parent p)^[j] N := by
  rcases forall_mem_or_firstLeaves (parent p) (Set.Icc 2 N) N with hstays | ⟨m, hleaves⟩
  · have hle := (generation_le h htree hN (j := N.toNat) (fun i _ => hstays i)).2
    have hlow := (hstays N.toNat).1
    omega
  · have hle := generation_le h htree hN hleaves.inside
    have hlast : 0 < m ∧ (parent p)^[m] N < 2 := by
      rcases leaves_cases h hleaves with hok | ⟨-, hone⟩ | habove
      · exact hok
      · omega
      · omega
    refine ⟨m, ?_, lt_of_leaves h hleaves, by omega, fun j hj => ?_⟩
    · rw [main_of_leaves h hleaves, if_pos hlast]
    · have hchild := hleaves.inside j hj
      rw [Function.iterate_succ_apply']
      exact ⟨hchild.1, (parent_lt h htree hchild).2⟩

end

theorem main_familyTree_four :
    ∃ m : ℕ, main 4 [1, 1, 3] = .ok (m : Int) ∧ (m : Int) < 4 ∧ (parent [1, 1, 3])^[m] 4 = 1 ∧
      ∀ j < m, 1 < (parent [1, 1, 3])^[j] 4 ∧
        (parent [1, 1, 3])^[j + 1] 4 < (parent [1, 1, 3])^[j] 4 :=
  main_familyTree ⟨by decide, by decide, by decide⟩ (by unfold FamilyTree; decide) (by decide)

end Ancestor

/-! ## `A-UniqueLetter.hs` -/

namespace UniqueLetter

theorem solve_cons (first : Char) (rest : List Char) :
    solve (first :: rest) =
      if (first :: rest).count first = 1 then [first]
      else solve ((first :: rest).filter (· ≠ first)) := by
  rw [solve, List.count_eq_length_filter]
  rfl

/-- Taking a letter out does not change how often another is there. -/
theorem count_filter_ne {first letter : Char} (h : letter ≠ first) (str : List Char) :
    (str.filter (· ≠ first)).count letter = str.count letter :=
  List.count_filter (decide_eq_true h)

def firstUnique (str : List Char) : Option Char :=
  str.find? (fun letter => str.count letter = 1)

/-- A letter that is taken out because there are more of it was not unique. -/
theorem firstUnique_filter_ne {first : Char} {str : List Char} (h : str.count first ≠ 1) :
    firstUnique (str.filter (· ≠ first)) = firstUnique str := by
  rw [firstUnique, firstUnique, List.find?_filter]
  congr 1
  funext letter
  rw [decide_eq_decide, decide_eq_true_iff, decide_eq_true_iff]
  by_cases heq : letter = first
  · rw [heq]
    exact ⟨fun hboth => absurd rfl hboth.1, fun hone => absurd hone h⟩
  · rw [count_filter_ne heq]
    exact and_iff_right heq

theorem solve_eq (str : List Char) :
    solve str = (firstUnique str).elim ['-', '1'] fun letter => [letter] := by
  induction str using solve.induct with
  | case1 => rw [solve, firstUnique, List.find?_nil, Option.elim_none]
  | case2 first rest str hone =>
      have hcount : (first :: rest).count first = 1 := by
        rwa [List.count_eq_length_filter]
      have hfind : firstUnique (first :: rest) = some first :=
        List.find?_cons_of_pos (decide_eq_true hcount)
      rw [solve_cons, if_pos hcount, hfind, Option.elim_some]
  | case3 first rest str hmany ih =>
      have hcount : (first :: rest).count first ≠ 1 := by
        rwa [List.count_eq_length_filter]
      rw [solve_cons, if_neg hcount, ih, firstUnique_filter_ne hcount]

/-- A letter of the text is there once or more often. -/
theorem two_le_count {str : List Char} {x : Char} (hx : x ∈ str) (h : str.count x ≠ 1) :
    2 ≤ str.count x := by
  have := List.count_pos_iff.mpr hx
  omega

theorem firstUnique_eq_some_iff {str : List Char} {letter : Char} :
    firstUnique str = some letter ↔ ∃ before after, str = before ++ letter :: after ∧
      str.count letter = 1 ∧ ∀ x ∈ before, 2 ≤ str.count x := by
  rw [firstUnique, List.find?_eq_some_iff_append, decide_eq_true_iff]
  constructor
  · rintro ⟨hone, before, after, hstr, hbefore⟩
    refine ⟨before, after, hstr, hone, fun x hx => two_le_count ?_ ?_⟩
    · rw [hstr]
      exact List.mem_append_left _ hx
    · simpa using hbefore x hx
  · rintro ⟨before, after, hstr, hone, hbefore⟩
    refine ⟨hone, before, after, hstr, fun x hx => ?_⟩
    have htwo := hbefore x hx
    rw [Bool.not_eq_true', decide_eq_false_iff_not]
    omega

theorem firstUnique_eq_none_iff {str : List Char} :
    firstUnique str = none ↔ ∀ x ∈ str, 2 ≤ str.count x := by
  rw [firstUnique, List.find?_eq_none]
  refine forall₂_congr fun x hx => ?_
  rw [decide_eq_true_iff]
  exact ⟨two_le_count hx, fun htwo => by omega⟩

theorem solve_first_unique (str : List Char) :
    (∀ letter, solve str = [letter] ↔ ∃ before after, str = before ++ letter :: after ∧
      str.count letter = 1 ∧ ∀ x ∈ before, 2 ≤ str.count x) ∧
    (solve str = ['-', '1'] ↔ ∀ x ∈ str, 2 ≤ str.count x) := by
  rw [solve_eq]
  refine ⟨fun letter => ?_, ?_⟩
  · rw [← firstUnique_eq_some_iff]
    cases firstUnique str <;> simp
  · rw [← firstUnique_eq_none_iff]
    cases firstUnique str <;> simp

end UniqueLetter

/-! ## `A-FullHouse.hs` -/

namespace FullHouse

theorem count_add_count {x y : Int} (h : x ≠ y) (hand : List Int) :
    hand.count x + hand.count y = hand.countP (fun card => card ∈ [x, y]) := by
  induction hand with
  | nil => rfl
  | cons card hand ih =>
      simp only [List.count_cons, List.countP_cons, List.mem_cons, List.not_mem_nil, or_false,
        beq_iff_eq, decide_eq_true_iff] at ih ⊢
      by_cases hx : card = x
      · have hy : card ≠ y := fun heq => h (hx.symm.trans heq)
        simp only [hx, h, true_or, if_true, if_false]
        omega
      · simp only [hx, false_or, if_false]
        omega

/-- Three of one and two of another. -/
theorem perm_iff {x y : Int} (h : x ≠ y) (hand : List Int) :
    hand.Perm [x, x, x, y, y] ↔ hand.count x = 3 ∧ hand.count y = 2 ∧ hand ⊆ [x, y] :=
  List.perm_replicate_append_replicate (m := 3) (n := 2) h

theorem mul_eq_six {a b : ℕ} (ha : 0 < a) (hb : 0 < b) (hle : a + b ≤ 5) :
    a * b = 6 ↔ (a = 3 ∧ b = 2) ∨ (a = 2 ∧ b = 3) := by
  have ha' : a ≤ 4 := by omega
  interval_cases a <;> omega

/-- Of cards between `low` and `high`. -/
theorem count_mul_count_iff {hand : List Int} (hlen : hand.length = 5) {low high : Int}
    (hlow : low ∈ hand) (hhigh : high ∈ hand) (hle : ∀ card ∈ hand, low ≤ card)
    (hge : ∀ card ∈ hand, card ≤ high) :
    hand.count low * hand.count high = 6 ↔
      ∃ x y, x ≠ y ∧ hand.Perm [x, x, x, y, y] := by
  rcases eq_or_ne low high with rfl | hne
  · have hall : hand.count low = 5 :=
      hlen ▸ List.count_eq_length.mpr fun card hc => le_antisymm (hle card hc) (hge card hc)
    rw [hall]
    refine ⟨by omega, ?_⟩
    rintro ⟨x, y, hxy, hperm⟩
    have hx : x ∈ hand := hperm.mem_iff.mpr (by simp)
    have hy : y ∈ hand := hperm.mem_iff.mpr (by simp)
    have := hle x hx
    have := hge x hx
    have := hle y hy
    have := hge y hy
    omega
  · have hsum := count_add_count hne hand
    have hbound := hsum ▸ hlen ▸ List.countP_le_length
    rw [mul_eq_six (List.count_pos_iff.mpr hlow) (List.count_pos_iff.mpr hhigh) hbound]
    have hsub : hand.count low + hand.count high = 5 → hand ⊆ [low, high] := by
      intro hfive card hc
      have hcount := List.countP_eq_length.mp ((hsum.symm.trans hfive).trans hlen.symm) card hc
      exact of_decide_eq_true hcount
    constructor
    · rintro (⟨hthree, htwo⟩ | ⟨htwo, hthree⟩)
      · exact ⟨low, high, hne, (perm_iff hne hand).mpr ⟨hthree, htwo, hsub (by omega)⟩⟩
      · have hsub' := hsub (by omega)
        refine ⟨high, low, hne.symm, (perm_iff hne.symm hand).mpr ⟨hthree, htwo, ?_⟩⟩
        exact fun card hc => List.mem_pair.mpr (List.mem_pair.mp (hsub' hc)).symm
    · rintro ⟨x, y, hxy, hperm⟩
      obtain ⟨hthree, htwo, hsub'⟩ := (perm_iff hxy hand).mp hperm
      rcases List.mem_pair.mp (hsub' hlow) with rfl | rfl
      · rcases List.mem_pair.mp (hsub' hhigh) with rfl | rfl
        · exact absurd rfl hne
        · exact .inl ⟨hthree, htwo⟩
      · rcases List.mem_pair.mp (hsub' hhigh) with rfl | rfl
        · exact .inr ⟨htwo, hthree⟩
        · exact absurd rfl hne

/-- The sorted hand. -/
def sorted (tmp : List Int) : List Int := tmp.insertionSort (· ≤ ·)

theorem mem_sorted {tmp : List Int} {card : Int} : card ∈ sorted tmp ↔ card ∈ tmp :=
  (List.perm_insertionSort (· ≤ ·) tmp).mem_iff

theorem length_filter_sorted (tmp : List Int) (card : Int) :
    ((sorted tmp).filter (fun num => some card = some num)).length = tmp.count card := by
  rw [← (List.perm_insertionSort (· ≤ ·) tmp).count_eq, List.count_eq_length_filter]
  congr 2
  funext num
  rw [beq_eq_decide, decide_eq_decide, Option.some.injEq, eq_comm]

theorem main_eq {tmp : List Int} (hne : sorted tmp ≠ []) :
    main tmp =
      if tmp.count ((sorted tmp).head hne) * tmp.count ((sorted tmp).getLast hne) = 6 then "Yes"
      else "No" := by
  rw [← length_filter_sorted, ← length_filter_sorted, ← List.head?_eq_some_head hne,
    ← List.getLast?_eq_some_getLast hne]
  rfl

theorem main_fullHouse (tmp : List Int) (hlen : tmp.length = 5) :
    main tmp = "Yes" ↔ ∃ x y, x ≠ y ∧ tmp.Perm [x, x, x, y, y] := by
  have hsorted : (sorted tmp).Pairwise (· ≤ ·) := List.pairwise_insertionSort (· ≤ ·) tmp
  have hne : sorted tmp ≠ [] := by
    rw [← List.length_pos_iff, sorted, List.length_insertionSort, hlen]
    decide
  rw [main_eq hne, ← count_mul_count_iff hlen (mem_sorted.mp (List.head_mem hne))
    (mem_sorted.mp (List.getLast_mem hne))
    (fun card hc => hsorted.rel_head (mem_sorted.mpr hc))
    (fun card hc => hsorted.rel_getLast (mem_sorted.mpr hc))]
  split
  · next hsix => exact ⟨fun _ => hsix, fun _ => rfl⟩
  · next hnot => exact ⟨nofun, fun hsix => absurd hsix hnot⟩

theorem main_fullHouse_kings :
    ∃ x y : Int, x ≠ y ∧ [13, 1, 13, 1, 13].Perm [x, x, x, y, y] :=
  (main_fullHouse [13, 1, 13, 1, 13] rfl).mp (by decide)

end FullHouse

/-! ## `A-Apple.hs` -/

namespace Apple

/-- What `n` apples can cost, bought as `x` single ones and `y` bags of three. -/
def prices (a b n : Int) : Set Int :=
  {price | ∃ x y, 0 ≤ x ∧ 0 ≤ y ∧ x + 3 * y = n ∧ price = a * x + b * y}

theorem main_eq (a b n : Int) :
    main a b n = if a < b / 3 then a * n else a * n + (b - 3 * a) * (n / 3) := by
  rw [main, Int.fdiv_eq_ediv_of_nonneg _ (by simp), Int.fdiv_eq_ediv_of_nonneg _ (by simp),
    Int.fmod_eq_emod_of_nonneg _ (by simp)]
  congr 1
  have hn := Int.emod_add_mul_ediv n 3
  linear_combination a * hn

theorem mem_prices_iff {a b n price : Int} :
    price ∈ prices a b n ↔ ∃ y, 0 ≤ y ∧ y ≤ n / 3 ∧ price = a * n + (b - 3 * a) * y := by
  constructor
  · rintro ⟨x, y, hx, hy, hsum, rfl⟩
    refine ⟨y, hy, by omega, ?_⟩
    rw [← hsum]
    ring
  · rintro ⟨y, hy, hle, rfl⟩
    exact ⟨n - 3 * y, y, by omega, hy, by ring, by ring⟩

theorem main_mem_prices (a b : Int) {n : Int} (hn : 0 ≤ n) : main a b n ∈ prices a b n := by
  rw [main_eq, mem_prices_iff]
  split
  · exact ⟨0, le_rfl, by omega, by ring⟩
  · exact ⟨n / 3, by omega, le_rfl, rfl⟩

/-- Bags save money where a bag is cheaper than three apples, which is when the
price of `n` goes down with the bags. -/
theorem main_le_prices_iff (a b n : Int) (hn : 0 ≤ n) :
    (∀ price ∈ prices a b n, main a b n ≤ price) ↔ a < b / 3 ∨ b ≤ 3 * a ∨ n < 3 := by
  rw [main_eq]
  constructor
  · intro hle
    by_contra! hnot
    obtain ⟨hge, hdear, hmany⟩ := hnot
    have hsingles := hle (a * n) (mem_prices_iff.mpr ⟨0, le_rfl, by omega, by ring⟩)
    rw [if_neg (not_lt.mpr hge)] at hsingles
    have hmore : 0 < (b - 3 * a) * (n / 3) := mul_pos (by omega) (by omega)
    omega
  · intro hcond price hprice
    obtain ⟨y, hy, hle, rfl⟩ := mem_prices_iff.mp hprice
    split
    · next hlt =>
        have hdear : 0 ≤ (b - 3 * a) * y := mul_nonneg (by omega) hy
        omega
    · next hge =>
        rcases hcond with hlt | hcheap | hfew
        · exact absurd hlt hge
        · have hless := mul_le_mul_of_nonpos_left hle (show b - 3 * a ≤ 0 by omega)
          omega
        · have hzero : n / 3 = 0 := by omega
          have hnone : y = 0 := by omega
          rw [hzero, hnone]

theorem main_isLeast_iff (a b n : Int) (hn : 0 ≤ n) :
    IsLeast (prices a b n) (main a b n) ↔ n < 3 ∨ b % 3 = 0 ∨ a ≠ b / 3 := by
  rw [IsLeast, and_iff_right (main_mem_prices a b hn), mem_lowerBounds,
    main_le_prices_iff a b n hn]
  omega

theorem main_isLeast_ten : IsLeast (prices 10 30 10) (main 10 30 10) :=
  (main_isLeast_iff 10 30 10 (by decide)).mpr (by decide)

end Apple

end Playspace.Kyopro
