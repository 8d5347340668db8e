import Mathlib.Algebra.Order.Monoid.Unbundled.Basic
import Mathlib.Data.List.Destutter
import Playspace.Lib.Warping

/-!
# Paths that cost nothing

Where a step into a cell costs nothing exactly when the two sequences agree
there, a path can hold one sequence in its place while the other repeats itself,
and it can move on in both. So there is a path for nothing exactly when the two
sequences are the same once every run of equal elements is taken as one
(`leastCost_eq_zero_iff`). `heldValues` is that shorter sequence, built up along
the sequence, and `heldValues_eq_destutter` says that it is Mathlib's.
-/

namespace Playspace.Lib

section Held

variable {α : Type*} [DecidableEq α] {x y : ℕ → α} {i j : ℕ}

/-- The elements up to the `i`-th, each run of equal ones taken once. -/
def heldValues (x : ℕ → α) : ℕ → List α
  | 0 => [x 0]
  | i + 1 =>
      if x i = x (i + 1) then heldValues x i else heldValues x i ++ [x (i + 1)]

theorem getLast?_heldValues (x : ℕ → α) (i : ℕ) : (heldValues x i).getLast? = some (x i) := by
  induction i with
  | zero => rfl
  | succ i ih =>
      rw [heldValues]
      split
      · next hheld => rw [ih, hheld]
      · exact List.getLast?_concat

theorem last_eq_of_heldValues_eq (h : heldValues x i = heldValues y j) : x i = y j := by
  have hlast := getLast?_heldValues x i
  rw [h, getLast?_heldValues] at hlast
  exact (Option.some.inj hlast).symm

theorem heldValues_held (h : x i = x (i + 1)) : heldValues x (i + 1) = heldValues x i :=
  if_pos h

theorem heldValues_moved (h : x i ≠ x (i + 1)) :
    heldValues x (i + 1) = heldValues x i ++ [x (i + 1)] :=
  if_neg h

/-- One of the sequences is held while the other takes a step. -/
theorem heldValues_succ_of_eq (hcell : x (i + 1) = y j)
    (h : heldValues x i = heldValues y j) : heldValues x (i + 1) = heldValues y j := by
  rw [heldValues_held ((last_eq_of_heldValues_eq h).trans hcell.symm), h]

/-- Both take a step. -/
theorem heldValues_succ_succ_of_eq (hcell : x (i + 1) = y (j + 1))
    (h : heldValues x i = heldValues y j) :
    heldValues x (i + 1) = heldValues y (j + 1) := by
  have hlast := last_eq_of_heldValues_eq h
  rw [heldValues, heldValues, h, hcell, hlast]

/-- No step of the first sequence is left out of the other's first element. -/
theorem heldValues_eq_of_succ_eq_zero (h : heldValues x (i + 1) = heldValues y 0) :
    heldValues x i = heldValues y 0 := by
  by_cases hheld : x i = x (i + 1)
  · rwa [heldValues_held hheld] at h
  · rw [heldValues_moved hheld] at h
    have hnil := (List.append_eq_singleton_iff.mp h)
    obtain ⟨hnil, -⟩ | ⟨-, hnil⟩ := hnil
    · have hlast := getLast?_heldValues x i
      rw [hnil] at hlast
      cases hlast
    · cases hnil

/-- Two sequences that agree so far have agreed before their last steps, in one
of the three ways. -/
theorem heldValues_before (h : heldValues x (i + 1) = heldValues y (j + 1)) :
    heldValues x i = heldValues y (j + 1) ∨ heldValues x (i + 1) = heldValues y j ∨
      heldValues x i = heldValues y j := by
  by_cases hx : x i = x (i + 1)
  · exact Or.inl (heldValues_held hx ▸ h)
  · by_cases hy : y j = y (j + 1)
    · exact Or.inr (Or.inl (heldValues_held hy ▸ h))
    · rw [heldValues_moved hx, heldValues_moved hy] at h
      exact Or.inr (Or.inr (List.append_inj_left' h rfl))

theorem destutter'_concat_ne (a b : α) (l : List α) :
    (l ++ [b]).destutter' (· ≠ ·) a =
      if (a :: l).getLast? = some b then l.destutter' (· ≠ ·) a
      else l.destutter' (· ≠ ·) a ++ [b] := by
  induction l generalizing a with
  | nil =>
      by_cases hab : a = b
      · simp [hab]
      · simp [hab]
  | cons c l ih =>
      rw [List.cons_append, List.getLast?_cons_cons]
      by_cases hac : a = c
      · rw [List.destutter'_cons_neg _ (not_not.mpr hac),
          List.destutter'_cons_neg _ (not_not.mpr hac), ih, hac]
      · rw [List.destutter'_cons_pos _ hac, List.destutter'_cons_pos _ hac, ih]
        split
        · rfl
        · rfl

theorem destutter_concat_ne {l : List α} {a : α} (h : l.getLast? = some a) (b : α) :
    (l ++ [b]).destutter (· ≠ ·) =
      if a = b then l.destutter (· ≠ ·) else l.destutter (· ≠ ·) ++ [b] := by
  cases l with
  | nil => cases h
  | cons c l =>
      rw [List.cons_append, List.destutter_cons', List.destutter_cons', destutter'_concat_ne, h]
      simp only [Option.some.injEq]

theorem heldValues_eq_destutter (x : ℕ → α) (i : ℕ) :
    heldValues x i = ((List.range (i + 1)).map x).destutter (· ≠ ·) := by
  induction i with
  | zero => rfl
  | succ i ih =>
      have hlast : ((List.range (i + 1)).map x).getLast? = some (x i) := by
        rw [List.range_succ, List.map_append, List.map_singleton, List.getLast?_concat]
      rw [heldValues, ih, List.range_succ (n := i + 1), List.map_append, List.map_singleton,
        destutter_concat_ne hlast]

end Held

namespace Charges

variable {K α : Type*} [AddCommMonoid K] [LinearOrder K] {c : Charges K} {x y : ℕ → α}

/-- Up to this cell, a step costs nothing exactly where the sequences agree. -/
structure Detects (c : Charges K) (x y : ℕ → α) (m n : ℕ) : Prop where
  start : c.start = 0 ↔ x 0 = y 0
  vertical : ∀ i j, i ≤ m → j ≤ n → (c.vertical i j = 0 ↔ x i = y j)
  horizontal : ∀ i j, i ≤ m → j ≤ n → (c.horizontal i j = 0 ↔ x i = y j)
  diagonal : ∀ i j, i ≤ m → j ≤ n → (c.diagonal i j = 0 ↔ x i = y j)

/-- The two sequences change places. -/
def swap (c : Charges K) : Charges K where
  start := c.start
  vertical i j := c.horizontal j i
  horizontal i j := c.vertical j i
  diagonal i j := c.diagonal j i

theorem cappedCost_swap (c : Charges K) (cap : K) (i j : ℕ) :
    c.swap.cappedCost cap j i = c.cappedCost cap i j := by
  induction i, j using leastCost.induct with
  | case1 => rw [cappedCost, cappedCost, swap]
  | case2 i ih =>
      rw [cappedCost, cappedCost, ih]
      rfl
  | case3 j ih =>
      rw [cappedCost, cappedCost, ih]
      rfl
  | case4 i j ihv ihh ihd =>
      rw [cappedCost, cappedCost, ihv, ihh, ihd, min_right_comm cap]
      rfl

theorem min_eq_zero_iff {a b : K} (ha : 0 ≤ a) (hb : 0 ≤ b) :
    min a b = 0 ↔ a = 0 ∨ b = 0 := by
  constructor
  · intro h
    obtain hmin | hmin := min_choice a b
    · exact Or.inl (hmin ▸ h)
    · exact Or.inr (hmin ▸ h)
  · rintro (rfl | rfl)
    · exact min_eq_left hb
    · exact min_eq_right ha

variable [IsOrderedAddMonoid K]

theorem leastCost_nonneg (hc : c.Nonneg) (hstart : 0 ≤ c.start) (i j : ℕ) :
    0 ≤ c.leastCost i j := by
  induction i, j using leastCost.induct with
  | case1 => rwa [leastCost]
  | case2 i ih =>
      rw [leastCost]
      exact add_nonneg (hc.vertical _ _) ih
  | case3 j ih =>
      rw [leastCost]
      exact add_nonneg (hc.horizontal _ _) ih
  | case4 i j ihv ihh ihd =>
      rw [leastCost]
      exact le_min (le_min (add_nonneg (hc.vertical _ _) ihv)
        (add_nonneg (hc.horizontal _ _) ihh)) (add_nonneg (hc.diagonal _ _) ihd)

variable [DecidableEq α]

theorem leastCost_eq_zero_iff (hc : c.Nonneg) (hstart : 0 ≤ c.start) {m n : ℕ}
    (h : c.Detects x y m n) {i j : ℕ} (hi : i ≤ m) (hj : j ≤ n) :
    c.leastCost i j = 0 ↔ heldValues x i = heldValues y j := by
  have hleast := leastCost_nonneg hc hstart
  induction i, j using leastCost.induct with
  | case1 =>
      rw [leastCost, h.start, heldValues, heldValues, List.singleton_inj]
  | case2 i ih =>
      rw [leastCost, add_eq_zero_iff_of_nonneg (hc.vertical _ _) (hleast _ _),
        h.vertical _ _ hi hj]
      simp only [ih (Nat.le_of_succ_le hi) hj]
      constructor
      · rintro ⟨hcell, hheld⟩
        exact heldValues_succ_of_eq hcell hheld
      · intro hheld
        exact ⟨last_eq_of_heldValues_eq hheld, heldValues_eq_of_succ_eq_zero hheld⟩
  | case3 j ih =>
      rw [leastCost, add_eq_zero_iff_of_nonneg (hc.horizontal _ _) (hleast _ _),
        h.horizontal _ _ hi hj]
      simp only [ih hi (Nat.le_of_succ_le hj)]
      constructor
      · rintro ⟨hcell, hheld⟩
        exact (heldValues_succ_of_eq hcell.symm hheld.symm).symm
      · intro hheld
        exact ⟨last_eq_of_heldValues_eq hheld, (heldValues_eq_of_succ_eq_zero hheld.symm).symm⟩
  | case4 i j ihv ihh ihd =>
      have hv := add_nonneg (hc.vertical (i + 1) (j + 1)) (hleast i (j + 1))
      have hh := add_nonneg (hc.horizontal (i + 1) (j + 1)) (hleast (i + 1) j)
      have hd := add_nonneg (hc.diagonal (i + 1) (j + 1)) (hleast i j)
      have hi' := Nat.le_of_succ_le hi
      have hj' := Nat.le_of_succ_le hj
      rw [leastCost, min_eq_zero_iff (le_min hv hh) hd, min_eq_zero_iff hv hh,
        add_eq_zero_iff_of_nonneg (hc.vertical _ _) (hleast _ _),
        add_eq_zero_iff_of_nonneg (hc.horizontal _ _) (hleast _ _),
        add_eq_zero_iff_of_nonneg (hc.diagonal _ _) (hleast _ _), h.vertical _ _ hi hj,
        h.horizontal _ _ hi hj, h.diagonal _ _ hi hj]
      simp only [ihv hi' hj, ihh hi hj', ihd hi' hj']
      constructor
      · rintro ((⟨hcell, hheld⟩ | ⟨hcell, hheld⟩) | ⟨hcell, hheld⟩)
        · exact heldValues_succ_of_eq hcell hheld
        · exact (heldValues_succ_of_eq hcell.symm hheld.symm).symm
        · exact heldValues_succ_succ_of_eq hcell hheld
      · intro hheld
        have hcell := last_eq_of_heldValues_eq hheld
        obtain hbefore | hbefore | hbefore := heldValues_before hheld
        · exact Or.inl (Or.inl ⟨hcell, hbefore⟩)
        · exact Or.inl (Or.inr ⟨hcell, hbefore⟩)
        · exact Or.inr ⟨hcell, hbefore⟩

/-- The cap takes nothing off a path for nothing. -/
theorem cappedCost_eq_zero_iff (hc : c.Nonneg) (hstart : 0 ≤ c.start) {m n : ℕ}
    (h : c.Detects x y m n) {cap : K} (hcap : 0 < cap) :
    c.cappedCost cap m n = 0 ↔ heldValues x m = heldValues y n := by
  rw [← leastCost_eq_zero_iff hc hstart h (Nat.le_refl m) (Nat.le_refl n)]
  obtain ⟨-, -, heq⟩ | heq := cappedCost_cases hc cap m n
  · rw [heq]
  · rw [heq, min_eq_zero_iff (le_of_lt hcap) (leastCost_nonneg hc hstart m n)]
    exact or_iff_right (ne_of_gt hcap)

end Charges

end Playspace.Lib
