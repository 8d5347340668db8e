import Playspace.Visibility.Graph

/-!
# Deleting the reference point

`declination_sort_by_ref_point` sorts the points by their angle around one of
them and takes that one to be in front. Its angle is zero, by definition of the
angle at the origin, and every point below it has a negative one. So the erase
hits the reference point exactly when nothing else can come before it
(`declinationSort_iff`).
-/

namespace Playspace.Visibility

variable {refP : GraphPoint ℝ} {otherPoints resultPoints : List (GraphPoint ℝ)}

theorem declination_self (refP : GraphPoint ℝ) : declination refP refP = 0 := by
  rw [declination, atan2, sub_self, sub_self]
  exact Complex.arg_zero

/-- The angles between zero and π, without and with it, are those of the upper
half of the plane and of the left half of its edge. -/
theorem declination_pos_iff (refP p : GraphPoint ℝ) :
    0 < declination refP p ↔ refP.2 < p.2 ∨ (p.2 = refP.2 ∧ p.1 < refP.1) := by
  rw [declination, atan2, lt_iff_le_and_ne, Complex.arg_nonneg_iff, ne_comm, Ne,
    Complex.arg_eq_zero_iff]
  show 0 ≤ p.2 - refP.2 ∧ ¬ (0 ≤ p.1 - refP.1 ∧ p.2 - refP.2 = 0) ↔ _
  rw [sub_nonneg, sub_nonneg, sub_eq_zero]
  constructor
  · rintro ⟨hle, hedge⟩
    rcases hle.lt_or_eq with hlt | heq
    · exact Or.inl hlt
    · exact Or.inr ⟨heq.symm, not_le.mp fun hright => hedge ⟨hright, heq.symm⟩⟩
  · rintro (hlt | ⟨heq, hleft⟩)
    · exact ⟨hlt.le, fun hedge => hlt.ne' hedge.2⟩
    · exact ⟨heq.ge, fun hedge => absurd hedge.1 (not_le.mpr hleft)⟩

/-! ## Sorting by a key -/

section Keys

variable {α : Type*} {key : α → ℝ}

/-- The comparator's order, read off the keys. -/
theorem StdSort.keys_le {l sorted : List α}
    (h : StdSort (fun a b => key a < key b) l sorted) :
    sorted.Pairwise fun a b => key a ≤ key b :=
  h.ordered.imp not_lt.mp

/-- Every list has a sorted permutation. -/
theorem StdSort.exists (key : α → ℝ) (l : List α) :
    ∃ sorted, StdSort (fun a b => key a < key b) l sorted := by
  classical
  have hsorted : (l.mergeSort fun a b => decide (key a ≤ key b)).Pairwise
      fun a b => decide (key a ≤ key b) := by
    refine List.pairwise_mergeSort ?_ ?_ l
    · intro a b c hab hbc
      rw [decide_eq_true_eq] at hab hbc ⊢
      exact hab.trans hbc
    · intro a b
      rw [Bool.or_eq_true, decide_eq_true_eq, decide_eq_true_eq]
      exact le_total (key a) (key b)
  refine ⟨_, List.mergeSort_perm l _, hsorted.imp ?_⟩
  intro a b hab
  exact not_lt.mpr (of_decide_eq_true hab)

/-- An element can be put in front when no key is below its own. -/
theorem StdSort.exists_cons {l : List α} {a : α} (hl : ∀ b ∈ l, key a ≤ key b) :
    ∃ rest, StdSort (fun a b => key a < key b) (a :: l) (a :: rest) ∧ rest.Perm l := by
  obtain ⟨rest, hrest⟩ := StdSort.exists key l
  refine ⟨rest, ⟨hrest.perm.cons a, ?_⟩, hrest.perm⟩
  rw [List.pairwise_cons]
  exact ⟨fun b hb => not_lt.mpr (hl b (hrest.perm.subset hb)), hrest.ordered⟩

end Keys

/-! ## What is erased -/

/-- The list without the reference point, in the order of the angles. -/
structure WithoutRef (refP : GraphPoint ℝ)
    (otherPoints resultPoints : List (GraphPoint ℝ)) : Prop where
  perm : resultPoints.Perm (otherPoints.erase refP)
  ordered : resultPoints.Pairwise fun p q => declination refP p ≤ declination refP q

/-- Whatever was erased, the rest is in order. -/
theorem DeclinationSortByRefPoint.ordered
    (h : DeclinationSortByRefPoint refP otherPoints resultPoints) :
    resultPoints.Pairwise fun p q => declination refP p ≤ declination refP q := by
  obtain ⟨first, hsort⟩ := h
  exact (List.pairwise_cons.mp hsort.keys_le).2

/-- With all the other angles positive the first point is the reference point. -/
theorem DeclinationSortByRefPoint.withoutRef (hmem : refP ∈ otherPoints)
    (hpos : ∀ p ∈ otherPoints, p ≠ refP → 0 < declination refP p)
    (h : DeclinationSortByRefPoint refP otherPoints resultPoints) :
    WithoutRef refP otherPoints resultPoints := by
  have hordered := h.ordered
  obtain ⟨first, hsort⟩ := h
  have hfirst : first = refP := by
    by_contra hne
    have hother := hpos first (hsort.perm.subset List.mem_cons_self) hne
    rcases List.mem_cons.mp (hsort.perm.symm.subset hmem) with heq | hrest
    · exact hne heq.symm
    · have hle := (List.pairwise_cons.mp hsort.keys_le).1 refP hrest
      rw [declination_self] at hle
      exact absurd hother (not_lt.mpr hle)
  subst hfirst
  exact ⟨(List.cons_perm_iff_perm_erase.mp hsort.perm).2, hordered⟩

/-- With another angle of zero or less some sort puts another point in front, and
the reference point stays. -/
theorem exists_refP_kept (hcount : otherPoints.count refP = 1) {p : GraphPoint ℝ}
    (hp : p ∈ otherPoints) (hne : p ≠ refP) (hneg : declination refP p ≤ 0) :
    ∃ resultPoints, DeclinationSortByRefPoint refP otherPoints resultPoints ∧
      refP ∈ resultPoints := by
  have hmem : refP ∈ otherPoints := List.count_pos_iff.mp (by omega)
  obtain ⟨sorted, hsort⟩ := StdSort.exists (declination refP) (otherPoints.erase refP)
  have hpmem : p ∈ sorted := hsort.perm.symm.subset ((List.mem_erase_of_ne hne).mpr hp)
  obtain ⟨first, rest, rfl⟩ := List.exists_cons_of_ne_nil (List.ne_nil_of_mem hpmem)
  obtain ⟨hleast, -⟩ := List.pairwise_cons.mp hsort.keys_le
  have hfirst : declination refP first ≤ 0 := by
    rcases List.mem_cons.mp hpmem with heq | hrest
    · rwa [← heq]
    · exact (hleast p hrest).trans hneg
  have hfront : ∀ q ∈ refP :: rest, declination refP first ≤ declination refP q := by
    intro q hq
    rcases List.mem_cons.mp hq with rfl | hq
    · rwa [declination_self]
    · exact hleast q hq
  obtain ⟨resultPoints, hresult, hperm⟩ := StdSort.exists_cons hfront
  -- The point in front, then the reference point and what was behind.
  have hall : (first :: refP :: rest).Perm otherPoints :=
    (List.Perm.swap refP first rest).trans
      ((hsort.perm.cons refP).trans (List.perm_cons_erase hmem).symm)
  exact ⟨resultPoints, ⟨first, hresult.perm.trans hall, hresult.ordered⟩,
    hperm.symm.subset List.mem_cons_self⟩

/-- Every result the call can have is the list without the reference point
exactly when all other points lie above the reference point, or level with it
and to the left. -/
theorem declinationSort_iff (hcount : otherPoints.count refP = 1) :
    (∃ resultPoints, DeclinationSortByRefPoint refP otherPoints resultPoints) ∧
    ((∀ resultPoints, DeclinationSortByRefPoint refP otherPoints resultPoints →
        WithoutRef refP otherPoints resultPoints) ↔
      ∀ p ∈ otherPoints, p ≠ refP →
        refP.2 < p.2 ∨ (p.2 = refP.2 ∧ p.1 < refP.1)) := by
  have hmem : refP ∈ otherPoints := List.count_pos_iff.mp (by omega)
  refine ⟨?_, ?_, ?_⟩
  · obtain ⟨sorted, hsort⟩ := StdSort.exists (declination refP) otherPoints
    obtain ⟨first, rest, rfl⟩ := List.exists_cons_of_ne_nil
      (List.ne_nil_of_mem (hsort.perm.symm.subset hmem))
    exact ⟨rest, first, hsort⟩
  · intro hall p hp hne
    rw [← declination_pos_iff]
    by_contra hneg
    obtain ⟨resultPoints, hresult, hkept⟩ :=
      exists_refP_kept hcount hp hne (not_lt.mp hneg)
    have hsubset := (hall resultPoints hresult).perm.subset hkept
    have herased : (otherPoints.erase refP).count refP = 0 := by
      rw [List.count_erase_self, hcount]
    exact absurd hsubset (List.count_eq_zero.mp herased)
  · intro hpos resultPoints hresult
    exact hresult.withoutRef hmem fun p hp hne =>
      (declination_pos_iff refP p).mpr (hpos p hp hne)

/-- Of the origin and a point below it, the point below is erased. -/
theorem declinationSort_below :
    DeclinationSortByRefPoint (0, 0) [(0, 0), (0, -1)] [(0, 0)] ∧
      ¬ WithoutRef (0, 0) [(0, 0), (0, -1)] [(0, 0)] := by
  have hbelow : ¬ 0 < declination (0, 0) (0, -1) := by
    rw [declination_pos_iff]
    norm_num
  refine ⟨⟨(0, -1), List.Perm.swap _ _ _, ?_⟩, ?_⟩
  · rw [List.pairwise_cons]
    refine ⟨?_, List.pairwise_singleton _ _⟩
    intro p hp
    rw [List.mem_singleton.mp hp, declination_self]
    exact hbelow
  · intro h
    have hkept := h.perm.subset List.mem_cons_self
    rw [List.erase_cons_head, List.mem_singleton, Prod.mk.injEq] at hkept
    norm_num at hkept

/-- Of the origin and a point above it, the point above stays. -/
theorem declinationSort_above :
    (∃ resultPoints,
      DeclinationSortByRefPoint (0, 0) [(0, 1), (0, 0)] resultPoints) ∧
    ∀ resultPoints, DeclinationSortByRefPoint (0, 0) [(0, 1), (0, 0)] resultPoints →
      WithoutRef (0, 0) [(0, 1), (0, 0)] resultPoints := by
  have hcount : List.count ((0, 0) : GraphPoint ℝ) [(0, 1), (0, 0)] = 1 := by
    rw [List.count_cons_of_ne (by norm_num), List.count_cons_self, List.count_nil]
  obtain ⟨hreturns, hiff⟩ := declinationSort_iff hcount
  refine ⟨hreturns, hiff.mpr ?_⟩
  intro p hp hne
  rcases List.mem_cons.mp hp with rfl | hp
  · exact Or.inl one_pos
  · exact absurd (List.mem_singleton.mp hp) hne

end Playspace.Visibility
