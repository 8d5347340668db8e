import Mathlib.Algebra.Order.Monoid.Defs
import Mathlib.Algebra.Order.Monoid.Unbundled.MinMax
import Mathlib.Order.Bounds.Basic

/-!
# Warping paths

A path through a grid starts at the origin and steps into the next row, the next
column or both, and each step costs what the cell it enters charges for that
kind of step. The recurrence over the last step computes the least cost there
is (`isLeast_leastCost`). A table filled with the same recurrence, but never
with more than a cap, holds the least cost cut off at the cap
(`cappedCost_eq`): no path gets cheaper again, so nothing of what the cap hides
is needed further on. The origin is not cut off.
-/

namespace Playspace.Lib

variable {K : Type*}

/-- What a path pays: at the origin, and for a step into a cell. -/
structure Charges (K : Type*) where
  start : K
  vertical : Nat → Nat → K
  horizontal : Nat → Nat → K
  diagonal : Nat → Nat → K

/-- The paths from the origin to a cell, by their last step. -/
inductive WarpingPath : Nat → Nat → Type where
  | start : WarpingPath 0 0
  | vertical {i j : Nat} (p : WarpingPath i j) : WarpingPath (i + 1) j
  | horizontal {i j : Nat} (p : WarpingPath i j) : WarpingPath i (j + 1)
  | diagonal {i j : Nat} (p : WarpingPath i j) : WarpingPath (i + 1) (j + 1)

/-- A cap on the least of three is one on each of them. -/
theorem min_min_min [LinearOrder K] (cap x y z : K) :
    min (min (min cap x) y) z = min (min (min cap x) (min cap y)) (min cap z) := by
  have hdistrib : ∀ a b, min cap (min a b) = min (min cap a) (min cap b) :=
    inf_inf_distrib_left cap
  rw [min_assoc cap, min_assoc cap, hdistrib, hdistrib]

namespace Charges

variable [AddCommMonoid K] [LinearOrder K]

/-- The sum of the charges along a path. -/
def costOf (c : Charges K) : {i j : Nat} → WarpingPath i j → K
  | _, _, .start => c.start
  | _, _, @WarpingPath.vertical i j p => c.vertical (i + 1) j + c.costOf p
  | _, _, @WarpingPath.horizontal i j p => c.horizontal i (j + 1) + c.costOf p
  | _, _, @WarpingPath.diagonal i j p => c.diagonal (i + 1) (j + 1) + c.costOf p

def leastCost (c : Charges K) : Nat → Nat → K
  | 0, 0 => c.start
  | i + 1, 0 => c.vertical (i + 1) 0 + c.leastCost i 0
  | 0, j + 1 => c.horizontal 0 (j + 1) + c.leastCost 0 j
  | i + 1, j + 1 =>
      min (min (c.vertical (i + 1) (j + 1) + c.leastCost i (j + 1))
        (c.horizontal (i + 1) (j + 1) + c.leastCost (i + 1) j))
        (c.diagonal (i + 1) (j + 1) + c.leastCost i j)

/-- The recurrence with no more than `cap` in a cell, the origin apart. -/
def cappedCost (c : Charges K) (cap : K) : Nat → Nat → K
  | 0, 0 => c.start
  | i + 1, 0 => min cap (c.vertical (i + 1) 0 + c.cappedCost cap i 0)
  | 0, j + 1 => min cap (c.horizontal 0 (j + 1) + c.cappedCost cap 0 j)
  | i + 1, j + 1 =>
      min (min (min cap (c.vertical (i + 1) (j + 1) + c.cappedCost cap i (j + 1)))
        (c.horizontal (i + 1) (j + 1) + c.cappedCost cap (i + 1) j))
        (c.diagonal (i + 1) (j + 1) + c.cappedCost cap i j)

/-! ## The least cost -/

/-- Some path costs what the recurrence says. -/
theorem exists_costOf_eq (c : Charges K) (i j : Nat) :
    ∃ p : WarpingPath i j, c.costOf p = c.leastCost i j := by
  induction i, j using leastCost.induct with
  | case1 =>
      refine ⟨.start, ?_⟩
      rw [costOf, leastCost]
  | case2 i ih =>
      obtain ⟨p, hp⟩ := ih
      refine ⟨.vertical p, ?_⟩
      rw [costOf, hp, leastCost]
  | case3 j ih =>
      obtain ⟨p, hp⟩ := ih
      refine ⟨.horizontal p, ?_⟩
      rw [costOf, hp, leastCost]
  | case4 i j ihv ihh ihd =>
      obtain ⟨pv, hv⟩ := ihv
      obtain ⟨ph, hh⟩ := ihh
      obtain ⟨pd, hd⟩ := ihd
      rw [leastCost, ← hv, ← hh, ← hd]
      rcases min_choice (min (c.vertical (i + 1) (j + 1) + c.costOf pv)
        (c.horizontal (i + 1) (j + 1) + c.costOf ph))
        (c.diagonal (i + 1) (j + 1) + c.costOf pd) with h | h
      · rw [h]
        rcases min_choice (c.vertical (i + 1) (j + 1) + c.costOf pv)
          (c.horizontal (i + 1) (j + 1) + c.costOf ph) with h | h
        · exact ⟨.vertical pv, by rw [h, costOf]⟩
        · exact ⟨.horizontal ph, by rw [h, costOf]⟩
      · exact ⟨.diagonal pd, by rw [h, costOf]⟩

variable [IsOrderedAddMonoid K]

/-- And none costs less. -/
theorem leastCost_le (c : Charges K) {i j : Nat} (p : WarpingPath i j) :
    c.leastCost i j ≤ c.costOf p := by
  induction p with
  | start => rw [leastCost, costOf]
  | @vertical i j p ih =>
      have hstep := add_le_add_right ih (c.vertical (i + 1) j)
      rw [costOf]
      cases j with
      | zero => rwa [leastCost]
      | succ j =>
          rw [leastCost]
          exact (min_le_left _ _).trans ((min_le_left _ _).trans hstep)
  | @horizontal i j p ih =>
      have hstep := add_le_add_right ih (c.horizontal i (j + 1))
      rw [costOf]
      cases i with
      | zero => rwa [leastCost]
      | succ i =>
          rw [leastCost]
          exact (min_le_left _ _).trans ((min_le_right _ _).trans hstep)
  | @diagonal i j p ih =>
      rw [costOf, leastCost]
      exact (min_le_right _ _).trans (add_le_add_right ih _)

theorem isLeast_leastCost (c : Charges K) (i j : Nat) :
    IsLeast (Set.range fun p : WarpingPath i j => c.costOf p) (c.leastCost i j) := by
  obtain ⟨p, hp⟩ := c.exists_costOf_eq i j
  refine ⟨⟨p, hp⟩, ?_⟩
  rintro _ ⟨q, rfl⟩
  exact c.leastCost_le q

/-! ## The cap -/

/-- The charges for steps are no discounts. -/
structure Nonneg (c : Charges K) : Prop where
  vertical : ∀ i j, 0 ≤ c.vertical i j
  horizontal : ∀ i j, 0 ≤ c.horizontal i j
  diagonal : ∀ i j, 0 ≤ c.diagonal i j

/-- What the cap took off a cost makes no difference after another step. -/
theorem min_add_min {cap step : K} (h : 0 ≤ step) (cost : K) :
    min cap (step + min cap cost) = min cap (step + cost) := by
  rw [← min_add_add_left, ← min_assoc, min_eq_left (le_add_of_nonneg_left h)]

theorem min_add_of_capped {cap step capped cost : K} (hstep : 0 ≤ step)
    (h : capped = cost ∨ capped = min cap cost) :
    min cap (step + capped) = min cap (step + cost) := by
  rcases h with rfl | rfl
  · rfl
  · exact min_add_min hstep cost

theorem cappedCost_cases {c : Charges K} (hc : c.Nonneg) (cap : K) (i j : Nat) :
    (i = 0 ∧ j = 0 ∧ c.cappedCost cap i j = c.leastCost i j) ∨
      c.cappedCost cap i j = min cap (c.leastCost i j) := by
  induction i, j using leastCost.induct with
  | case1 =>
      refine Or.inl ⟨rfl, rfl, ?_⟩
      rw [cappedCost, leastCost]
  | case2 i ih =>
      right
      rw [cappedCost, leastCost]
      exact min_add_of_capped (hc.vertical _ _) (ih.imp_left fun h => h.2.2)
  | case3 j ih =>
      right
      rw [cappedCost, leastCost]
      exact min_add_of_capped (hc.horizontal _ _) (ih.imp_left fun h => h.2.2)
  | case4 i j ihv ihh ihd =>
      right
      rw [cappedCost, leastCost, min_min_min,
        min_add_of_capped (hc.vertical _ _) (ihv.imp_left fun h => h.2.2),
        min_add_of_capped (hc.horizontal _ _) (ihh.imp_left fun h => h.2.2),
        min_add_of_capped (hc.diagonal _ _) (ihd.imp_left fun h => h.2.2), ← min_min_min,
        min_assoc cap, min_assoc cap]

theorem cappedCost_eq {c : Charges K} (hc : c.Nonneg) (cap : K) {i j : Nat}
    (h : ¬ (i = 0 ∧ j = 0)) : c.cappedCost cap i j = min cap (c.leastCost i j) := by
  rcases cappedCost_cases hc cap i j with ⟨hi, hj, -⟩ | heq
  · exact absurd ⟨hi, hj⟩ h
  · exact heq

end Charges

end Playspace.Lib
