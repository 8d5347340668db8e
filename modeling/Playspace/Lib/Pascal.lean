import Mathlib.Data.Nat.Choose.Basic

/-!
# Rows of Pascal's triangle

The entries are binomial coefficients in whatever numbers one counts with: all
that is asked of `entry` is that it turns sums into sums, as a count that wraps
also does. The next row is the sums of neighbours between two ones
(`pascalRow_succ`).
-/

namespace Playspace.Lib

variable {R : Type*}

def pascalRow (entry : Nat → R) (i : Nat) : List R :=
  (List.range (i + 1)).map fun j => entry (i.choose j)

@[simp] theorem length_pascalRow (entry : Nat → R) (i : Nat) :
    (pascalRow entry i).length = i + 1 := by
  simp [pascalRow]

theorem getElem?_pascalRow (entry : Nat → R) {i j : Nat} (h : j ≤ i) :
    (pascalRow entry i)[j]? = some (entry (i.choose j)) := by
  simp [pascalRow, Nat.lt_succ_of_le h]

/-! ## The next row -/

variable [Add R]

def neighbourSums (row : List R) : List R := List.zipWith (· + ·) row row.tail

theorem neighbourSums_map_range (f : Nat → R) (n : Nat) :
    neighbourSums ((List.range (n + 1)).map f) =
      (List.range n).map fun j => f j + f (j + 1) := by
  apply List.ext_getElem
  · simp [neighbourSums]
  · intro j _ _
    simp [neighbourSums]

theorem pascalRow_succ {entry : Nat → R}
    (hadd : ∀ a b, entry (a + b) = entry a + entry b) (i : Nat) :
    [entry 1] ++ (neighbourSums (pascalRow entry i) ++ [entry 1]) =
      pascalRow entry (i + 1) := by
  have hsums : neighbourSums (pascalRow entry i) =
      (List.range i).map fun j => entry ((i + 1).choose (j + 1)) := by
    rw [pascalRow, neighbourSums_map_range]
    apply List.map_congr_left
    intro j _
    rw [Nat.choose_succ_succ, hadd]
  rw [hsums, pascalRow, List.range_succ_eq_map, List.map_cons, List.map_map, List.range_succ,
    List.map_append]
  simp [Function.comp_def]

end Playspace.Lib
