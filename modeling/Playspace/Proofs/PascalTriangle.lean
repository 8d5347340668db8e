import Playspace.Kyopro.PracticalComputing
import Playspace.Lib.Pascal
import Mathlib.Tactic

/-!
# `solve` draws Pascal's triangle

`generatebinom` is the sums of neighbours with a one behind them, also where its
row has a single entry, so a row and what `solve` puts before it make the next
row. The two base cases are the first two rows, and the list is the rows down to
the first, which `reverseLL` turns around.
-/

namespace Playspace.Kyopro

open Playspace.Lib

theorem generatebinom_eq (row : List Int64) :
    generatebinom row = neighbourSums row ++ [1] := by
  induction row with
  | nil => rfl
  | cons h1 last ih =>
      cases last with
      | nil => rfl
      | cons next rest =>
          rw [generatebinom, ih]
          rfl

theorem reverseLL_eq {rows : List (List Int64)} (h : rows ≠ []) :
    reverseLL rows = .ok rows.reverse := by
  induction rows with
  | nil => exact absurd rfl h
  | cons left lastingRight ih =>
      rw [reverseLL]
      split
      · next hnull =>
          rw [List.isEmpty_iff.mp hnull]
          rfl
      · next hnull =>
          rw [ih (fun hnil => hnull (List.isEmpty_iff.mpr hnil)), List.reverse_cons]
          rfl

/-! ## The rows -/

/-- Entries wrap. -/
def binomialRow (i : Nat) : List Int64 := pascalRow Int64.ofNat i

theorem binomialRow_succ (i : Nat) :
    [1] ++ generatebinom (binomialRow i) = binomialRow (i + 1) := by
  rw [generatebinom_eq]
  exact pascalRow_succ Int64.ofNat_add i

/-- The newest of `n + 1` rows is row `n`. -/
def newestFirst (n : Nat) : List (List Int64) := ((List.range n).map binomialRow).reverse

theorem newestFirst_succ (n : Nat) :
    newestFirst (n + 1) = binomialRow n :: newestFirst n := by
  rw [newestFirst, List.range_succ, List.map_append, List.reverse_append]
  rfl

theorem solve_eq (n : Nat) : solve (n + 1) = .ok (newestFirst (n + 1)) := by
  induction n with
  | zero => rfl
  | succ n ih =>
      rw [newestFirst_succ]
      cases n with
      | zero => rfl
      | succ n =>
          rw [solve, ih, ← binomialRow_succ, newestFirst_succ]
          rfl

theorem solve_reverseLL (n : Nat) :
    solve (n + 1) >>= reverseLL = .ok ((List.range (n + 1)).map binomialRow) := by
  rw [solve_eq]
  show reverseLL (newestFirst (n + 1)) = _
  rw [reverseLL_eq (by simp [newestFirst_succ]), newestFirst, List.reverse_reverse]

theorem pascal_triangle (n : Nat) (h : 1 ≤ n) :
    ∃ rows, (solve n >>= reverseLL) = .ok rows ∧ rows.length = n ∧
      ∀ i < n, ∃ row, rows[i]? = some row ∧ row.length = i + 1 ∧
        ∀ j ≤ i, ∃ entry, row[j]? = some entry ∧
          entry.toInt = (i.choose j : Int).bmod (2 ^ 64) := by
  obtain ⟨m, rfl⟩ : ∃ m, n = m + 1 := ⟨n - 1, by omega⟩
  refine ⟨_, solve_reverseLL m, by simp, fun i hi => ?_⟩
  refine ⟨binomialRow i, by simp [hi], length_pascalRow _ i, fun j hj => ?_⟩
  exact ⟨_, getElem?_pascalRow _ hj, Int64.toInt_ofNat'⟩

theorem pascal_triangle_four :
    ∃ rows, (solve 4 >>= reverseLL) = .ok rows ∧ rows.length = 4 ∧
      ∀ i < 4, ∃ row, rows[i]? = some row ∧ row.length = i + 1 ∧
        ∀ j ≤ i, ∃ entry, row[j]? = some entry ∧
          entry.toInt = (i.choose j : Int).bmod (2 ^ 64) :=
  pascal_triangle 4 (by decide)

end Playspace.Kyopro
