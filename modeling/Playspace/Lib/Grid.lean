import Mathlib.Data.List.Basic
import Mathlib.Tactic

/-!
# Row-major grids

The cells of a grid, row by row, and the flat index a cell has in a vector that
stores the rows one after another. Two cells have two indices
(`rowMajor_inj`), the indices are those of the vector (`rowMajor_lt`), and a
counter that is increased from cell to cell is always at the index of the cell
(`cells_map_rowMajor`).
-/

namespace Playspace.Lib

universe u v

/-- The flat index of the cell in column `i` of row `j`. -/
def rowMajor (cols : Nat) (c : Nat × Nat) : Nat := c.2 * cols + c.1

theorem rowMajor_lt {cols rows : Nat} {c : Nat × Nat} (hi : c.1 < cols) (hj : c.2 < rows) :
    rowMajor cols c < rows * cols := by
  have hrow : (c.2 + 1) * cols ≤ rows * cols := Nat.mul_le_mul_right cols hj
  rw [Nat.succ_mul] at hrow
  rw [rowMajor]
  omega

theorem rowMajor_inj {cols : Nat} {c c' : Nat × Nat} (hi : c.1 < cols)
    (hi' : c'.1 < cols) (h : rowMajor cols c = rowMajor cols c') : c = c' := by
  have hpos : 0 < cols := Nat.lt_of_le_of_lt (Nat.zero_le _) hi
  have hcol : c.1 = c'.1 := by
    have hmod := congrArg (· % cols) h
    simpa only [rowMajor, Nat.mul_add_mod', Nat.mod_eq_of_lt hi, Nat.mod_eq_of_lt hi']
      using hmod
  have hrow : c.2 = c'.2 := by
    rw [rowMajor, rowMajor, hcol] at h
    exact Nat.eq_of_mul_eq_mul_right hpos (Nat.add_right_cancel h)
  exact Prod.ext hcol hrow

/-- All cells, in the order they are stored in. -/
def cells (cols rows : Nat) : List (Nat × Nat) :=
  (List.range rows).flatMap fun j => (List.range cols).map fun i => (i, j)

theorem mem_cells {cols rows : Nat} {c : Nat × Nat} :
    c ∈ cells cols rows ↔ c.1 < cols ∧ c.2 < rows := by
  simp only [cells, List.mem_flatMap, List.mem_map, List.mem_range]
  constructor
  · rintro ⟨j, hj, i, hi, rfl⟩
    exact ⟨hi, hj⟩
  · rintro ⟨hi, hj⟩
    exact ⟨c.2, hj, c.1, hi, rfl⟩

theorem cells_succ (cols rows : Nat) :
    cells cols (rows + 1) =
      cells cols rows ++ (List.range cols).map fun i => (i, rows) := by
  rw [cells, List.range_succ, List.flatMap_append, List.flatMap_singleton, cells]

theorem cells_map_rowMajor (cols rows : Nat) :
    (cells cols rows).map (rowMajor cols) = List.range (rows * cols) := by
  induction rows with
  | zero => rw [Nat.zero_mul]; rfl
  | succ rows ih =>
      have hrow : ((List.range cols).map fun i => (i, rows)).map (rowMajor cols) =
          (List.range cols).map (rows * cols + ·) := by
        rw [List.map_map]
        rfl
      rw [cells_succ, List.map_append, ih, hrow, Nat.succ_mul, List.range_add]

theorem length_cells (cols rows : Nat) : (cells cols rows).length = rows * cols := by
  have h := congrArg List.length (cells_map_rowMajor cols rows)
  rwa [List.length_map, List.length_range] at h

/-- Before in the order of the rows, and within a row in that of the columns. -/
def Before (c c' : Nat × Nat) : Prop := c.2 < c'.2 ∨ (c.2 = c'.2 ∧ c.1 < c'.1)

theorem cells_pairwise (cols rows : Nat) : (cells cols rows).Pairwise Before := by
  induction rows with
  | zero => exact List.Pairwise.nil
  | succ rows ih =>
      rw [cells_succ, List.pairwise_append]
      refine ⟨ih, ?_, ?_⟩
      · rw [List.pairwise_map]
        exact List.pairwise_lt_range.imp fun hlt => Or.inr ⟨rfl, hlt⟩
      · intro c hc c' hc'
        obtain ⟨i, -, rfl⟩ := List.mem_map.mp hc'
        exact Or.inl (mem_cells.mp hc).2

/-- When a cell is visited, those before it have been. -/
theorem mem_of_before {cols rows : Nat} {past rest : List (Nat × Nat)} {c c' : Nat × Nat}
    (h : cells cols rows = past ++ c :: rest) (hc' : c' ∈ cells cols rows)
    (hbefore : Before c' c) : c' ∈ past := by
  have hordered := cells_pairwise cols rows
  rw [h, List.pairwise_append, List.pairwise_cons] at hordered
  rw [h] at hc'
  rcases List.mem_append.mp hc' with hpast | hrest
  · exact hpast
  · rcases List.mem_cons.mp hrest with rfl | hrest
    · rw [Before] at hbefore
      omega
    · have hafter := hordered.2.1.1 c' hrest
      rw [Before] at hbefore hafter
      omega

/-- The same visit, with two loops and with one. -/
theorem foldlM_cells {m : Type u → Type v} [Monad m] [LawfulMonad m] {σ : Type u}
    (visit : σ → Nat × Nat → m σ) (cols rows : Nat) (s : σ) :
    (List.range rows).foldlM
        (fun s j => (List.range cols).foldlM (fun s i => visit s (i, j)) s) s =
      (cells cols rows).foldlM visit s := by
  induction rows generalizing s with
  | zero => rfl
  | succ rows ih =>
      have hrow (s : σ) : (List.range cols).foldlM (fun s i => visit s (i, rows)) s =
          ((List.range cols).map fun i => (i, rows)).foldlM visit s := by
        rw [List.foldlM_map]
      rw [List.range_succ, List.foldlM_append, ih, cells_succ, List.foldlM_append]
      refine bind_congr fun s' => ?_
      simp only [List.foldlM_cons, List.foldlM_nil, bind_pure]
      exact hrow s'

end Playspace.Lib
