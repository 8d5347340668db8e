import Playspace.Citbrains.WhiteLineMap
import Playspace.Lib.Grid
import Playspace.Lib.Machine

/-!
# What the white-line map remembers

The map is a machine that follows a list of points: those put since the last
`clear`. Each count is the number of the points that `put` assigns to the cell
(`Represents`), so what `expand` returns is a matter of which points those are.
That is where the grid and the division part ways. Truncation rounds the
quotients between -1 and 0 up to 0, and so the range test lets through the
points that lie less than a cell outside of the left or the upper border, and
counts them in the cell behind it (`expand_exact_iff`).
-/

namespace Playspace.Citbrains.WhiteLineMap

open Playspace.Lib

/-! ## The list of points behind a map -/

def next (puts : List NPos2D) : MapCall → List NPos2D
  | .put x y => puts ++ [⟨x, y⟩]
  | .clear => []

/-- The points put since the last `clear`. -/
def sinceClear (calls : List MapCall) : List NPos2D := calls.foldl next []

def cols (m : WhiteLineMap) : Nat := m.ncols.toNat
def rows (m : WhiteLineMap) : Nat := m.nrows.toNat

/-- `put` assigns the point to the cell. -/
def Falls (m : WhiteLineMap) (c : Nat × Nat) (p : NPos2D) : Prop :=
  (p.x - m.sx).tdiv cellSize = c.1 ∧ (p.y - m.sy).tdiv cellSize = c.2

instance (m : WhiteLineMap) (c : Nat × Nat) (p : NPos2D) : Decidable (m.Falls c p) :=
  inferInstanceAs (Decidable (_ ∧ _))

/-- The point that stands for the cell. -/
def corner (m : WhiteLineMap) (c : Nat × Nat) : NPos2D where
  x := c.1 * cellSize + m.sx
  y := c.2 * cellSize + m.sy

/-- A map of the given size that holds these points. -/
structure Represents (w h : Int) (m : WhiteLineMap) (puts : List NPos2D) : Prop where
  width : m.width = w
  height : m.height = h
  length : m.data.length = m.rows * m.cols
  count : ∀ c ∈ cells m.cols m.rows,
    m.data[rowMajor m.cols c]? = some ((puts.countP (m.Falls c ·) : Nat) : Int)

variable {w h : Int} {m : WhiteLineMap} {puts : List NPos2D}

theorem tdiv_cellSize_nonneg {n : Int} (h : 0 ≤ n) : 0 ≤ n.tdiv cellSize :=
  Int.tdiv_nonneg h (by decide)

theorem cast_cols (hw : 0 ≤ m.width) : (m.cols : Int) = m.ncols :=
  Int.toNat_of_nonneg (tdiv_cellSize_nonneg hw)

theorem cast_rows (hh : 0 ≤ m.height) : (m.rows : Int) = m.nrows :=
  Int.toNat_of_nonneg (tdiv_cellSize_nonneg hh)

theorem new_represents (hw : 0 ≤ w) (hh : 0 ≤ h) :
    ∃ m, new w h = .ok m ∧ Represents w h m [] := by
  have hcols := tdiv_cellSize_nonneg hw
  have hrows := tdiv_cellSize_nonneg hh
  have hsize := Int.mul_nonneg hcols hrows
  have hlength : (w.tdiv cellSize * h.tdiv cellSize).toNat =
      (h.tdiv cellSize).toNat * (w.tdiv cellSize).toNat := by
    rw [Int.toNat_mul hcols hrows, Nat.mul_comm]
  refine ⟨_, if_neg (by omega), rfl, rfl, ?_, ?_⟩
  · rw [List.length_replicate]
    exact hlength
  · intro c hc
    obtain ⟨hi, hj⟩ := mem_cells.mp hc
    rw [List.getElem?_replicate, if_pos]
    · rfl
    · rw [hlength]
      exact rowMajor_lt hi hj

/-- The range test of `put` lets the point through. -/
def InRange (m : WhiteLineMap) (p : NPos2D) : Prop :=
  ¬ ((p.x - m.sx).tdiv cellSize < 0 ∨ (p.y - m.sy).tdiv cellSize < 0 ∨
    m.ncols ≤ (p.x - m.sx).tdiv cellSize ∨ m.nrows ≤ (p.y - m.sy).tdiv cellSize)

instance (m : WhiteLineMap) (p : NPos2D) : Decidable (m.InRange p) :=
  inferInstanceAs (Decidable (¬ _))

/-- The index `put` computes. -/
def flatIndex (m : WhiteLineMap) (p : NPos2D) : Int :=
  (p.y - m.sy).tdiv cellSize * m.ncols + (p.x - m.sx).tdiv cellSize

theorem InRange.falls (hw : 0 ≤ m.width) (hh : 0 ≤ m.height) {p : NPos2D}
    (hp : m.InRange p) : ∃ c ∈ cells m.cols m.rows, m.Falls c p := by
  have hcols := cast_cols hw
  have hrows := cast_rows hh
  unfold InRange at hp
  obtain ⟨i, hx⟩ := Int.eq_ofNat_of_zero_le (a := (p.x - m.sx).tdiv cellSize) (by omega)
  obtain ⟨j, hy⟩ := Int.eq_ofNat_of_zero_le (a := (p.y - m.sy).tdiv cellSize) (by omega)
  exact ⟨(i, j), mem_cells.mpr ⟨by omega, by omega⟩, hx, hy⟩

theorem Falls.inRange (hw : 0 ≤ m.width) (hh : 0 ≤ m.height) {c : Nat × Nat}
    {p : NPos2D} (hc : c ∈ cells m.cols m.rows) (h : m.Falls c p) : m.InRange p := by
  have hcols := cast_cols hw
  have hrows := cast_rows hh
  obtain ⟨hi, hj⟩ := mem_cells.mp hc
  obtain ⟨hx, hy⟩ := h
  unfold InRange
  omega

theorem Falls.flatIndex (hw : 0 ≤ m.width) {c : Nat × Nat} {p : NPos2D}
    (h : m.Falls c p) : m.flatIndex p = (rowMajor m.cols c : Nat) := by
  rw [WhiteLineMap.flatIndex, h.1, h.2, ← cast_cols hw, rowMajor]
  push_cast
  rfl

theorem Falls.flatIndex_lt (hw : 0 ≤ m.width) (hlength : m.data.length = m.rows * m.cols)
    {c : Nat × Nat} {p : NPos2D} (hc : c ∈ cells m.cols m.rows) (h : m.Falls c p) :
    0 ≤ m.flatIndex p ∧ m.flatIndex p < m.data.length := by
  obtain ⟨hi, hj⟩ := mem_cells.mp hc
  have hlt := rowMajor_lt hi hj
  rw [h.flatIndex hw]
  omega

/-- What `put` does to a point of the cell. -/
theorem Falls.put (hw : 0 ≤ m.width) (hh : 0 ≤ m.height)
    (hlength : m.data.length = m.rows * m.cols) {c : Nat × Nat} {p : NPos2D}
    (hc : c ∈ cells m.cols m.rows) (h : m.Falls c p) :
    m.put p.x p.y = .ok { m with data := m.data.modify (rowMajor m.cols c) (· + 1) } := by
  have hindex := h.flatIndex_lt hw hlength hc
  rw [WhiteLineMap.put, if_neg (h.inRange hw hh hc), increment]
  show Except.map _ (if 0 ≤ m.flatIndex p ∧ m.flatIndex p < m.data.length then
    .ok (m.data.modify (m.flatIndex p).toNat (· + 1)) else .error Fault.outOfRange) = _
  rw [if_pos hindex, h.flatIndex hw, Int.toNat_natCast]
  rfl

/-- A point falls into one cell at most. -/
theorem Falls.unique {c c' : Nat × Nat} {p : NPos2D} (h : m.Falls c p)
    (h' : m.Falls c' p) : c = c' :=
  Prod.ext (Int.ofNat_inj.mp (h.1.symm.trans h'.1)) (Int.ofNat_inj.mp (h.2.symm.trans h'.2))

theorem Represents.put (hw : 0 ≤ w) (hh : 0 ≤ h) (hm : Represents w h m puts)
    (p : NPos2D) :
    ∃ m', m.put p.x p.y = .ok m' ∧ Represents w h m' (puts ++ [p]) := by
  have hwidth : 0 ≤ m.width := hm.width ▸ hw
  have hheight : 0 ≤ m.height := hm.height ▸ hh
  by_cases hrange : m.InRange p
  · obtain ⟨c, hc, hfalls⟩ := hrange.falls hwidth hheight
    refine ⟨_, hfalls.put hwidth hheight hm.length hc, hm.width, hm.height, ?_, ?_⟩
    · exact (List.length_modify _ _ _).trans hm.length
    · intro c' hc'
      have hcount := hm.count c' hc'
      show (m.data.modify (rowMajor m.cols c) (· + 1))[rowMajor m.cols c']? =
        some (((puts ++ [p]).countP (m.Falls c' ·) : Nat) : Int)
      rw [List.countP_append, List.countP_singleton]
      by_cases heq : c = c'
      · subst heq
        rw [List.getElem?_modify_eq, hcount, if_pos (by simpa using hfalls)]
        rfl
      · have hindex : rowMajor m.cols c ≠ rowMajor m.cols c' := fun hindex =>
          heq (rowMajor_inj (mem_cells.mp hc).1 (mem_cells.mp hc').1 hindex)
        have hother : ¬ m.Falls c' p := fun h' => heq (hfalls.unique h')
        rw [List.getElem?_modify_ne _ _ hindex, hcount, if_neg (by simpa using hother)]
        rfl
  · refine ⟨m, if_pos (not_not.mp hrange), hm.width, hm.height, hm.length, ?_⟩
    intro c' hc'
    have hother : ¬ m.Falls c' p := fun h' => hrange (h'.inRange hwidth hheight hc')
    rw [hm.count c' hc', List.countP_append, List.countP_singleton,
      if_neg (by simpa using hother)]
    rfl

theorem Represents.clear (hm : Represents w h m puts) : Represents w h m.clear [] := by
  refine ⟨hm.width, hm.height, ?_, ?_⟩
  · exact (List.length_map _).trans hm.length
  · intro c hc
    have hcount := hm.count c hc
    show (m.data.map fun _ => (0 : Int))[rowMajor m.cols c]? = some 0
    rw [List.getElem?_map, hcount]
    rfl

/-- Every run of calls on a new map goes through, and its map holds the points
put since the last `clear`. -/
theorem run_represents (hw : 0 ≤ w) (hh : 0 ≤ h) (calls : List MapCall)
    (hm : Represents w h m []) :
    ∃ m', runs mapStep m calls = .ok m' ∧ Represents w h m' (sinceClear calls) := by
  have hstep : ∀ s puts e, Represents w h s puts →
      ∃ s', mapStep s e = .ok s' ∧ Represents w h s' (next puts e) := by
    intro s puts e hs
    cases e with
    | put x y => exact hs.put hw hh ⟨x, y⟩
    | clear => exact ⟨s.clear, rfl, hs.clear⟩
  exact runs_simulates hstep hm calls

/-! ## What `expand` returns -/

/-- The cells with a point, in the order of the grid. -/
def marked (m : WhiteLineMap) (puts : List NPos2D) : List (Nat × Nat) :=
  (cells m.cols m.rows).filter fun c => 0 < puts.countP (m.Falls c ·)

theorem mem_marked {c : Nat × Nat} :
    c ∈ m.marked puts ↔ (c.1 < m.cols ∧ c.2 < m.rows) ∧ ∃ p ∈ puts, m.Falls c p := by
  simp only [marked, List.mem_filter, mem_cells, decide_eq_true_eq, List.countP_pos_iff]

/-- From any cell on, the loop reads the count of each cell where it is. -/
theorem expandCell_foldlM {cs : List (Nat × Nat)} {start : Nat}
    (hindex : cs.map (rowMajor m.cols) = List.range' start cs.length)
    {count : Nat × Nat → Nat}
    (hcount : ∀ c ∈ cs, m.data[rowMajor m.cols c]? = some ((count c : Nat) : Int))
    (wlobs : List NPos2D) :
    cs.foldlM (fun st c => m.expandCell c.2 c.1 st) (start, wlobs) =
      .ok (start + cs.length,
        wlobs ++ (cs.filter fun c => 0 < count c).map m.corner) := by
  induction cs generalizing start wlobs with
  | nil =>
      rw [List.filter_nil, List.map_nil, List.append_nil]
      rfl
  | cons c cs ih =>
      rw [List.map_cons, List.length_cons, List.range'_succ, List.cons.injEq] at hindex
      obtain ⟨hhead, htail⟩ := hindex
      have hread : m.data[start]? = some ((count c : Nat) : Int) := by
        rw [← hhead]
        exact hcount c List.mem_cons_self
      have hrest := fun wlobs => ih htail (fun c' hc' => hcount c' (List.mem_cons_of_mem c hc'))
        wlobs
      have hlength : start + 1 + cs.length = start + (c :: cs).length := by
        rw [List.length_cons]
        omega
      by_cases hpos : 0 < count c
      · have hcell : m.expandCell c.2 c.1 (start, wlobs) =
            .ok (start + 1, wlobs ++ [m.corner c]) := by
          simp only [expandCell, hread]
          rw [if_pos (by omega)]
          rfl
        have hkept : (c :: cs).filter (fun c => 0 < count c) =
            c :: cs.filter fun c => 0 < count c :=
          List.filter_cons_of_pos (by simpa using hpos)
        rw [List.foldlM_cons, hcell, hkept, List.map_cons, ← hlength,
          List.append_cons wlobs (m.corner c) (List.map _ _)]
        exact hrest _
      · have hcell : m.expandCell c.2 c.1 (start, wlobs) = .ok (start + 1, wlobs) := by
          simp only [expandCell, hread]
          rw [if_neg (by omega)]
        have hdropped : (c :: cs).filter (fun c => 0 < count c) =
            cs.filter fun c => 0 < count c :=
          List.filter_cons_of_neg (by simpa using hpos)
        rw [List.foldlM_cons, hcell, hdropped, ← hlength]
        exact hrest _

theorem Represents.expand (hm : Represents w h m puts) :
    m.expand = .ok ((m.marked puts).map m.corner) := by
  have hindex : (cells m.cols m.rows).map (rowMajor m.cols) =
      List.range' 0 (cells m.cols m.rows).length := by
    rw [cells_map_rowMajor, length_cells, List.range_eq_range']
  have hloop := expandCell_foldlM hindex hm.count []
  have hloops := foldlM_cells (fun st c => m.expandCell c.2 c.1 st) m.cols m.rows (0, [])
  rw [hloop] at hloops
  unfold WhiteLineMap.expand
  exact congrArg (fun r => r >>= fun st => Except.ok st.2) hloops

/-! ## The grid -/

/-- The point lies in column `i` and row `j`. -/
def InCell (m : WhiteLineMap) (i j : Int) (p : NPos2D) : Prop :=
  (i * cellSize + m.sx ≤ p.x ∧ p.x < i * cellSize + m.sx + cellSize) ∧
    (j * cellSize + m.sy ≤ p.y ∧ p.y < j * cellSize + m.sy + cellSize)

def OnGrid (m : WhiteLineMap) (p : NPos2D) : Prop :=
  (m.sx ≤ p.x ∧ p.x < m.ncols * cellSize + m.sx) ∧
    (m.sy ≤ p.y ∧ p.y < m.nrows * cellSize + m.sy)

/-- The nearest point that is not beyond the left and the upper border. -/
def behind (m : WhiteLineMap) (p : NPos2D) : NPos2D where
  x := max p.x m.sx
  y := max p.y m.sy

/-- Less than a cell beyond these two borders. -/
def Near (m : WhiteLineMap) (p : NPos2D) : Prop :=
  m.sx - cellSize < p.x ∧ m.sy - cellSize < p.y

/-- Off the grid, but less than a cell beyond the left or the upper border. -/
def Strays (m : WhiteLineMap) (p : NPos2D) : Prop :=
  ¬ m.OnGrid p ∧ m.Near p ∧ m.OnGrid (m.behind p)

/-- Truncation makes the first cell almost two cells wide. -/
theorem tdiv_cellSize_eq_iff (a : Int) (i : Nat) :
    a.tdiv cellSize = i ↔
      -cellSize < a ∧ i * cellSize ≤ max a 0 ∧ max a 0 < i * cellSize + cellSize := by
  rw [cellSize, Int.tdiv_eq_ediv]
  split
  · next hexact => omega
  · next hneg =>
      have hsign : Int.sign 20 = 1 := rfl
      rw [hsign]
      omega

theorem falls_iff (c : Nat × Nat) (p : NPos2D) :
    m.Falls c p ↔ m.Near p ∧ m.InCell c.1 c.2 (m.behind p) := by
  rw [Falls, tdiv_cellSize_eq_iff, tdiv_cellSize_eq_iff]
  simp only [Near, InCell, behind]
  omega

theorem InCell.falls {c : Nat × Nat} {p : NPos2D} (h : m.InCell c.1 c.2 p) :
    m.Falls c p := by
  rw [falls_iff]
  simp only [Near, InCell, behind, cellSize] at h ⊢
  omega

theorem Falls.inCell {c : Nat × Nat} {p : NPos2D} (h : m.Falls c p) (hp : m.OnGrid p) :
    m.InCell c.1 c.2 p := by
  have hbehind := ((falls_iff c p).mp h).2
  simp only [InCell, OnGrid, behind, cellSize] at hbehind hp ⊢
  omega

/-- A point of the grid lies in a cell of it. -/
theorem OnGrid.cell {p : NPos2D} (hp : m.OnGrid p) :
    ∃ i j : Nat, (i : Int) < m.ncols ∧ (j : Int) < m.nrows ∧ m.InCell i j p := by
  simp only [OnGrid, cellSize] at hp
  obtain ⟨i, hi⟩ := Int.eq_ofNat_of_zero_le (a := (p.x - m.sx) / 20) (by omega)
  obtain ⟨j, hj⟩ := Int.eq_ofNat_of_zero_le (a := (p.y - m.sy) / 20) (by omega)
  refine ⟨i, j, by omega, by omega, ?_⟩
  simp only [InCell, cellSize]
  omega

theorem InCell.onGrid {i j : Int} {p : NPos2D} (h : m.InCell i j p)
    (hi : 0 ≤ i ∧ i < m.ncols) (hj : 0 ≤ j ∧ j < m.nrows) : m.OnGrid p := by
  simp only [InCell, OnGrid, cellSize] at h ⊢
  omega

theorem InCell.unique {i j i' j' : Int} {p : NPos2D} (h : m.InCell i j p)
    (h' : m.InCell i' j' p) : i = i' ∧ j = j' := by
  simp only [InCell, cellSize] at h h'
  omega

/-- The points stand, in row-major order and each once, for the cells of the
grid that hold a point of `puts`. -/
structure ExactlyMarked (m : WhiteLineMap) (puts points : List NPos2D) : Prop where
  ordered : points.Pairwise fun p q => p.y < q.y ∨ (p.y = q.y ∧ p.x < q.x)
  mem : ∀ p, p ∈ points ↔ ∃ i j : Int, (0 ≤ i ∧ i < m.ncols) ∧ (0 ≤ j ∧ j < m.nrows) ∧
    p = ⟨i * cellSize + m.sx, j * cellSize + m.sy⟩ ∧ ∃ q ∈ puts, m.InCell i j q

theorem marked_ordered (m : WhiteLineMap) (puts : List NPos2D) :
    ((m.marked puts).map m.corner).Pairwise
      fun p q => p.y < q.y ∨ (p.y = q.y ∧ p.x < q.x) := by
  rw [List.pairwise_map]
  refine ((cells_pairwise m.cols m.rows).filter _).imp ?_
  intro c c' hbefore
  simp only [Before, corner, cellSize] at hbefore ⊢
  omega

theorem corner_injective : Function.Injective m.corner := by
  intro c c' heq
  have hx := congrArg NPos2D.x heq
  have hy := congrArg NPos2D.y heq
  simp only [corner, cellSize] at hx hy
  exact Prod.ext (by omega) (by omega)

/-- The list `expand` returns is right when every cell that a point falls into
holds a point. -/
theorem exactlyMarked_iff (hw : 0 ≤ m.width) (hh : 0 ≤ m.height) :
    m.ExactlyMarked puts ((m.marked puts).map m.corner) ↔
      ∀ c ∈ m.marked puts, ∃ q ∈ puts, m.InCell c.1 c.2 q := by
  have hcols := cast_cols hw
  have hrows := cast_rows hh
  constructor
  · intro h c hc
    obtain ⟨i, j, hi, hj, hcorner, q, hq, hcell⟩ :=
      (h.mem (m.corner c)).mp (List.mem_map_of_mem hc)
    have hx := congrArg NPos2D.x hcorner
    have hy := congrArg NPos2D.y hcorner
    simp only [corner, cellSize] at hx hy
    obtain rfl : i = c.1 := by omega
    obtain rfl : j = c.2 := by omega
    exact ⟨q, hq, hcell⟩
  · intro h
    refine ⟨marked_ordered m puts, ?_⟩
    intro p
    constructor
    · intro hp
      obtain ⟨c, hc, rfl⟩ := List.mem_map.mp hp
      obtain ⟨⟨hi, hj⟩, -⟩ := mem_marked.mp hc
      exact ⟨c.1, c.2, by omega, by omega, rfl, h c hc⟩
    · rintro ⟨i, j, hi, hj, rfl, q, hq, hcell⟩
      obtain ⟨i, rfl⟩ := Int.eq_ofNat_of_zero_le hi.1
      obtain ⟨j, rfl⟩ := Int.eq_ofNat_of_zero_le hj.1
      exact List.mem_map.mpr ⟨(i, j), mem_marked.mpr ⟨⟨by omega, by omega⟩, q, hq,
        InCell.falls (c := (i, j)) hcell⟩, rfl⟩

/-- After any calls `expand` returns exactly the cells with a point, unless a
point strayed into a cell that has none. -/
theorem expand_exact_iff (hw : 0 ≤ w) (hh : 0 ≤ h) (calls : List MapCall) :
    ∃ m₀ m, new w h = .ok m₀ ∧ runs mapStep m₀ calls = .ok m ∧
      m.width = w ∧ m.height = h ∧
      ((∃ points, m.expand = .ok points ∧ m.ExactlyMarked (sinceClear calls) points) ↔
        ∀ p ∈ sinceClear calls, m.Strays p →
          ∃ i j, m.InCell i j (m.behind p) ∧ ∃ q ∈ sinceClear calls, m.InCell i j q) := by
  obtain ⟨m₀, hnew, hm₀⟩ := new_represents hw hh
  obtain ⟨m, hrun, hm⟩ := run_represents hw hh calls hm₀
  refine ⟨m₀, m, hnew, hrun, hm.width, hm.height, ?_⟩
  have hwidth : 0 ≤ m.width := hm.width ▸ hw
  have hheight : 0 ≤ m.height := hm.height ▸ hh
  have hcols := cast_cols hwidth
  have hrows := cast_rows hheight
  have hexpand : (∃ points, m.expand = .ok points ∧
        m.ExactlyMarked (sinceClear calls) points) ↔
      ∀ c ∈ m.marked (sinceClear calls), ∃ q ∈ sinceClear calls, m.InCell c.1 c.2 q := by
    rw [← exactlyMarked_iff hwidth hheight, hm.expand]
    simp only [Except.ok.injEq, exists_eq_left']
  rw [hexpand]
  constructor
  · intro h p hp hstrays
    obtain ⟨i, j, hi, hj, hcell⟩ := hstrays.2.2.cell
    have hmarked : (i, j) ∈ m.marked (sinceClear calls) :=
      mem_marked.mpr ⟨⟨by omega, by omega⟩, p, hp,
        (falls_iff (i, j) p).mpr ⟨hstrays.2.1, hcell⟩⟩
    exact ⟨i, j, hcell, h (i, j) hmarked⟩
  · intro h c hc
    obtain ⟨⟨hi, hj⟩, p, hp, hfalls⟩ := mem_marked.mp hc
    by_cases hgrid : m.OnGrid p
    · exact ⟨p, hp, hfalls.inCell hgrid⟩
    · obtain ⟨hnear, hcell⟩ := (falls_iff c p).mp hfalls
      have hbehind := hcell.onGrid (by omega) (by omega)
      obtain ⟨i, j, hsame, q, hq, hqcell⟩ := h p hp ⟨hgrid, hnear, hbehind⟩
      obtain ⟨rfl, rfl⟩ := hsame.unique hcell
      exact ⟨q, hq, hqcell⟩

/-- A point a millimetre beyond the left border marks a cell. -/
theorem expand_strayed :
    ∃ m₀ m, new 40 40 = .ok m₀ ∧ runs mapStep m₀ [.put (-21) 0] = .ok m ∧
      m.expand = .ok [⟨-20, 0⟩] ∧ ¬ m.OnGrid ⟨-21, 0⟩ :=
  ⟨_, _, rfl, rfl, rfl, fun hgrid => absurd hgrid.1.1 (by decide)⟩

/-- A point that is forgotten, and one in the corner of the grid. -/
theorem expand_exact_corner :
    ∃ m₀ m points, new 40 50 = .ok m₀ ∧
      runs mapStep m₀ [.put (-21) 0, .clear, .put 3 (-25)] = .ok m ∧
      m.expand = .ok points ∧ m.ExactlyMarked [⟨3, -25⟩] points := by
  obtain ⟨m₀, m, hnew, hrun, hwidth, hheight, hiff⟩ :=
    expand_exact_iff (w := 40) (h := 50) (by decide) (by decide)
      [.put (-21) 0, .clear, .put 3 (-25)]
  obtain ⟨points, hpoints, hexact⟩ := hiff.mpr (by
    intro p hp hstrays
    obtain rfl := List.mem_singleton.mp hp
    refine absurd ?_ hstrays.1
    rw [OnGrid, sx, sy, ncols, nrows, hwidth, hheight]
    decide)
  exact ⟨m₀, m, points, hnew, hrun, hpoints, hexact⟩

/-! ## Putting back what was expanded -/

/-- The count of a cell. -/
def countAt (m : WhiteLineMap) (c : Nat × Nat) : Option Int :=
  m.data[rowMajor m.cols c]?

/-- The put writes inside of the vector, and of all counts it changes that of one
cell, by one. -/
structure PutsOne (m : WhiteLineMap) (p : NPos2D) : Prop where
  index : 0 ≤ m.flatIndex p ∧ m.flatIndex p < m.data.length
  counted : ∃ m' c₀, m.put p.x p.y = .ok m' ∧ c₀ ∈ cells m.cols m.rows ∧
    m.flatIndex p = (rowMajor m.cols c₀ : Nat) ∧
    ∀ c ∈ cells m.cols m.rows, ∃ n, m.countAt c = some n ∧
      m'.countAt c = some (if c = c₀ then n + 1 else n)

theorem Represents.putsOne (hw : 0 ≤ w) (hh : 0 ≤ h) (hm : Represents w h m puts)
    {p : NPos2D} (hp : m.InRange p) : m.PutsOne p := by
  have hwidth : 0 ≤ m.width := hm.width ▸ hw
  have hheight : 0 ≤ m.height := hm.height ▸ hh
  obtain ⟨c₀, hc₀, hfalls⟩ := hp.falls hwidth hheight
  refine ⟨hfalls.flatIndex_lt hwidth hm.length hc₀, _, c₀,
    hfalls.put hwidth hheight hm.length hc₀, hc₀, hfalls.flatIndex hwidth, ?_⟩
  intro c hc
  refine ⟨_, hm.count c hc, ?_⟩
  show (m.data.modify (rowMajor m.cols c₀) (· + 1))[rowMajor m.cols c]? = _
  by_cases heq : c = c₀
  · subst heq
    rw [List.getElem?_modify_eq, hm.count c hc, if_pos rfl]
    rfl
  · have hindex : rowMajor m.cols c₀ ≠ rowMajor m.cols c := fun hindex =>
      heq (rowMajor_inj (mem_cells.mp hc).1 (mem_cells.mp hc₀).1 hindex.symm)
    rw [List.getElem?_modify_ne _ _ hindex, hm.count c hc, if_neg heq]

/-- A map is determined by its size and its points. -/
theorem Represents.unique {m' : WhiteLineMap} (hm : Represents w h m puts)
    (hm' : Represents w h m' puts) : m = m' := by
  obtain ⟨width, height, data⟩ := m
  obtain ⟨width', height', data'⟩ := m'
  obtain ⟨rfl, rfl, hlength, hcount⟩ := hm
  obtain ⟨rfl, rfl, hlength', hcount'⟩ := hm'
  refine congrArg (WhiteLineMap.mk width' height') (List.ext_getElem? fun k => ?_)
  by_cases hk : k < data.length
  · -- Every index of the vector is that of a cell.
    have hrange : k ∈ List.range (data.length) := List.mem_range.mpr hk
    rw [hlength, ← cells_map_rowMajor] at hrange
    obtain ⟨c, hc, rfl⟩ := List.mem_map.mp hrange
    exact (hcount c hc).trans (hcount' c hc).symm
  · have hsame : data'.length = data.length := hlength'.trans hlength.symm
    rw [List.getElem?_eq_none (by omega), List.getElem?_eq_none (by omega)]

/-- A corner of a cell falls into the cell and no other. -/
theorem falls_corner_iff {c c' : Nat × Nat} : m.Falls c' (m.corner c) ↔ c = c' := by
  have hx : (m.corner c).x - m.sx = c.1 * cellSize := Int.add_sub_cancel _ _
  have hy : (m.corner c).y - m.sy = c.2 * cellSize := Int.add_sub_cancel _ _
  rw [Falls, hx, hy, Int.mul_tdiv_cancel _ (by decide), Int.mul_tdiv_cancel _ (by decide),
    Int.ofNat_inj, Int.ofNat_inj, Prod.ext_iff]

theorem countP_corners {cs : List (Nat × Nat)} (hcs : cs.Nodup) (c : Nat × Nat) :
    (cs.map m.corner).countP (m.Falls c ·) = if c ∈ cs then 1 else 0 := by
  have hcell : (cs.map m.corner).countP (m.Falls c ·) = cs.count c := by
    rw [List.countP_map, List.count]
    refine List.countP_congr fun c' _ => ?_
    simp only [Function.comp_apply, decide_eq_true_eq, beq_iff_eq, falls_corner_iff]
  rw [hcell, hcs.count]

theorem marked_corners {cs : List (Nat × Nat)} (hcs : cs.Nodup) :
    m.marked (cs.map m.corner) = (cells m.cols m.rows).filter (· ∈ cs) := by
  refine List.filter_congr fun c _ => ?_
  rw [countP_corners hcs]
  by_cases hc : c ∈ cs
  · rw [if_pos hc]
    simpa using hc
  · rw [if_neg hc]
    simpa using hc

theorem filter_mem_marked (m : WhiteLineMap) (puts : List NPos2D) :
    (cells m.cols m.rows).filter (· ∈ m.marked puts) = m.marked puts := by
  refine List.filter_congr fun c hc => ?_
  rw [decide_eq_decide, mem_marked, List.countP_pos_iff]
  simp only [mem_cells.mp hc, and_self, true_and, decide_eq_true_eq]

theorem marked_nodup (m : WhiteLineMap) (puts : List NPos2D) : (m.marked puts).Nodup := by
  refine List.Nodup.filter _ ((cells_pairwise m.cols m.rows).imp ?_)
  rintro c c' hbefore rfl
  simp only [Before] at hbefore
  omega

theorem sinceClear_puts (points puts : List NPos2D) :
    (points.map fun p => MapCall.put p.x p.y).foldl next puts = puts ++ points := by
  induction points generalizing puts with
  | nil => exact (List.append_nil puts).symm
  | cons p points ih =>
      rw [List.map_cons, List.foldl_cons, ih, next, List.append_assoc]
      rfl

/-- In every state a put that passes the range test counts in one cell, which
has an index of its own; and putting what `expand` returns into a cleared map
counts each of its cells once and expands to the same list. -/
theorem expand_section (hw : 0 ≤ w) (hh : 0 ≤ h) (calls : List MapCall) :
    ∃ m₀ m, new w h = .ok m₀ ∧ runs mapStep m₀ calls = .ok m ∧
      (∀ p, m.InRange p → m.PutsOne p) ∧
      (∀ c ∈ cells m.cols m.rows, ∀ c' ∈ cells m.cols m.rows,
        rowMajor m.cols c = rowMajor m.cols c' → c = c') ∧
      m.clear = m₀ ∧
      ∃ points m', m.expand = .ok points ∧
        runs mapStep m.clear (points.map fun p => .put p.x p.y) = .ok m' ∧
        m'.expand = .ok points ∧
        ∀ c ∈ cells m.cols m.rows,
          m'.countAt c = some (if m.corner c ∈ points then 1 else 0) := by
  obtain ⟨m₀, hnew, hm₀⟩ := new_represents hw hh
  obtain ⟨m, hrun, hm⟩ := run_represents hw hh calls hm₀
  obtain ⟨m', hrun', hm'⟩ := run_represents hw hh
    (((m.marked (sinceClear calls)).map m.corner).map fun p => .put p.x p.y) hm.clear
  rw [sinceClear, sinceClear_puts, List.nil_append] at hm'
  have hnodup := marked_nodup m (sinceClear calls)
  -- The two maps have the same size, so the same cells and corners.
  obtain ⟨data, rfl⟩ : ∃ data, m' = { m with data } :=
    ⟨m'.data, congr (congr (congrArg WhiteLineMap.mk (hm'.width.trans hm.width.symm))
      (hm'.height.trans hm.height.symm)) rfl⟩
  refine ⟨m₀, m, hnew, hrun, fun p hp => hm.putsOne hw hh hp, ?_, hm.clear.unique hm₀,
    _, _, hm.expand, hrun', ?_, ?_⟩
  · intro c hc c' hc' hindex
    exact rowMajor_inj (mem_cells.mp hc).1 (mem_cells.mp hc').1 hindex
  · have hmarked := marked_corners (m := { m with data }) hnodup
    rw [hm'.expand]
    exact congrArg (fun cs => Except.ok (cs.map m.corner))
      (hmarked.trans (filter_mem_marked m (sinceClear calls)))
  · intro c hc
    have hcount := countP_corners (m := { m with data }) hnodup c
    rw [if_congr (List.mem_map_of_injective corner_injective) rfl rfl]
    refine (hm'.count c hc).trans (congrArg some ?_)
    exact (congrArg Int.ofNat hcount).trans (apply_ite Int.ofNat _ 1 0)

theorem expand_section_odd :
    ∃ m₀ m, new 50 70 = .ok m₀ ∧
      runs mapStep m₀ [.put 3 (-25), .put (-25) 0, .put 3 (-24)] = .ok m ∧
      m.clear = m₀ ∧
      ∃ points m', m.expand = .ok points ∧
        runs mapStep m.clear (points.map fun p => .put p.x p.y) = .ok m' ∧
        m'.expand = .ok points := by
  obtain ⟨m₀, m, hnew, hrun, -, -, hclear, points, m', hexpand, hrun', hexpand', -⟩ :=
    expand_section (w := 50) (h := 70) (by decide) (by decide)
      [.put 3 (-25), .put (-25) 0, .put 3 (-24)]
  exact ⟨m₀, m, hnew, hrun, hclear, points, m', hexpand, hrun', hexpand'⟩

end Playspace.Citbrains.WhiteLineMap
