import Mathlib.Tactic

/-!
# `WhiteLineMap`

A grid of square cells around the robot, each with a count of the white-line
points that fell into it. `sx`, `sy`, `ncols` and `nrows` are constants of the
object that its constructor computes from the size it is given; all divisions
truncate toward zero. The counts are one vector, a row of cells after another,
and an index outside of it is a fault of the model, as it is no defined
behaviour of the program.

Integers do not overflow here.
-/

namespace Playspace.Citbrains

structure NPos2D where
  x : Int
  y : Int
deriving DecidableEq

structure WhiteLineMap where
  width : Int
  height : Int
  data : List Int
deriving DecidableEq

namespace WhiteLineMap

/-- `CELLSIZE`, in millimetres. -/
def cellSize : Int := 20

def sx (m : WhiteLineMap) : Int := (-m.width).tdiv 2
def sy (m : WhiteLineMap) : Int := (-m.height).tdiv 2
def ncols (m : WhiteLineMap) : Int := m.width.tdiv cellSize
def nrows (m : WhiteLineMap) : Int := m.height.tdiv cellSize

inductive Fault where
  | lengthError
  | outOfRange
deriving DecidableEq

/-- The constructor. A vector of negative length throws. -/
def new (w h : Int) : Except Fault WhiteLineMap :=
  let size := w.tdiv cellSize * h.tdiv cellSize
  if size < 0 then .error .lengthError
  else .ok { width := w, height := h, data := List.replicate size.toNat 0 }

/-- `data[ind]++`. -/
def increment (data : List Int) (ind : Int) : Except Fault (List Int) :=
  if 0 ≤ ind ∧ ind < data.length then .ok (data.modify ind.toNat (· + 1))
  else .error .outOfRange

def put (x y : Int) (m : WhiteLineMap) : Except Fault WhiteLineMap :=
  let ix := (x - m.sx).tdiv cellSize
  let iy := (y - m.sy).tdiv cellSize
  if ix < 0 ∨ iy < 0 ∨ m.ncols ≤ ix ∨ m.nrows ≤ iy then .ok m
  else (increment m.data (iy * m.ncols + ix)).map fun data => { m with data }

def clear (m : WhiteLineMap) : WhiteLineMap := { m with data := m.data.map fun _ => 0 }

/-- The body of the two loops, on `mapind` and `wlobs`. -/
def expandCell (m : WhiteLineMap) (y x : Nat) (st : Nat × List NPos2D) :
    Except Fault (Nat × List NPos2D) :=
  match m.data[st.1]? with
  | none => .error .outOfRange
  | some count =>
      if count > 0 then
        .ok (st.1 + 1, st.2 ++ [{ x := x * cellSize + m.sx, y := y * cellSize + m.sy }])
      else .ok (st.1 + 1, st.2)

def expand (m : WhiteLineMap) : Except Fault (List NPos2D) := do
  let (_, wlobs) ← (List.range m.nrows.toNat).foldlM
    (fun st y => (List.range m.ncols.toNat).foldlM (fun st x => m.expandCell y x st) st)
    (0, [])
  .ok wlobs

/-- A call that changes the map. -/
inductive MapCall where
  | put (x y : Int)
  | clear

def mapStep (m : WhiteLineMap) : MapCall → Except Fault WhiteLineMap
  | .put x y => m.put x y
  | .clear => .ok m.clear

end WhiteLineMap

end Playspace.Citbrains
