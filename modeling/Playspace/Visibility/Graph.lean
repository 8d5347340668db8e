import Mathlib.Analysis.SpecialFunctions.Complex.Arg

/-!
# Shapes, and the graph around them

A `shape` is a list of points and the edges made of it; a `visibilityGraph`
collects the points and edges of its obstacles. Coordinates are exact. Nothing
about shapes depends on what they are, so they are of any type there, and where a
rectangle is built of any field; the sort by declination needs angles and has
real ones.

`std::sort` promises no more than an order its comparator has no objection to,
so what it leaves is a relation, and so is what a function that calls it
returns. Drawing, and the unfinished `makeVisibilityGraph` with the members only
it uses, are left out.
-/

namespace Playspace.Visibility

/-- `graph_point_t`. -/
abbrev GraphPoint (K : Type*) := K × K

/-- `graph_edge_t`. -/
abbrev GraphEdge (K : Type*) := GraphPoint K × GraphPoint K

variable {K : Type*}

/-! ## `shape` -/

structure Shape (K : Type*) where
  points : List (GraphPoint K) := []
  edges : List (GraphEdge K) := []

namespace Shape

/-- `edges.emplace_back(points[i - 1], points[i])` from one `i` on to the last. -/
def emplaceEdges (edges : List (GraphEdge K)) : List (GraphPoint K) → List (GraphEdge K)
  | p :: q :: rest => emplaceEdges (edges ++ [(p, q)]) (q :: rest)
  | _ => edges

def makeEdges (s : Shape K) : Shape K :=
  match s.points with
  | [] => s
  | [_] => s
  | first :: second :: rest =>
      let cleared := if s.edges.length ≠ 0 then [] else s.edges
      let edges := emplaceEdges cleared (first :: second :: rest)
      { s with edges := edges ++ [((second :: rest).getLastD first, first)] }

/-- `cos` and `sin` are the library's. -/
def addRectangle [Field K] (cos sin : K → K) (s : Shape K) (centre : GraphPoint K)
    (length rad : K) : Shape K :=
  let (x, y) := centre
  let sign1 : List Int := [1, -1, 1, -1]
  let sign2 : List Int := [1, 1, -1, -1]
  let added := List.zipWith
    (fun (a b : Int) =>
      (x + (a * length / 2) * cos rad + y + (b * length / 2) * (-sin rad),
        x + (a * length / 2) * sin rad + y + (b * length / 2) * cos rad))
    sign1 sign2
  { s with points := s.points ++ added }

end Shape

/-! ## `visibilityGraph` -/

structure VisibilityGraph (K : Type*) where
  obstaclePoints : List (GraphPoint K) := []
  obstacleEdges : List (GraphEdge K) := []
  obstacles : List (Shape K) := []

/-- `v.resize(n)`. -/
def resize {α : Type*} (n : Nat) (fresh : α) (v : List α) : List α :=
  v.take n ++ List.replicate (n - v.length) fresh

namespace VisibilityGraph

variable [Zero K]

def addAllEdgesAndPoints (g : VisibilityGraph K) : VisibilityGraph K :=
  let cleared := { g with obstaclePoints := [], obstacleEdges := [] }
  let resized := { cleared with
    obstaclePoints := resize 300 (0, 0) cleared.obstaclePoints
    obstacleEdges := resize 300 ((0, 0), (0, 0)) cleared.obstacleEdges }
  g.obstacles.foldl
    (fun g itm =>
      { g with
        obstaclePoints := g.obstaclePoints ++ itm.points
        obstacleEdges := g.obstacleEdges ++ itm.edges })
    resized

def addObstacles (g : VisibilityGraph K) (obstacle : Shape K) :
    VisibilityGraph K :=
  { g with obstacles := g.obstacles ++ [obstacle] }

end VisibilityGraph

/-! ## `declination_sort_by_ref_point` -/

/-- What `std::sort` can make of a list. -/
structure StdSort {α : Type*} (lt : α → α → Prop) (l sorted : List α) : Prop where
  perm : sorted.Perm l
  ordered : sorted.Pairwise fun a b => ¬ lt b a

/-- `std::atan2`, an angle in (-π, π], and 0 at the origin. -/
noncomputable def atan2 (y x : ℝ) : ℝ := Complex.arg ⟨x, y⟩

/-- The angle of a point around `ref_p`. -/
noncomputable def declination (refP p : GraphPoint ℝ) : ℝ :=
  atan2 (p.2 - refP.2) (p.1 - refP.1)

/-- What the function can return. Erasing the first of no points is not defined
behaviour, so nothing comes of an empty list. -/
def DeclinationSortByRefPoint (refP : GraphPoint ℝ) (otherPoints : List (GraphPoint ℝ))
    (resultPoints : List (GraphPoint ℝ)) : Prop :=
  ∃ first, StdSort (fun lhs rhs => declination refP lhs < declination refP rhs)
    otherPoints (first :: resultPoints)

/-- What `declination_sort` can leave of a shape: the points by height, and then
by their angle around the one that came first. Without a point there is no first. -/
def Shape.DeclinationSort (s s' : Shape ℝ) : Prop :=
  ∃ first rest,
    StdSort (fun lhs rhs => lhs.2 < rhs.2) s.points (first :: rest) ∧
    StdSort (fun lhs rhs => declination first lhs < declination first rhs) (first :: rest)
      s'.points ∧
    s'.edges = s.edges

end Playspace.Visibility
