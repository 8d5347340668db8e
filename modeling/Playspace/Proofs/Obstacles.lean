import Playspace.Visibility.Graph

/-!
# What a visibility graph collects

`makeEdges` rebuilds the edges of a shape, but it returns before it has cleared
them when there are fewer than two points, so a shape that shrank that far keeps
the edges it had (`built_edges_iff`). `addAllEdgesAndPoints` does start over
each time, from 300 points and edges at the origin that belong to no obstacle:
`resize` makes entries where `reserve` would have made room.
-/

namespace Playspace.Visibility

variable {K : Type*}

/-- The cycle through the points, an edge from each to the next. -/
def closedCycle (points : List (GraphPoint K)) : List (GraphEdge K) :=
  if points.length ≤ 1 then [] else points.zip (points.rotate 1)

/-! ## Shapes -/

namespace Shape

theorem emplaceEdges_eq (edges : List (GraphEdge K)) (points : List (GraphPoint K)) :
    emplaceEdges edges points = edges ++ points.zip points.tail := by
  induction points generalizing edges with
  | nil => exact (List.append_nil edges).symm
  | cons p points ih =>
      cases points with
      | nil => exact (List.append_nil edges).symm
      | cons q rest =>
          rw [emplaceEdges, ih, List.append_assoc]
          rfl

/-- The edge back to the first point is the last of the cycle. -/
theorem zip_snoc (first p : GraphPoint K) (rest : List (GraphPoint K)) :
    (p :: rest).zip (rest ++ [first]) =
      (p :: rest).zip rest ++ [(rest.getLastD p, first)] := by
  induction rest generalizing p with
  | nil => rfl
  | cons q rest ih =>
      rw [List.cons_append, List.zip_cons_cons, ih, List.zip_cons_cons, List.getLastD_cons,
        List.cons_append]

theorem makeEdges_of_le_one {s : Shape K} (h : s.points.length ≤ 1) : s.makeEdges = s := by
  obtain ⟨points, edges⟩ := s
  match points, h with
  | [], _ => rfl
  | [_], _ => rfl

theorem makeEdges_of_two_le {s : Shape K} (h : 2 ≤ s.points.length) :
    s.makeEdges = { s with edges := closedCycle s.points } := by
  obtain ⟨points, edges⟩ := s
  match points, h with
  | first :: second :: rest, h =>
      have hcleared : (if edges.length ≠ 0 then [] else edges) = [] := by
        split
        · rfl
        · next hzero => exact List.length_eq_zero_iff.mp (not_not.mp hzero)
      have hcycle : closedCycle (first :: second :: rest) =
          emplaceEdges [] (first :: second :: rest) ++
            [((second :: rest).getLastD first, first)] := by
        rw [emplaceEdges_eq, List.nil_append, List.tail_cons, ← zip_snoc, closedCycle,
          if_neg (Nat.not_le.mpr h), List.rotate_cons_succ, List.rotate_zero]
      simp only [makeEdges, hcleared, hcycle]

theorem makeEdges_points (s : Shape K) : s.makeEdges.points = s.points := by
  rcases Nat.lt_or_ge 1 s.points.length with h | h
  · rw [makeEdges_of_two_le h]
  · rw [makeEdges_of_le_one h]

/-- A shape whose points were changed time and again, `makeEdges` each time. -/
def built (changes : List (List (GraphPoint K))) : Shape K :=
  changes.foldl (fun s points => { s with points }.makeEdges) {}

theorem built_snoc (past : List (List (GraphPoint K))) (points : List (GraphPoint K)) :
    built (past ++ [points]) = { built past with points }.makeEdges := by
  rw [built, List.foldl_append]
  rfl

/-- The points are those of the last change. -/
theorem built_points (changes : List (List (GraphPoint K))) :
    (built changes).points = changes.getLastD [] := by
  rcases List.eq_nil_or_concat' changes with rfl | ⟨past, points, rfl⟩
  · rfl
  · rw [built_snoc, makeEdges_points, List.getLastD_concat]

theorem closedCycle_ne_nil {points : List (GraphPoint K)} (h : 2 ≤ points.length) :
    closedCycle points ≠ [] := by
  intro hnil
  have hlength := congrArg List.length hnil
  rw [closedCycle, if_neg (Nat.not_le.mpr h), List.length_zip, List.length_rotate,
    Nat.min_self, List.length_nil] at hlength
  omega

/-- There are no edges exactly when there never were two points. -/
theorem built_edges_eq_nil_iff (changes : List (List (GraphPoint K))) :
    (built changes).edges = [] ↔ ∀ points ∈ changes, points.length ≤ 1 := by
  induction changes using List.reverseRecOn with
  | nil => exact ⟨fun _ _ h => absurd h List.not_mem_nil, fun _ => rfl⟩
  | append_singleton past points ih =>
      rw [built_snoc, List.forall_mem_append, List.forall_mem_singleton, ← ih]
      rcases Nat.lt_or_ge 1 points.length with h | h
      · rw [makeEdges_of_two_le (s := { built past with points }) h]
        refine ⟨fun hnil => absurd hnil (closedCycle_ne_nil h), fun hpast => ?_⟩
        exact absurd hpast.2 (Nat.not_le.mpr h)
      · rw [makeEdges_of_le_one (s := { built past with points }) h]
        exact ⟨fun hnil => ⟨hnil, h⟩, And.left⟩

/-- The edges are the cycle of the points unless the last change left fewer than
two points, and one before it did not. -/
theorem built_edges_iff (changes : List (List (GraphPoint K))) :
    (built changes).edges = closedCycle (built changes).points ↔
      2 ≤ (changes.getLastD []).length ∨ ∀ points ∈ changes, points.length ≤ 1 := by
  rw [built_points]
  rcases Nat.lt_or_ge 1 (changes.getLastD []).length with h | h
  · refine ⟨fun _ => Or.inl h, fun _ => ?_⟩
    rcases List.eq_nil_or_concat' changes with rfl | ⟨past, points, rfl⟩
    · exact absurd h (Nat.not_lt_zero 1)
    · rw [List.getLastD_concat] at h ⊢
      rw [built_snoc, makeEdges_of_two_le (s := { built past with points }) h]
  · have hempty : closedCycle (changes.getLastD []) = [] := if_pos h
    rw [hempty, built_edges_eq_nil_iff]
    exact ⟨Or.inr, fun hshort => hshort.resolve_left (Nat.not_le.mpr (Nat.lt_succ_of_le h))⟩

end Shape

/-! ## The graph -/

namespace VisibilityGraph

/-- A graph with these obstacles, added one after another. -/
def withObstacles (g : VisibilityGraph K) (shapes : List (Shape K)) : VisibilityGraph K :=
  shapes.foldl addObstacles g

/-- The collected points and edges are those of the obstacles, in order. -/
structure Collected (g : VisibilityGraph K) : Prop where
  points : g.obstaclePoints = (g.obstacles.map Shape.points).flatten
  edges : g.obstacleEdges = (g.obstacles.map Shape.edges).flatten

variable [Zero K]

/-- What a call makes of any graph: the obstacles stay, and what they have is
collected behind 300 entries that are nobody's. -/
theorem addAllEdgesAndPoints_eq (g : VisibilityGraph K) :
    g.addAllEdgesAndPoints =
      { g with
        obstaclePoints := List.replicate 300 (0, 0) ++
          (g.obstacles.map Shape.points).flatten
        obstacleEdges := List.replicate 300 ((0, 0), (0, 0)) ++
          (g.obstacles.map Shape.edges).flatten } := by
  have hloop (shapes : List (Shape K)) (g : VisibilityGraph K) :
      shapes.foldl (fun g itm =>
          { g with
            obstaclePoints := g.obstaclePoints ++ itm.points
            obstacleEdges := g.obstacleEdges ++ itm.edges }) g =
        { g with
          obstaclePoints := g.obstaclePoints ++ (shapes.map Shape.points).flatten
          obstacleEdges := g.obstacleEdges ++ (shapes.map Shape.edges).flatten } := by
    induction shapes generalizing g with
    | nil =>
        simp only [List.foldl_nil, List.map_nil, List.flatten_nil, List.append_nil]
    | cons itm shapes ih =>
        rw [List.foldl_cons, ih]
        simp only [List.map_cons, List.flatten_cons, List.append_assoc]
  rw [addAllEdgesAndPoints, hloop]
  rfl

theorem iterate_addAllEdgesAndPoints (g : VisibilityGraph K) (n : Nat) :
    addAllEdgesAndPoints^[n + 1] g = g.addAllEdgesAndPoints := by
  induction n with
  | zero => rfl
  | succ n ih =>
      rw [Function.iterate_succ_apply', ih, addAllEdgesAndPoints_eq g,
        addAllEdgesAndPoints_eq]

/-- The shapes have the edges of their points, and the graph that has these
obstacles has collected them after `n + 1` calls. -/
def CollectsShapes (histories : List (List (List (GraphPoint K)))) (n : Nat) : Prop :=
  (∀ changes ∈ histories,
    (Shape.built changes).edges = closedCycle (Shape.built changes).points) ∧
  (addAllEdgesAndPoints^[n + 1]
    (withObstacles {} (histories.map Shape.built))).Collected

/-- No graph collects its obstacles exactly. A shape has the cycle of its points
exactly when the points are two or more, or never were; and whatever a graph
was, after any number of calls it has everything of its obstacles in order, and
300 entries in front of it. -/
theorem not_collectsShapes (histories : List (List (List (GraphPoint K)))) (n : Nat) :
    ¬ CollectsShapes histories n ∧
    (∀ changes ∈ histories,
      ((Shape.built changes).edges = closedCycle (Shape.built changes).points ↔
        2 ≤ (changes.getLastD []).length ∨ ∀ points ∈ changes, points.length ≤ 1)) ∧
    ∀ g : VisibilityGraph K,
      (addAllEdgesAndPoints^[n + 1] g).obstacles = g.obstacles ∧
      (addAllEdgesAndPoints^[n + 1] g).obstaclePoints =
        List.replicate 300 (0, 0) ++ (g.obstacles.map Shape.points).flatten ∧
      (addAllEdgesAndPoints^[n + 1] g).obstacleEdges =
        List.replicate 300 ((0, 0), (0, 0)) ++ (g.obstacles.map Shape.edges).flatten := by
  refine ⟨?_, fun changes _ => Shape.built_edges_iff changes, ?_⟩
  · rintro ⟨-, hcollected⟩
    rw [iterate_addAllEdgesAndPoints, addAllEdgesAndPoints_eq] at hcollected
    have hnil := List.append_left_eq_self.mp hcollected.points
    exact absurd hnil (List.cons_ne_nil _ _)
  · intro g
    rw [iterate_addAllEdgesAndPoints, addAllEdgesAndPoints_eq]
    exact ⟨rfl, rfl, rfl⟩

/-- A shape that shrank to a point keeps the edges of a segment, and a graph
with no obstacle at all collects 300 points. -/
theorem collectsShapes_shrunk :
    (Shape.built [[((0 : ℚ), (0 : ℚ)), (1, 0)], [(0, 0)]]).edges =
      [((0, 0), (1, 0)), ((1, 0), (0, 0))] ∧
    closedCycle [((0 : ℚ), (0 : ℚ))] = [] ∧
    (addAllEdgesAndPoints ({} : VisibilityGraph ℚ)).obstaclePoints =
      List.replicate 300 (0, 0) ∧
    ¬ (addAllEdgesAndPoints ({} : VisibilityGraph ℚ)).Collected := by
  refine ⟨rfl, rfl, ?_, ?_⟩
  · rw [addAllEdgesAndPoints_eq]
    exact List.append_nil _
  · rw [addAllEdgesAndPoints_eq]
    intro hcollected
    exact absurd (List.append_left_eq_self.mp hcollected.points) (List.cons_ne_nil _ _)

end VisibilityGraph

end Playspace.Visibility
