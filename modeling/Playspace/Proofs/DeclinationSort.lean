import Playspace.Lib.Angle
import Playspace.Proofs.AngularSort
import Playspace.Proofs.Obstacles
import Playspace.Proofs.Rectangle

/-!
# What `declination_sort` draws

Around a lowest point that no other point is level with, all angles are between
zero and π, and there the order of the angles is the order of the left turns. So
the sort leaves a fan: the lowest point, and the others from right to left
(`declinationSort_fan_iff`).

The corners of a rectangle are a fan already when they are taken around it, and
no other order of them is. But with two sides level there are two lowest points.
The angle from one of them to the other is zero, which is what `atan2` says of
the first point itself, so the sort may put them either way round, and one of
the ways crosses the square (`rectangle_boundary_iff`).
-/

namespace Playspace.Visibility

open Playspace.Lib

/-- An element with a key below all others comes first. -/
theorem StdSort.eq_cons {α β : Type*} [LinearOrder β] {key : α → β}
    {l sorted : List α} {a : α} (ha : a ∈ l) (hleast : ∀ b ∈ l, b ≠ a → key a < key b)
    (h : StdSort (fun a b => key a < key b) l sorted) : ∃ rest, sorted = a :: rest := by
  have hmem := h.perm.symm.subset ha
  obtain ⟨first, rest, rfl⟩ := List.exists_cons_of_ne_nil (List.ne_nil_of_mem hmem)
  by_cases hfirst : first = a
  · exact ⟨rest, by rw [hfirst]⟩
  · have hrest : a ∈ rest := (List.mem_cons.mp hmem).resolve_left (Ne.symm hfirst)
    exact absurd (hleast first (h.perm.subset List.mem_cons_self) hfirst)
      ((List.pairwise_cons.mp h.ordered).1 a hrest)

/-- Where no two elements are tied there is one order. -/
theorem perm_eq_of_strict {α : Type*} {le : α → α → Prop} {l₁ l₂ : List α}
    (h₁ : l₁.Pairwise le) (h₂ : l₂.Pairwise fun a b => le a b ∧ ¬ le b a)
    (hperm : l₁.Perm l₂) : l₁ = l₂ := by
  refine List.Perm.eq_of_pairwise ?_ h₁ (h₂.imp And.left) hperm
  intro a b ha hb hab hba
  by_contra hne
  have hsymm : Std.Symm fun a b => ¬ (le a b ∧ le b a) := ⟨fun _ _ h hboth => h hboth.symm⟩
  have hapart : l₂.Pairwise fun a b => ¬ (le a b ∧ le b a) :=
    h₂.imp fun h hboth => h.2 hboth.2
  exact hapart.forall (hperm.subset ha) hb hne ⟨hab, hba⟩

/-! ## The fan -/

/-- Above the reference point the order of the angles is that of the left turns. -/
theorem declination_le_iff {refP p q : GraphPoint ℝ} (hp : refP.2 < p.2) (hq : refP.2 < q.2) :
    declination refP p ≤ declination refP q ↔ 0 ≤ cross (p - refP) (q - refP) :=
  arg_le_arg_iff (z := ⟨p.1 - refP.1, p.2 - refP.2⟩) (w := ⟨q.1 - refP.1, q.2 - refP.2⟩)
    (sub_pos.mpr hp) (sub_pos.mpr hq)

/-- The points in the order of a walk that turns left around `lowest`. -/
structure Fan (lowest : GraphPoint ℝ) (points fan : List (GraphPoint ℝ)) : Prop where
  perm : (lowest :: fan).Perm points
  turns : fan.Pairwise fun p q => 0 ≤ cross (p - lowest) (q - lowest)

/-- The outcomes of `declination_sort` are the fans around the lowest point, and
there is one. -/
theorem declinationSort_fan_iff {s : Shape ℝ} {lowest : GraphPoint ℝ}
    (hcount : s.points.count lowest = 1)
    (hlowest : ∀ p ∈ s.points, p ≠ lowest → lowest.2 < p.2) :
    (∃ s', s.DeclinationSort s') ∧
      ∀ s', s.DeclinationSort s' ↔ s'.edges = s.edges ∧
        ∃ fan, s'.points = lowest :: fan ∧ Fan lowest s.points fan := by
  have hmem : lowest ∈ s.points := List.count_pos_iff.mp (by omega)
  have habove {fan : List (GraphPoint ℝ)} (hperm : (lowest :: fan).Perm s.points)
      {p : GraphPoint ℝ} (hp : p ∈ fan) : lowest.2 < p.2 := by
    refine hlowest p (hperm.subset (List.mem_cons_of_mem lowest hp)) ?_
    rintro rfl
    have hrest : fan.count p = 0 := by
      have := hperm.count_eq p
      rw [List.count_cons_self, hcount] at this
      omega
    exact List.count_eq_zero.mp hrest hp
  have hpositive {p : GraphPoint ℝ} (hp : p ∈ s.points) (hne : p ≠ lowest) :
      declination lowest lowest < declination lowest p := by
    rw [declination_self, declination_pos_iff]
    exact Or.inl (hlowest p hp hne)
  -- the first sort puts the lowest point in front
  obtain ⟨sorted, hheight⟩ := StdSort.exists (fun p : GraphPoint ℝ => p.2) s.points
  obtain ⟨rest, rfl⟩ := hheight.eq_cons hmem hlowest
  have hiff (s' : Shape ℝ) : s.DeclinationSort s' ↔ s'.edges = s.edges ∧
      ∃ fan, s'.points = lowest :: fan ∧ Fan lowest s.points fan := by
    constructor
    · rintro ⟨first, others, hfirst, hangle, hedges⟩
      obtain ⟨others', heq⟩ := hfirst.eq_cons hmem hlowest
      cases heq
      have hangle : StdSort
          (fun lhs rhs => declination lowest lhs < declination lowest rhs) s.points
          s'.points := ⟨hangle.perm.trans hfirst.perm, hangle.ordered⟩
      obtain ⟨fan, hpoints⟩ := hangle.eq_cons hmem fun p hp hne => hpositive hp hne
      have hperm : (lowest :: fan).Perm s.points := by
        rw [← hpoints]
        exact hangle.perm
      refine ⟨hedges, fan, hpoints, hperm, ?_⟩
      have hordered := hangle.keys_le
      rw [hpoints, List.pairwise_cons] at hordered
      refine hordered.2.imp_of_mem ?_
      intro p q hp hq hle
      exact (declination_le_iff (habove hperm hp) (habove hperm hq)).mp hle
    · rintro ⟨hedges, fan, hpoints, hfan⟩
      refine ⟨lowest, rest, hheight, ⟨?_, ?_⟩, hedges⟩
      · rw [hpoints]
        exact hfan.perm.trans hheight.perm.symm
      · rw [hpoints, List.pairwise_cons]
        refine ⟨?_, hfan.turns.imp_of_mem ?_⟩
        · intro p hp
          have hne : p ≠ lowest := by
            rintro rfl
            exact lt_irrefl _ (habove hfan.perm hp)
          exact not_lt.mpr
            (hpositive (hfan.perm.subset (List.mem_cons_of_mem lowest hp)) hne).le
        · intro p q hp hq hturn
          rw [not_lt, declination_le_iff (habove hfan.perm hp) (habove hfan.perm hq)]
          exact hturn
  refine ⟨?_, hiff⟩
  obtain ⟨sorted, hangle⟩ := StdSort.exists (declination lowest) (lowest :: rest)
  exact ⟨{ s with points := sorted }, lowest, rest, hheight, hangle, rfl⟩

/-- Three points, the lowest of them in the middle of the list. -/
def sampleTriangle : Shape ℝ := { points := [(0, 1), (0, 0), (1, 1)] }

theorem declinationSort_fan_triangle :
    (∃ s', sampleTriangle.DeclinationSort s') ∧
      ∀ s', sampleTriangle.DeclinationSort s' ↔ s'.edges = [] ∧
        ∃ fan, s'.points = (0, 0) :: fan ∧ Fan (0, 0) sampleTriangle.points fan := by
  have hcount : sampleTriangle.points.count (0, 0) = 1 := by
    rw [sampleTriangle, List.count_cons_of_ne (by norm_num), List.count_cons_self,
      List.count_cons_of_ne (by norm_num), List.count_nil]
  refine declinationSort_fan_iff hcount ?_
  intro p hp hne
  simp only [sampleTriangle, List.mem_cons, List.not_mem_nil, or_false] at hp
  rcases hp with rfl | rfl | rfl
  · exact one_pos
  · exact absurd rfl hne
  · exact one_pos

/-! ## A square -/

def quarterTurn (p : GraphPoint ℝ) : GraphPoint ℝ := (-p.2, p.1)

/-- The square around `m` with a corner at `m + p`, taken against the clock. -/
def squareAround (m p : GraphPoint ℝ) : List (GraphPoint ℝ) :=
  [m + p, m + quarterTurn p, m - p, m - quarterTurn p]

theorem quarterTurn_twice (p : GraphPoint ℝ) : quarterTurn (quarterTurn p) = -p := rfl

theorem squareAround_quarterTurn (m p : GraphPoint ℝ) :
    squareAround m (quarterTurn p) = (squareAround m p).rotate 1 := by
  show [m + quarterTurn p, m + quarterTurn (quarterTurn p), m - quarterTurn p,
    m - quarterTurn (quarterTurn p)] = [m + quarterTurn p, m - p, m - quarterTurn p, m + p]
  rw [quarterTurn_twice, ← sub_eq_add_neg, sub_neg_eq_add]

/-- Any corner may be the first. -/
theorem squareAround_iterate (m p : GraphPoint ℝ) (k : ℕ) :
    squareAround m (quarterTurn^[k] p) ~r squareAround m p := by
  induction k with
  | zero => exact List.IsRotated.refl _
  | succ k ih =>
      rw [Function.iterate_succ_apply', squareAround_quarterTurn]
      exact (List.IsRotated.forall _ 1).trans ih

/-- One of the corners is lowest. -/
theorem exists_lowest_corner (p : GraphPoint ℝ) :
    ∃ k, |(quarterTurn^[k] p).1| ≤ -(quarterTurn^[k] p).2 := by
  rcases le_total |p.1| |p.2| with h | h
  · rcases le_total p.2 0 with hy | hy
    · exact ⟨0, by rwa [abs_of_nonpos hy] at h⟩
    · refine ⟨2, ?_⟩
      show |-p.1| ≤ -(-p.2)
      rwa [abs_neg, neg_neg, ← abs_of_nonneg hy]
  · rcases le_total p.1 0 with hx | hx
    · refine ⟨1, ?_⟩
      show |-p.2| ≤ -p.1
      rwa [abs_neg, ← abs_of_nonpos hx]
    · refine ⟨3, ?_⟩
      show |-(-p.2)| ≤ -(-p.1)
      rwa [neg_neg, neg_neg, ← abs_of_nonneg hx]

/-- Both diagonals stand at half a right angle to the axes, or at none of them. -/
theorem abs_iterate_quarterTurn (p : GraphPoint ℝ) (k : ℕ) :
    |(quarterTurn^[k] p).1| = |(quarterTurn^[k] p).2| ↔ |p.1| = |p.2| := by
  induction k with
  | zero => exact Iff.rfl
  | succ k ih =>
      rw [← ih, Function.iterate_succ_apply']
      show |-(quarterTurn^[k] p).2| = |(quarterTurn^[k] p).1| ↔ _
      rw [abs_neg, eq_comm]

/-- A square with one lowest corner is sorted to its boundary. -/
theorem declinationSort_square {s s' : Shape ℝ} {m p : GraphPoint ℝ}
    (hpoints : s.points.Perm (squareAround m p)) (hlow : |p.1| < -p.2)
    (h : s.DeclinationSort s') : s'.points = squareAround m p := by
  obtain ⟨hleft, hright⟩ := abs_lt.mp hlow
  have habove : ∀ q ∈ [m + quarterTurn p, m - p, m - quarterTurn p], (m + p).2 < q.2 := by
    intro q hq
    simp only [List.mem_cons, List.not_mem_nil, or_false] at hq
    rcases hq with rfl | rfl | rfl
    · show m.2 + p.2 < m.2 + p.1
      linarith
    · show m.2 + p.2 < m.2 - p.2
      linarith
    · show m.2 + p.2 < m.2 - p.1
      linarith
  have hcount : s.points.count (m + p) = 1 := by
    rw [hpoints.count_eq, squareAround, List.count_cons_self, List.count_eq_zero.mpr]
    exact fun hmem => lt_irrefl _ (habove _ hmem)
  have hlowest : ∀ q ∈ s.points, q ≠ m + p → (m + p).2 < q.2 := by
    intro q hq hne
    exact habove q ((List.mem_cons.mp (hpoints.subset hq)).resolve_left hne)
  obtain ⟨-, fan, hfanned, hfan⟩ := ((declinationSort_fan_iff hcount hlowest).2 s').mp h
  rw [hfanned]
  have hperm : fan.Perm [m + quarterTurn p, m - p, m - quarterTurn p] :=
    (hfan.perm.trans hpoints).cons_inv
  -- around the lowest corner the other three are in the order of their angles
  have hy : p.2 ≠ 0 := by
    have : p.2 < 0 := by linarith
    exact this.ne
  have hsquare : 0 < p.1 ^ 2 + p.2 ^ 2 := by positivity
  have hturns : [m + quarterTurn p, m - p, m - quarterTurn p].Pairwise
      fun q r => 0 < cross (q - (m + p)) (r - (m + p)) := by
    have hcross₁ : cross (m + quarterTurn p - (m + p)) (m - p - (m + p)) =
        2 * (p.1 ^ 2 + p.2 ^ 2) := by
      simp only [cross, quarterTurn, Prod.fst_sub, Prod.snd_sub, Prod.fst_add, Prod.snd_add]
      ring
    have hcross₂ : cross (m + quarterTurn p - (m + p)) (m - quarterTurn p - (m + p)) =
        2 * (p.1 ^ 2 + p.2 ^ 2) := by
      simp only [cross, quarterTurn, Prod.fst_sub, Prod.snd_sub, Prod.fst_add, Prod.snd_add]
      ring
    have hcross₃ : cross (m - p - (m + p)) (m - quarterTurn p - (m + p)) =
        2 * (p.1 ^ 2 + p.2 ^ 2) := by
      simp only [cross, quarterTurn, Prod.fst_sub, Prod.snd_sub, Prod.fst_add, Prod.snd_add]
      ring
    simp only [List.pairwise_cons, List.mem_cons, List.not_mem_nil, or_false, forall_eq_or_imp,
      forall_eq, hcross₁, hcross₂, hcross₃]
    simp [hsquare]
  have hordered : [m + quarterTurn p, m - p, m - quarterTurn p].Pairwise fun q r =>
      0 ≤ cross (q - (m + p)) (r - (m + p)) ∧ ¬ 0 ≤ cross (r - (m + p)) (q - (m + p)) := by
    refine hturns.imp ?_
    intro q r hqr
    refine ⟨hqr.le, ?_⟩
    rw [cross_swap, not_le]
    exact neg_neg_of_pos hqr
  rw [perm_eq_of_strict hfan.turns hordered hperm, squareAround]

/-- With two lowest corners the sort may cross the square. -/
theorem declinationSort_crossed {s : Shape ℝ} {m : GraphPoint ℝ} {h : ℝ} (hpos : 0 < h)
    (hpoints : s.points.Perm (squareAround m (-h, -h))) :
    ∃ s', s.DeclinationSort s' ∧
      s'.points = [m + (h, -h), m + (-h, -h), m - (-h, -h), m - (h, -h)] := by
  have hquarter : quarterTurn (-h, -h) = (h, -h) := by
    rw [quarterTurn, neg_neg]
  have hself : declination (m + (-h, -h)) (m + (-h, -h)) = 0 := declination_self _
  have hlevel : declination (m + (-h, -h)) (m + (h, -h)) = 0 := by
    have hz : (⟨m.1 + h - (m.1 + -h), m.2 + -h - (m.2 + -h)⟩ : ℂ) = ((2 * h : ℝ) : ℂ) :=
      Complex.ext (by simp; ring) (by simp)
    show Complex.arg ⟨m.1 + h - (m.1 + -h), m.2 + -h - (m.2 + -h)⟩ = 0
    rw [hz]
    exact Complex.arg_ofReal_of_nonneg (by positivity)
  have hopposite : 0 < declination (m + (-h, -h)) (m - (-h, -h)) := by
    rw [declination_pos_iff]
    refine Or.inl ?_
    show m.2 + -h < m.2 - -h
    linarith
  have hlast : declination (m + (-h, -h)) (m - (-h, -h)) ≤
      declination (m + (-h, -h)) (m - (h, -h)) := by
    rw [declination_le_iff (by show m.2 + -h < m.2 - -h; linarith)
      (by show m.2 + -h < m.2 - -h; linarith)]
    simp only [cross, Prod.fst_sub, Prod.snd_sub, Prod.fst_add, Prod.snd_add]
    nlinarith [sq_nonneg h]
  refine ⟨{ s with points := [m + (h, -h), m + (-h, -h), m - (-h, -h), m - (h, -h)] },
    ⟨m + (-h, -h), [m + (h, -h), m - (-h, -h), m - (h, -h)], ?_, ⟨?_, ?_⟩, rfl⟩, rfl⟩
  · refine ⟨?_, ?_⟩
    · rw [squareAround, hquarter] at hpoints
      exact hpoints.symm
    · simp only [List.pairwise_cons, List.mem_cons, List.not_mem_nil, or_false, forall_eq_or_imp,
        forall_eq, Prod.snd_add, Prod.snd_sub]
      simp
      linarith
  · exact List.Perm.swap _ _ _
  · simp only [List.pairwise_cons, List.mem_cons, List.not_mem_nil, or_false, forall_eq_or_imp,
      forall_eq, hself, hlevel]
    simp [hopposite.le, hlast, hopposite.le.trans hlast]

/-- The crossed order is no way around the square. -/
theorem crossed_not_isRotated {m : GraphPoint ℝ} {h : ℝ} (hpos : 0 < h) :
    ¬ [m + (h, -h), m + (-h, -h), m - (-h, -h), m - (h, -h)] ~r
      squareAround m (-h, -h) := by
  have hquarter : quarterTurn (-h, -h) = (h, -h) := by
    rw [quarterTurn, neg_neg]
  rw [squareAround, hquarter, List.isRotated_comm, List.isRotated_iff_mod]
  rintro ⟨n, hn, hrotated⟩
  have hle : n ≤ 4 := hn
  -- in each of the four rotations one place has another corner
  interval_cases n
  · have hx := congrArg (fun l => (l.getD 0 m).1) hrotated
    simp [List.rotate] at hx
    linarith
  · have hx := congrArg (fun l => (l.getD 1 m).2) hrotated
    simp [List.rotate] at hx
    linarith
  · have hx := congrArg (fun l => (l.getD 0 m).2) hrotated
    simp [List.rotate] at hx
    linarith
  · have hx := congrArg (fun l => (l.getD 1 m).1) hrotated
    have hy := congrArg (fun l => (l.getD 3 m).1) hrotated
    simp [List.rotate] at hx hy
    linarith
  · have hx := congrArg (fun l => (l.getD 0 m).1) hrotated
    simp [List.rotate] at hx
    linarith

/-- A square can be taken from a lowest corner. -/
theorem exists_squareAround_lowest (m : GraphPoint ℝ) {p : GraphPoint ℝ} (hp : p ≠ 0) :
    ∃ q, q ≠ 0 ∧ |q.1| ≤ -q.2 ∧ squareAround m q ~r squareAround m p ∧
      (|q.1| = |q.2| ↔ |p.1| = |p.2|) := by
  obtain ⟨k, hlow⟩ := exists_lowest_corner p
  refine ⟨quarterTurn^[k] p, ?_, hlow, squareAround_iterate m p k, abs_iterate_quarterTurn p k⟩
  intro hzero
  have hinjective : Function.Injective quarterTurn := by
    intro a b hab
    simp only [quarterTurn, Prod.mk.injEq, neg_inj] at hab
    exact Prod.ext hab.2 hab.1
  have hfixed : quarterTurn^[k] 0 = 0 := by
    refine Function.iterate_fixed ?_ k
    rw [quarterTurn]
    exact Prod.ext neg_zero rfl
  exact hp (hinjective.iterate k (hzero.trans hfixed.symm))

/-- With level sides the sort may leave two neighbours exchanged. -/
theorem declinationSort_level {s : Shape ℝ} {m p : GraphPoint ℝ} (hp : p ≠ 0)
    (hpoints : s.points.Perm (squareAround m p)) (hlevel : |p.1| = |p.2|) :
    ∃ s' a b c d, s.DeclinationSort s' ∧ [a, b, c, d] ~r squareAround m p ∧
      s'.points = [b, a, c, d] ∧ ¬ s'.points ~r squareAround m p := by
  obtain ⟨q, hq, hlow, hrotated, hdiagonal⟩ := exists_squareAround_lowest m hp
  have heq := hdiagonal.mpr hlevel
  have hy : |q.2| = -q.2 := by
    rw [abs_of_nonpos]
    have := abs_nonneg q.1
    linarith
  have hpos : 0 < -q.2 := by
    rw [← hy, abs_pos]
    intro hzero
    rw [hzero, abs_zero, abs_eq_zero] at heq
    exact hq (Prod.ext heq hzero)
  -- the lowest corner to the left of the other is the one the argument takes
  have hleft : squareAround m (- -q.2, - -q.2) ~r squareAround m q := by
    rw [hy] at heq
    rcases abs_cases q.1 with ⟨habs, -⟩ | ⟨habs, -⟩
    · have hturned := squareAround_iterate m q 3
      have hcorner : quarterTurn^[3] q = (- -q.2, - -q.2) := by
        show (- -q.2, -q.1) = _
        rw [← habs, heq]
      rwa [hcorner] at hturned
    · have hcorner : q = (- -q.2, - -q.2) :=
        Prod.ext (by rw [← heq, habs, neg_neg]) (neg_neg _).symm
      rw [← hcorner]
  have haround := hleft.trans hrotated
  obtain ⟨s', hs', hcrossed⟩ :=
    declinationSort_crossed hpos (hpoints.trans haround.perm.symm)
  refine ⟨s', _, _, _, _, hs', haround, ?_, ?_⟩
  · rw [hcrossed, quarterTurn, neg_neg]
  · intro hboundary
    rw [hcrossed] at hboundary
    exact crossed_not_isRotated hpos (hboundary.trans haround.symm)

/-- A square whose corners come in any order: the sort takes them around it,
whatever it may leave, exactly when its diagonals are not at half a right angle
to the axes, so that none of its sides is level. -/
theorem declinationSort_boundary_iff {s : Shape ℝ} {m p : GraphPoint ℝ}
    (hp : p ≠ 0) (hpoints : s.points.Perm (squareAround m p)) :
    (∀ s', s.DeclinationSort s' → s'.points ~r squareAround m p) ↔ |p.1| ≠ |p.2| := by
  constructor
  · intro hall hlevel
    obtain ⟨s', a, b, c, d, hs', -, -, hcrossed⟩ := declinationSort_level hp hpoints hlevel
    exact hcrossed (hall s' hs')
  · intro hne s' hs'
    obtain ⟨q, -, hlow, hrotated, hdiagonal⟩ := exists_squareAround_lowest m hp
    have hlt : |q.1| < -q.2 := by
      refine lt_of_le_of_ne hlow ?_
      intro heq
      refine hne (hdiagonal.mp (heq.trans (abs_of_nonpos ?_).symm))
      have := abs_nonneg q.1
      linarith
    rw [declinationSort_square (hpoints.trans hrotated.perm.symm) hlt hs']
    exact hrotated

/-! ## `addRectangle`, `declination_sort`, `makeEdges` -/

theorem squareAround_corners (m : GraphPoint ℝ) (c s length : ℝ) :
    (squareCorners m length).map (rotateAbout c s m) =
      squareAround m (length / 2 * (c - s), length / 2 * (s + c)) := by
  obtain ⟨x, y⟩ := m
  simp only [squareCorners, rotateAbout, squareAround, quarterTurn, List.map_cons, List.map_nil,
    Prod.mk_add_mk, Prod.mk_sub_mk]
  push_cast
  ring_nf

/-- The edges of a closed cycle start at its points. -/
theorem map_fst_closedCycle {K : Type*} {points : List (GraphPoint K)}
    (h : 2 ≤ points.length) : (closedCycle points).map Prod.fst = points := by
  rw [closedCycle, if_neg (Nat.not_le.mpr h), List.map_fst_zip]
  exact (List.length_rotate points 1).ge

/-- What a program that builds a rectangle, sorts its points and makes its edges
gets is the boundary of the square, taken against the clock, whatever order
`std::sort` leaves ties in, exactly when no side of the rectangle is level. With a
level side it may get the two diagonals in place of two sides. -/
theorem rectangle_boundary_iff (x y : ℝ) {length : ℝ} (hlength : length ≠ 0) (rad : ℝ) :
    ((∀ s', Shape.DeclinationSort
        (Shape.addRectangle Real.cos Real.sin {} (x, y) length rad) s' →
      ∃ boundary, boundary ~r (squareCorners (x + y, x + y) length).map
          (rotateAbout (Real.cos rad) (Real.sin rad) (x + y, x + y)) ∧
        s'.makeEdges.edges = closedCycle boundary) ↔
      Real.sin (2 * rad) ≠ 0) ∧
    (Real.sin (2 * rad) = 0 → ∃ s' a b c d, Shape.DeclinationSort
        (Shape.addRectangle Real.cos Real.sin {} (x, y) length rad) s' ∧
      [a, b, c, d] ~r (squareCorners (x + y, x + y) length).map
          (rotateAbout (Real.cos rad) (Real.sin rad) (x + y, x + y)) ∧
      s'.makeEdges.edges = [(b, a), (a, c), (c, d), (d, b)]) := by
  have hunit : Real.cos rad ^ 2 + Real.sin rad ^ 2 = 1 := Real.cos_sq_add_sin_sq rad
  obtain ⟨added, hadded, hsquare⟩ := addsSquare_addRectangle hunit {} x y length
  have hpoints := hsquare.corners
  rw [squareAround_corners] at hpoints ⊢
  have hshape : (Shape.addRectangle Real.cos Real.sin {} (x, y) length rad).points = added :=
    hadded
  generalize Shape.addRectangle Real.cos Real.sin {} (x, y) length rad = s at hshape
  subst hshape
  have hp : (length / 2 * (Real.cos rad - Real.sin rad),
      length / 2 * (Real.sin rad + Real.cos rad)) ≠ (0 : GraphPoint ℝ) := by
    intro hzero
    obtain ⟨h₁, h₂⟩ := Prod.mk.inj hzero
    have hhalf : length / 2 ≠ 0 := div_ne_zero hlength two_ne_zero
    have h₁ := (mul_eq_zero.mp h₁).resolve_left hhalf
    have h₂ := (mul_eq_zero.mp h₂).resolve_left hhalf
    nlinarith
  have hdiagonal : |length / 2 * (Real.cos rad - Real.sin rad)| =
      |length / 2 * (Real.sin rad + Real.cos rad)| ↔ Real.sin (2 * rad) = 0 := by
    rw [abs_mul, abs_mul, mul_right_inj' (by positivity),
      ← sq_eq_sq_iff_abs_eq_abs, Real.sin_two_mul]
    constructor
    · intro h
      nlinarith
    · intro h
      nlinarith
  rw [Ne, ← hdiagonal]
  refine ⟨?_, ?_⟩
  · rw [← Ne, ← declinationSort_boundary_iff hp hpoints]
    refine forall₂_congr fun s' hs' => ?_
    have hlength4 : s'.points.length = 4 := by
      obtain ⟨first, rest, hfirst, hangle, -⟩ := hs'
      exact (hangle.perm.trans (hfirst.perm.trans hpoints)).length_eq
    rw [Shape.makeEdges_of_two_le (by omega)]
    constructor
    · rintro ⟨boundary, hboundary, hedges⟩
      have hfour : boundary.length = 4 := hboundary.perm.length_eq
      have hsame := congrArg (List.map Prod.fst) hedges
      rw [map_fst_closedCycle (by omega), map_fst_closedCycle (by omega)] at hsame
      rw [hsame]
      exact hboundary
    · intro hboundary
      exact ⟨s'.points, hboundary, rfl⟩
  · intro hlevel
    obtain ⟨s', a, b, c, d, hs', hrotated, hcrossed, -⟩ := declinationSort_level hp hpoints hlevel
    refine ⟨s', a, b, c, d, hs', hrotated, ?_⟩
    rw [Shape.makeEdges_of_two_le (by rw [hcrossed]; exact Nat.le_add_left 2 2), hcrossed]
    rfl

/-- The rectangle that `main` draws. -/
theorem rectangle_boundary_main :
    Real.sin (2 * (3.14 / 4.0)) ≠ 0 ∧
      ∀ s', Shape.DeclinationSort
          (Shape.addRectangle Real.cos Real.sin {} (200, 300) 100 (3.14 / 4.0)) s' →
        ∃ boundary, boundary ~r (squareCorners (200 + 300, 200 + 300) 100).map
            (rotateAbout (Real.cos (3.14 / 4.0)) (Real.sin (3.14 / 4.0))
              (200 + 300, 200 + 300)) ∧
          s'.makeEdges.edges = closedCycle boundary := by
  have hpi := Real.two_le_pi
  have hsin : Real.sin (2 * (3.14 / 4.0)) ≠ 0 :=
    (Real.sin_pos_of_pos_of_lt_pi (by norm_num) (by norm_num; linarith)).ne'
  exact ⟨hsin, (rectangle_boundary_iff 200 300 (by norm_num) (3.14 / 4.0)).1.mpr hsin⟩

end Playspace.Visibility
