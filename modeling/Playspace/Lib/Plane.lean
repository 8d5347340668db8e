import Mathlib.Tactic

/-!
# Squares in the plane

Points over any field, turned about a centre by a pair `(c, s)` that stands for
the cosine and the sine of the angle. A turn keeps distances, and since it is
affine it takes the mean of some points to the mean of the turned ones. A square
is known by its four corners alone: where its mean lies and how far the corners
are from it follows (`RotatedSquare.of_corners`), and so two squares with the
same corners have one centre.
-/

namespace Playspace.Lib

variable {K : Type*} [Field K] {c s length : K} {centre : K × K}

/-- About `centre`, by the angle with cosine `c` and sine `s`. -/
def rotateAbout (c s : K) (centre p : K × K) : K × K :=
  (centre.1 + (p.1 - centre.1) * c - (p.2 - centre.2) * s,
    centre.2 + (p.1 - centre.1) * s + (p.2 - centre.2) * c)

def sqDist (p q : K × K) : K := (p.1 - q.1) ^ 2 + (p.2 - q.2) ^ 2

def mean (points : List (K × K)) : K × K :=
  (points.sum.1 / points.length, points.sum.2 / points.length)

/-- Around the square, with its sides along the axes. -/
def squareCorners (centre : K × K) (length : K) : List (K × K) :=
  let half := length / (2 : ℕ)
  [(centre.1 + half, centre.2 + half), (centre.1 - half, centre.2 + half),
    (centre.1 - half, centre.2 - half), (centre.1 + half, centre.2 - half)]

structure RotatedSquare (c s : K) (centre : K × K) (length : K)
    (points : List (K × K)) : Prop where
  corners : points.Perm ((squareCorners centre length).map (rotateAbout c s centre))
  mean_eq : mean points = centre
  distance : ∀ p ∈ points, sqDist p centre = length ^ 2 / (2 : ℕ)

/-! ## Turning -/

@[simp] theorem rotateAbout_centre (c s : K) (centre : K × K) :
    rotateAbout c s centre centre = centre := by
  simp [rotateAbout]

theorem sqDist_rotateAbout (h : c ^ 2 + s ^ 2 = 1) (centre p q : K × K) :
    sqDist (rotateAbout c s centre p) (rotateAbout c s centre q) = sqDist p q := by
  simp only [sqDist, rotateAbout]
  linear_combination ((p.1 - q.1) ^ 2 + (p.2 - q.2) ^ 2) * h

/-- The sum of turned points, as the turn of their sum would have it. -/
theorem sum_map_rotateAbout (c s : K) (centre : K × K) (points : List (K × K)) :
    (points.map (rotateAbout c s centre)).sum =
      (points.length * centre.1 + (points.sum.1 - points.length * centre.1) * c
          - (points.sum.2 - points.length * centre.2) * s,
        points.length * centre.2 + (points.sum.1 - points.length * centre.1) * s
          + (points.sum.2 - points.length * centre.2) * c) := by
  induction points with
  | nil => simp [Prod.zero_eq_mk]
  | cons p points ih =>
      rw [List.map_cons, List.sum_cons, ih, List.sum_cons, List.length_cons]
      push_cast
      ext
      · simp only [rotateAbout, Prod.fst_add, Prod.snd_add]
        ring
      · simp only [rotateAbout, Prod.fst_add, Prod.snd_add]
        ring

/-! ## Means -/

theorem mean_perm {points others : List (K × K)} (h : points.Perm others) :
    mean points = mean others := by
  rw [mean, mean, h.sum_eq, h.length_eq]

theorem mean_map_rotateAbout [CharZero K] {points : List (K × K)} (hne : points ≠ [])
    (c s : K) (centre : K × K) :
    mean (points.map (rotateAbout c s centre)) = rotateAbout c s centre (mean points) := by
  have hlen : (points.length : K) ≠ 0 := by
    rw [Nat.cast_ne_zero]
    exact fun h => hne (List.eq_nil_of_length_eq_zero h)
  rw [mean, sum_map_rotateAbout, List.length_map]
  ext
  · simp only [rotateAbout, mean]
    field_simp
  · simp only [rotateAbout, mean]
    field_simp

/-! ## The square -/

section
variable [CharZero K]

theorem mean_squareCorners (centre : K × K) (length : K) :
    mean (squareCorners centre length) = centre := by
  ext
  · simp [mean, squareCorners]
    ring
  · simp [mean, squareCorners]
    ring

theorem sqDist_squareCorners {p : K × K} (h : p ∈ squareCorners centre length) :
    sqDist p centre = length ^ 2 / (2 : ℕ) := by
  simp only [squareCorners, List.mem_cons, List.not_mem_nil, or_false] at h
  rcases h with rfl | rfl | rfl | rfl
  all_goals
    simp only [sqDist]
    push_cast
    ring

/-- The corners say all there is to a square. -/
theorem RotatedSquare.of_corners {points : List (K × K)} (h : c ^ 2 + s ^ 2 = 1)
    (hperm : points.Perm ((squareCorners centre length).map (rotateAbout c s centre))) :
    RotatedSquare c s centre length points where
  corners := hperm
  mean_eq := by
    rw [mean_perm hperm, mean_map_rotateAbout (by simp [squareCorners]),
      mean_squareCorners, rotateAbout_centre]
  distance := by
    intro p hp
    obtain ⟨corner, hcorner, rfl⟩ := List.mem_map.mp (hperm.mem_iff.mp hp)
    -- the centre does not move, so a corner keeps its distance from it
    have hturn := sqDist_rotateAbout h centre corner centre
    rw [rotateAbout_centre] at hturn
    rw [hturn]
    exact sqDist_squareCorners hcorner

end

theorem RotatedSquare.centre_unique {c' s' length' : K} {centre' : K × K}
    {points : List (K × K)} (h : RotatedSquare c s centre length points)
    (h' : RotatedSquare c' s' centre' length' points) : centre = centre' :=
  h.mean_eq.symm.trans h'.mean_eq

end Playspace.Lib
