import Mathlib.Analysis.SpecialFunctions.Complex.Arg

/-!
# Angles and orientation

Of two points above the horizontal axis the one with the larger angle is on the
left of the other, seen from the origin (`arg_lt_arg_iff`). So a list that is in
the order of the angles turns to the left from each of its points to each later
one, and no angle has to be computed to say so.
-/

namespace Playspace.Lib

/-- Twice the signed area of the triangle with the origin. -/
def cross {K : Type*} [Mul K] [Sub K] (p q : K × K) : K := p.1 * q.2 - p.2 * q.1

theorem cross_swap {K : Type*} [CommRing K] (p q : K × K) : cross q p = -cross p q := by
  simp only [cross]
  ring

theorem arg_mem_Ioo {z : ℂ} (hz : 0 < z.im) : 0 < z.arg ∧ z.arg < Real.pi := by
  refine ⟨?_, ?_⟩
  · refine lt_of_le_of_ne (Complex.arg_nonneg_iff.mpr hz.le) (Ne.symm ?_)
    rw [Ne, Complex.arg_eq_zero_iff]
    exact fun h => hz.ne' h.2
  · refine lt_of_le_of_ne (Complex.arg_le_pi z) ?_
    rw [Ne, Complex.arg_eq_pi_iff]
    exact fun h => hz.ne' h.2

/-- The sine of the angle from one point to the other. -/
theorem sin_arg_sub_arg {z w : ℂ} (hz : z ≠ 0) (hw : w ≠ 0) :
    Real.sin (w.arg - z.arg) = cross (z.re, z.im) (w.re, w.im) / (‖z‖ * ‖w‖) := by
  have hz' := norm_ne_zero_iff.mpr hz
  have hw' := norm_ne_zero_iff.mpr hw
  rw [Real.sin_sub, Complex.sin_arg, Complex.sin_arg, Complex.cos_arg hz, Complex.cos_arg hw]
  simp only [cross]
  field_simp

theorem arg_lt_arg_iff {z w : ℂ} (hz : 0 < z.im) (hw : 0 < w.im) :
    z.arg < w.arg ↔ 0 < cross (z.re, z.im) (w.re, w.im) := by
  have hz0 : z ≠ 0 := fun h => hz.ne' (by rw [h]; rfl)
  have hw0 : w ≠ 0 := fun h => hw.ne' (by rw [h]; rfl)
  have hnorm : 0 < ‖z‖ * ‖w‖ := mul_pos (norm_pos_iff.mpr hz0) (norm_pos_iff.mpr hw0)
  have hsin : 0 < Real.sin (w.arg - z.arg) ↔ 0 < cross (z.re, z.im) (w.re, w.im) := by
    rw [sin_arg_sub_arg hz0 hw0, div_pos_iff_of_pos_right hnorm]
  obtain ⟨hz1, hz2⟩ := arg_mem_Ioo hz
  obtain ⟨hw1, hw2⟩ := arg_mem_Ioo hw
  rw [← hsin]
  constructor
  · intro h
    exact Real.sin_pos_of_pos_of_lt_pi (by linarith) (by linarith)
  · intro h
    by_contra hle
    have hneg := Real.sin_nonpos_of_nonpos_of_neg_pi_le (x := w.arg - z.arg) (by linarith)
      (by linarith)
    exact absurd h (not_lt.mpr hneg)

theorem arg_le_arg_iff {z w : ℂ} (hz : 0 < z.im) (hw : 0 < w.im) :
    z.arg ≤ w.arg ↔ 0 ≤ cross (z.re, z.im) (w.re, w.im) := by
  rw [← not_lt, arg_lt_arg_iff hw hz, cross_swap, neg_pos, not_lt]

end Playspace.Lib
