import Playspace.Citbrains.Frames

/-!
# The frames of the robots are rigid motions

The detour over polar coordinates is exact, `atan2` of the origin included,
since its radius is zero. So `LocalToGlobal` is the product in the group of
motions and `GlobalToLocal` the quotient (`toMotion_localToGlobal`,
`toMotion_globalToLocal`), and what holds of frames is what holds in a group:
the two undo each other, and it does not matter by way of which robots an
observation gets to its reader.
-/

namespace Playspace.Citbrains.Pos2D

open Playspace.Lib (Motion)
open Playspace.Visibility (atan2)
open Complex (I)

def toMotion (p : Pos2D ℝ) : Motion := ⟨⟨p.x, p.y⟩, p.th⟩

theorem toMotion_injective : Function.Injective toMotion := by
  intro p q h
  obtain ⟨x, y, th⟩ := p
  obtain ⟨x', y', th'⟩ := q
  simp only [toMotion, Motion.mk.injEq, Complex.mk.injEq] at h
  obtain ⟨⟨rfl, rfl⟩, rfl⟩ := h
  rfl

/-- Turned by way of its radius and its angle, a point is turned. -/
theorem polar_turned (x y turn : ℝ) :
    (⟨Real.sqrt (x * x + y * y) * Real.cos (turn + atan2 y x),
      Real.sqrt (x * x + y * y) * Real.sin (turn + atan2 y x)⟩ : ℂ) =
      Complex.exp (turn * I) * ⟨x, y⟩ := by
  have hnorm : Real.sqrt (x * x + y * y) = ‖(⟨x, y⟩ : ℂ)‖ := by
    rw [Complex.norm_def, Complex.normSq_mk]
  have hpolar : (⟨x, y⟩ : ℂ) = ‖(⟨x, y⟩ : ℂ)‖ * Complex.exp (atan2 y x * I) :=
    (Complex.norm_mul_exp_arg_mul_I ⟨x, y⟩).symm
  have hturned : Complex.exp (turn * I) * ⟨x, y⟩ =
      ‖(⟨x, y⟩ : ℂ)‖ * Complex.exp (↑(turn + atan2 y x) * I) := by
    conv_lhs => rw [hpolar]
    rw [Motion.exp_add_turn]
    ring
  rw [hturned, hnorm]
  apply Complex.ext
  · rw [Complex.re_ofReal_mul, Complex.exp_ofReal_mul_I_re]
  · rw [Complex.im_ofReal_mul, Complex.exp_ofReal_mul_I_im]

/-- A pose in the robot's frame, in the coordinates of the field. -/
theorem toMotion_localToGlobal (p selfPos : Pos2D ℝ) :
    (p.LocalToGlobal selfPos).toMotion = selfPos.toMotion * p.toMotion := by
  refine Motion.ext' ?_ rfl
  have h := polar_turned p.x p.y selfPos.th
  rw [Complex.ext_iff] at h
  rw [Motion.shift_mul, Motion.act]
  exact Complex.ext (congrArg (selfPos.x + ·) h.1) (congrArg (selfPos.y + ·) h.2)

/-- And a pose on the field, as the robot sees it. -/
theorem toMotion_globalToLocal (p selfPos : Pos2D ℝ) :
    (p.GlobalToLocal selfPos).toMotion = selfPos.toMotion⁻¹ * p.toMotion := by
  refine Motion.ext' ?_ ?_
  · have h := polar_turned (p.x - selfPos.x) (p.y - selfPos.y) (-selfPos.th)
    rw [Motion.shift_inv_mul]
    simp only [toMotion, GlobalToLocal, sub_eq_neg_add (atan2 _ _)]
    rw [h, Complex.ofReal_neg]
    rfl
  · exact sub_eq_neg_add _ _

theorem localToGlobal_globalToLocal (p selfPos : Pos2D ℝ) :
    (p.GlobalToLocal selfPos).LocalToGlobal selfPos = p := by
  refine toMotion_injective ?_
  rw [toMotion_localToGlobal, toMotion_globalToLocal, mul_inv_cancel_left]

theorem globalToLocal_localToGlobal (p selfPos : Pos2D ℝ) :
    (p.LocalToGlobal selfPos).GlobalToLocal selfPos = p := by
  refine toMotion_injective ?_
  rw [toMotion_globalToLocal, toMotion_localToGlobal, inv_mul_cancel_left]

/-- One robot tells the next what it sees, in the next one's frame. -/
noncomputable def passOn (seen : Pos2D ℝ × Pos2D ℝ) (next : Pos2D ℝ) :
    Pos2D ℝ × Pos2D ℝ :=
  (seen.1.LocalToGlobal (seen.2.GlobalToLocal next), next)

theorem passOn_globalToLocal (p robot next : Pos2D ℝ) :
    passOn (p.GlobalToLocal robot, robot) next = (p.GlobalToLocal next, next) := by
  refine Prod.ext (toMotion_injective ?_) rfl
  rw [passOn, toMotion_localToGlobal, toMotion_globalToLocal, toMotion_globalToLocal,
    toMotion_globalToLocal]
  group

/-- A pose that a robot sees and that is passed on along any route of robots
arrives as the last of them sees it itself. -/
theorem passOn_route (p robot : Pos2D ℝ) (route : List (Pos2D ℝ)) :
    route.foldl passOn (p.GlobalToLocal robot, robot) =
      (p.GlobalToLocal (route.getLastD robot), route.getLastD robot) := by
  induction route generalizing robot with
  | nil => rfl
  | cons next route ih =>
      rw [List.foldl_cons, passOn_globalToLocal, ih, List.getLastD_cons]

theorem distanceTo_eq (p q : Pos2D ℝ) :
    p.distanceTo q = ‖q.toMotion.shift - p.toMotion.shift‖ := by
  rw [Complex.norm_def, Complex.normSq_apply]
  rfl

theorem distanceTo_localToGlobal (p q selfPos : Pos2D ℝ) :
    (p.LocalToGlobal selfPos).distanceTo (q.LocalToGlobal selfPos) = p.distanceTo q := by
  rw [distanceTo_eq, distanceTo_eq, toMotion_localToGlobal, toMotion_localToGlobal,
    Motion.shift_mul, Motion.shift_mul, Motion.norm_act_sub_act]

/-- A robot's frame is the field moved: the two functions undo each other, they
keep the distance of any two poses, and a pose is as far from the origin of the
frame as it is from the robot. -/
theorem frames_rigid (p q selfPos : Pos2D ℝ) :
    (p.GlobalToLocal selfPos).LocalToGlobal selfPos = p ∧
      (p.LocalToGlobal selfPos).GlobalToLocal selfPos = p ∧
      (p.GlobalToLocal selfPos).distanceTo (q.GlobalToLocal selfPos) = p.distanceTo q ∧
      (p.LocalToGlobal selfPos).distanceTo (q.LocalToGlobal selfPos) = p.distanceTo q ∧
      Pos2D.distanceTo ⟨0, 0, 0⟩ (p.GlobalToLocal selfPos) = selfPos.distanceTo p := by
  have hglobal (a b : Pos2D ℝ) :
      (a.GlobalToLocal selfPos).distanceTo (b.GlobalToLocal selfPos) = a.distanceTo b := by
    rw [← distanceTo_localToGlobal _ _ selfPos, localToGlobal_globalToLocal,
      localToGlobal_globalToLocal]
  have hself : selfPos.GlobalToLocal selfPos = ⟨0, 0, 0⟩ := by
    refine toMotion_injective ?_
    rw [toMotion_globalToLocal, inv_mul_cancel]
    rfl
  refine ⟨localToGlobal_globalToLocal p selfPos, globalToLocal_localToGlobal p selfPos,
    hglobal p q, distanceTo_localToGlobal p q selfPos, ?_⟩
  rw [← hself, hglobal]

end Playspace.Citbrains.Pos2D
