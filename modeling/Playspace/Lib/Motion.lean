import Mathlib.Algebra.Group.MinimalAxioms
import Mathlib.Analysis.SpecialFunctions.Complex.Arg

/-!
# Rigid motions of the plane

A motion turns the plane about the origin and then shifts it. Motions form a
group, in which the angles add up and are not reduced, and they keep distances.
A pose is the motion that takes the origin and its first axis there, so that
`m * n` is the pose `n` given in the frame of `m`, and `m⁻¹ * n` is `n` as seen
from `m`.
-/

namespace Playspace.Lib

open Complex (I)

/-- The plane as the complex numbers. -/
structure Motion where
  shift : ℂ
  turn : ℝ

namespace Motion

@[ext] theorem ext' {m n : Motion} (hshift : m.shift = n.shift) (hturn : m.turn = n.turn) :
    m = n := by
  cases m
  cases n
  exact congrArg₂ Motion.mk hshift hturn

/-- Where a motion takes a point. -/
noncomputable def act (m : Motion) (z : ℂ) : ℂ :=
  m.shift + Complex.exp (m.turn * I) * z

noncomputable instance : Mul Motion := ⟨fun m n => ⟨m.act n.shift, m.turn + n.turn⟩⟩

noncomputable instance : One Motion := ⟨⟨0, 0⟩⟩

noncomputable instance : Inv Motion :=
  ⟨fun m => ⟨-(Complex.exp (-m.turn * I) * m.shift), -m.turn⟩⟩

theorem mul_def (m n : Motion) : m * n = ⟨m.act n.shift, m.turn + n.turn⟩ := rfl

theorem inv_def (m : Motion) :
    m⁻¹ = ⟨-(Complex.exp (-m.turn * I) * m.shift), -m.turn⟩ := rfl

theorem exp_add_turn (a b : ℝ) :
    Complex.exp (↑(a + b) * I) = Complex.exp (a * I) * Complex.exp (b * I) := by
  rw [Complex.ofReal_add, add_mul, Complex.exp_add]

theorem act_mul (m n : Motion) (z : ℂ) : (m * n).act z = m.act (n.act z) := by
  simp only [mul_def, act, exp_add_turn]
  ring

@[simp] theorem act_one (z : ℂ) : (1 : Motion).act z = z := by
  show (0 : ℂ) + Complex.exp ((0 : ℝ) * I) * z = z
  simp

noncomputable instance : Group Motion := by
  refine Group.ofLeftAxioms ?_ ?_ ?_
  · intro l m n
    refine ext' ?_ (add_assoc _ _ _)
    exact act_mul l m n.shift
  · intro m
    exact ext' (act_one m.shift) (zero_add _)
  · intro m
    refine ext' ?_ (neg_add_cancel _)
    show -(Complex.exp (-m.turn * I) * m.shift) + Complex.exp (↑(-m.turn) * I) * m.shift = 0
    rw [Complex.ofReal_neg, neg_add_cancel]

@[simp] theorem shift_mul (m n : Motion) : (m * n).shift = m.act n.shift := rfl

/-- Distances are kept. -/
theorem norm_act_sub_act (m : Motion) (z w : ℂ) : ‖m.act z - m.act w‖ = ‖z - w‖ := by
  have hact : m.act z - m.act w = Complex.exp (m.turn * I) * (z - w) := by
    simp only [act]
    ring
  rw [hact, norm_mul, Complex.norm_exp_ofReal_mul_I, one_mul]

/-- The pose `n` in the frame of `m`, from coordinates that both have in common. -/
theorem shift_inv_mul (m n : Motion) :
    (m⁻¹ * n).shift = Complex.exp (-m.turn * I) * (n.shift - m.shift) := by
  rw [shift_mul, inv_def, act, Complex.ofReal_neg]
  ring

end Motion

end Playspace.Lib
