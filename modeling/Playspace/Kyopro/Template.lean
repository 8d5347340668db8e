import Mathlib.Tactic

/-!
# The competition template

`powpow` and `inv_num` stand in `tmplate.cpp` and, word for word, in the programs
that were started from it. An `ll` is a signed integer of 64 bits. What leaves
them in a product is undefined behaviour; here it is a fault of its own that ends
the call. Division and remainder truncate.
-/

namespace Playspace.Kyopro

inductive Fault where
  | overflow
deriving DecidableEq, Repr

/-- What an `ll` can hold. -/
def FitsLl (v : Int) : Prop := -2 ^ 63 ≤ v ∧ v < 2 ^ 63

instance (v : Int) : Decidable (FitsLl v) := inferInstanceAs (Decidable (_ ∧ _))

/-- `a * b` of two `ll`. -/
def mulLl (a b : Int) : Except Fault Int :=
  if FitsLl (a * b) then .ok (a * b) else .error .overflow

def MOD : Int := 1000000007

/-! ## The power -/

theorem pos_of_tmod_two {p : Int} (h : p.tmod 2 = 1) : 0 < p := by
  by_contra hneg
  have hmod := Int.tmod_nonneg 2 (show 0 ≤ -p by omega)
  rw [Int.neg_tmod, h] at hmod
  omega

theorem natAbs_tdiv_two_lt {p : Int} (h : p ≠ 0) : (p.tdiv 2).natAbs < p.natAbs := by
  rw [Int.natAbs_tdiv]
  exact Nat.div_lt_self (Int.natAbs_pos.mpr h) (by decide)

/-- A negative `p` has no odd branch, since its remainder is -1, and ends at 0. -/
def powpow (n p : Int) : Except Fault Int :=
  if hzero : p = 0 then
    .ok 1
  else if p = 1 then
    .ok (n.tmod MOD)
  else if hodd : p.tmod 2 = 1 then do
    let rest ← powpow n (p - 1)
    let product ← mulLl n rest
    return product.tmod MOD
  else do
    let dob ← powpow n (p.tdiv 2)
    let square ← mulLl dob dob
    return square.tmod MOD
termination_by p.natAbs
decreasing_by
  · have := pos_of_tmod_two hodd
    omega
  · exact natAbs_tdiv_two_lt hzero

def invNum (num : Int) : Except Fault Int := powpow num (MOD - 2)

end Playspace.Kyopro
