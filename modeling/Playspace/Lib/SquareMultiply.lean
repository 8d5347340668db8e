import Mathlib.Data.List.Prime
import Mathlib.FieldTheory.Finite.Basic
import Mathlib.NumberTheory.LucasPrimality
import Mathlib.Tactic

/-!
# Powers by squaring

A power by squaring takes one factor off an odd exponent and halves an even one.
Whatever it does, it comes past the halvings of its exponent, and of these the
odd ones from 3 on are where it multiplies by the base: a condition on its
products is one on all halvings (`AllHalvings`), and `squaring_induction` is the
rule that walks them. The residues are those of a truncating division, so that
they are as negative as what is divided; squares and products of them lose
nothing.
-/

namespace Playspace.Lib

/-! ## The exponents on the way -/

/-- `P` of `m`, `m / 2`, `m / 4` and so on. -/
def AllHalvings (P : Nat → Prop) (m : Nat) : Prop := ∀ k, P (m / 2 ^ k)

theorem allHalvings_iff {P : Nat → Prop} {m : Nat} :
    AllHalvings P m ↔ P m ∧ AllHalvings P (m / 2) := by
  have hhalf : ∀ k, m / 2 ^ (k + 1) = m / 2 / 2 ^ k := by
    intro k
    rw [Nat.pow_succ', Nat.div_div_eq_div_mul]
  constructor
  · intro h
    refine ⟨?_, fun k => ?_⟩
    · have h0 := h 0
      rwa [Nat.pow_zero, Nat.div_one] at h0
    · have hk := h (k + 1)
      rwa [hhalf] at hk
  · rintro ⟨h0, hrest⟩ k
    cases k with
    | zero => rwa [Nat.pow_zero, Nat.div_one]
    | succ k =>
        rw [hhalf]
        exact hrest k

theorem squaring_induction {motive : Nat → Prop} (zero : motive 0) (one : motive 1)
    (odd : ∀ m, m % 2 = 1 → 3 ≤ m → motive (m - 1) → motive m)
    (even : ∀ m, m % 2 = 0 → 2 ≤ m → motive (m / 2) → motive m) (m : Nat) :
    motive m := by
  induction m using Nat.strong_induction_on with
  | _ m ih =>
      match m with
      | 0 => exact zero
      | 1 => exact one
      | m + 2 =>
          rcases Nat.mod_two_eq_zero_or_one (m + 2) with heven | hodd
          · exact even _ heven (by omega) (ih _ (by omega))
          · exact odd _ hodd (by omega) (ih _ (by omega))

/-! ## Residues -/

theorem abs_tmod_lt (a : Int) {b : Int} (hb : 0 < b) : |a.tmod b| < b := by
  rw [abs_lt]
  exact ⟨Int.lt_tmod_of_pos a hb, Int.tmod_lt_of_pos a hb⟩

theorem tmod_modEq (a b : Int) : a.tmod b ≡ a [ZMOD b] :=
  Int.modEq_iff_dvd.mpr Int.dvd_self_sub_tmod

/-- The product of residues has the residue of the product. -/
theorem tmod_mul_tmod (a b c : Int) : (a.tmod c * b.tmod c).tmod c = (a * b).tmod c :=
  (Int.mul_tmod a b c).symm

theorem mul_tmod_tmod (a b c : Int) : (a * b.tmod c).tmod c = (a * b).tmod c := by
  rw [Int.mul_tmod, Int.tmod_tmod, ← Int.mul_tmod]

theorem square_residue {m : Nat} (h : m % 2 = 0) (n c : Int) :
    ((n ^ (m / 2)).tmod c * (n ^ (m / 2)).tmod c).tmod c = (n ^ m).tmod c := by
  rw [tmod_mul_tmod, ← pow_add, show m / 2 + m / 2 = m by omega]

theorem multiply_residue {m : Nat} (h : 0 < m) (n c : Int) :
    (n * (n ^ (m - 1)).tmod c).tmod c = (n ^ m).tmod c := by
  rw [mul_tmod_tmod, ← pow_succ', Nat.sub_add_cancel h]

/-- An even power is not negative, and neither is its residue. -/
theorem even_pow_tmod {m : Nat} (h : m % 2 = 0) (n c : Int) :
    (n ^ m).tmod c = n ^ m % c :=
  Int.tmod_eq_emod_of_nonneg (Even.pow_nonneg (Nat.even_iff.mpr h) n)

/-! ## Inverses -/

/-- Lucas's test; `a` is a primitive root. -/
theorem prime_of_factors {p : Nat} (a : ZMod p) (factors : List Nat)
    (hprod : p - 1 = factors.prod) (hprime : ∀ q ∈ factors, q.Prime)
    (hpow : a ^ (p - 1) = 1) (hroot : ∀ q ∈ factors, a ^ ((p - 1) / q) ≠ 1) :
    p.Prime := by
  refine lucas_primality p a hpow fun q hq hdvd => ?_
  rw [hprod] at hdvd
  obtain ⟨r, hr, hqr⟩ := (Prime.dvd_prod_iff hq.prime).mp hdvd
  rw [(Nat.prime_dvd_prime_iff_eq hq (hprime r hr)).mp hqr]
  exact hroot r hr

/-- By Fermat's little theorem. -/
theorem mul_pow_sub_two {p : Nat} (hp : p.Prime) {n : Int} (h0 : 0 < n) (hn : n < p) :
    (n * (n ^ (p - 2)).tmod p).tmod p = 1 := by
  have htwo := hp.two_le
  have hndvd : ¬ (p : Int) ∣ n := by
    intro hdvd
    exact absurd (Int.le_of_dvd h0 hdvd) (by omega)
  have hcoprime : IsCoprime n p :=
    ((Nat.prime_iff_prime_int.mp hp).coprime_iff_not_dvd.mpr hndvd).symm
  have hfermat := Int.ModEq.pow_card_sub_one_eq_one hp hcoprime
  rw [mul_tmod_tmod, ← pow_succ', show p - 2 + 1 = p - 1 by omega,
    Int.tmod_eq_emod_of_nonneg (pow_nonneg h0.le _), hfermat.eq]
  exact Int.emod_eq_of_lt (by omega) (by omega)

end Playspace.Lib
