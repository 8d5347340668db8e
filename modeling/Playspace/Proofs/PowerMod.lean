import Playspace.Kyopro.Template
import Playspace.Lib.SquareMultiply

/-!
# `powpow` and `inv_num`

A square is one of a value that was reduced, and it always fits. The odd branch
multiplies the reduced value by `n`, which only the call with `p = 1` reduces: it
is there that a large base leaves the 64 bits, and nowhere else. So the
call succeeds exactly where the products at the odd halvings of `p` fit
(`powpow_residue_iff`), which a base below 9223371982 takes care of, and then
what it returns is the residue of the power.

`inv_num` has such a base. Its modulus is prime, as a chain of two primitive
roots shows.
-/

namespace Playspace.Kyopro

open Playspace.Lib

/-- The product of an odd exponent `m` fits. -/
def OddProductFits (n : Int) (m : Nat) : Prop :=
  m % 2 = 1 → 3 ≤ m → FitsLl (n * (n ^ (m - 1) % MOD))

theorem mod_pos : 0 < MOD := by decide

theorem mulLl_ok {a b : Int} (h : FitsLl (a * b)) : mulLl a b = .ok (a * b) := if_pos h

theorem mulLl_overflow {a b : Int} (h : ¬ FitsLl (a * b)) :
    mulLl a b = .error .overflow := if_neg h

/-- Both factors below the modulus. -/
theorem fitsLl_square (a : Int) : FitsLl (a.tmod MOD * a.tmod MOD) := by
  have habs := abs_tmod_lt a mod_pos
  have hsquare : |a.tmod MOD| * |a.tmod MOD| ≤ MOD * MOD :=
    mul_le_mul habs.le habs.le (abs_nonneg _) mod_pos.le
  rw [abs_mul_abs_self] at hsquare
  have h0 := mul_self_nonneg (a.tmod MOD)
  unfold MOD at hsquare h0 ⊢
  rw [FitsLl]
  omega

/-! ## One call -/

theorem powpow_zero (n : Int) : powpow n (0 : Nat) = .ok 1 := by
  rw [powpow]
  rfl

theorem powpow_one (n : Int) : powpow n (1 : Nat) = .ok (n.tmod MOD) := by
  rw [powpow]
  rfl

theorem powpow_odd {m : Nat} (h : m % 2 = 1) (h3 : 3 ≤ m) (n : Int) :
    powpow n m = (do
      let rest ← powpow n (m - 1 : Nat)
      let product ← mulLl n rest
      return product.tmod MOD) := by
  have hodd : (m : Int).tmod 2 = 1 := by
    rw [Int.tmod_eq_emod_of_nonneg (by omega)]
    omega
  rw [powpow, dif_neg (by omega), if_neg (by omega), dif_pos hodd, Nat.cast_sub (by omega)]
  rfl

theorem powpow_even {m : Nat} (h : m % 2 = 0) (h2 : 2 ≤ m) (n : Int) :
    powpow n m = (do
      let dob ← powpow n (m / 2 : Nat)
      let square ← mulLl dob dob
      return square.tmod MOD) := by
  have heven : (m : Int).tmod 2 ≠ 1 := by
    rw [Int.tmod_eq_emod_of_nonneg (by omega)]
    omega
  rw [powpow, dif_neg (by omega), if_neg (by omega), dif_neg heven,
    Int.tdiv_eq_ediv_of_nonneg (by omega)]
  rfl

/-! ## The whole call -/

theorem allHalvings_odd {n : Int} {m : Nat} (h : m % 2 = 1) (h3 : 3 ≤ m) :
    AllHalvings (OddProductFits n) m ↔
      FitsLl (n * (n ^ (m - 1) % MOD)) ∧ AllHalvings (OddProductFits n) (m - 1) := by
  have hpred : AllHalvings (OddProductFits n) (m - 1) ↔
      AllHalvings (OddProductFits n) (m / 2) := by
    rw [allHalvings_iff, show (m - 1) / 2 = m / 2 by omega]
    exact and_iff_right fun hodd => absurd hodd (by omega)
  rw [allHalvings_iff, hpred]
  exact and_congr_left fun _ => ⟨fun hm => hm h h3, fun hfits _ _ => hfits⟩

theorem allHalvings_even {n : Int} {m : Nat} (h : m % 2 = 0) :
    AllHalvings (OddProductFits n) m ↔ AllHalvings (OddProductFits n) (m / 2) := by
  rw [allHalvings_iff]
  exact and_iff_right fun hodd => absurd hodd (by omega)

theorem allHalvings_one (n : Int) : AllHalvings (OddProductFits n) 1 := by
  intro k _ h3
  have hle := Nat.div_le_self 1 (2 ^ k)
  omega

theorem powpow_ok {n : Int} {m : Nat} (h : AllHalvings (OddProductFits n) m) :
    powpow n m = .ok ((n ^ m).tmod MOD) := by
  induction m using squaring_induction with
  | zero =>
      rw [powpow_zero, pow_zero]
      rfl
  | one => rw [powpow_one, pow_one]
  | odd m hodd h3 ih =>
      obtain ⟨hfits, hrest⟩ := (allHalvings_odd hodd h3).mp h
      rw [← even_pow_tmod (by omega)] at hfits
      rw [powpow_odd hodd h3, ih hrest]
      show (mulLl n _ >>= fun product => pure (product.tmod MOD)) = _
      rw [mulLl_ok hfits]
      exact congrArg Except.ok (multiply_residue (by omega) n MOD)
  | even m heven h2 ih =>
      rw [powpow_even heven h2, ih ((allHalvings_even heven).mp h)]
      show (mulLl _ _ >>= fun square => pure (square.tmod MOD)) = _
      rw [mulLl_ok (fitsLl_square _)]
      exact congrArg Except.ok (square_residue heven n MOD)

theorem powpow_overflow {n : Int} {m : Nat} (h : ¬ AllHalvings (OddProductFits n) m) :
    powpow n m = .error .overflow := by
  induction m using squaring_induction with
  | zero => exact absurd (fun k hodd => absurd hodd (by simp)) h
  | one => exact absurd (allHalvings_one n) h
  | odd m hodd h3 ih =>
      rw [powpow_odd hodd h3]
      by_cases hrest : AllHalvings (OddProductFits n) (m - 1)
      · -- the call below goes through, and it is this product that does not fit
        rw [allHalvings_odd hodd h3, not_and_or] at h
        have hfits := h.resolve_right (not_not_intro hrest)
        rw [← even_pow_tmod (by omega)] at hfits
        rw [powpow_ok hrest]
        show (mulLl n _ >>= fun product => pure (product.tmod MOD)) = _
        rw [mulLl_overflow hfits]
        rfl
      · rw [ih hrest]
        rfl
  | even m heven h2 ih =>
      rw [allHalvings_even heven] at h
      rw [powpow_even heven h2, ih h]
      rfl

/-- The call returns the residue of the power exactly where every product with
the base fits. -/
theorem powpow_residue_iff (n : Int) (p : Nat) :
    (∃ r, powpow n p = .ok r ∧ r ≡ n ^ p [ZMOD MOD] ∧ |r| < MOD) ↔
      AllHalvings (OddProductFits n) p := by
  constructor
  · rintro ⟨r, hr, -⟩
    by_contra hodd
    rw [powpow_overflow hodd] at hr
    cases hr
  · intro h
    exact ⟨_, powpow_ok h, tmod_modEq _ _, abs_tmod_lt _ mod_pos⟩

/-- A cube of `pINF`. -/
theorem powpow_pINF_overflow :
    ¬ ∃ r, powpow (2 ^ 60) 3 = .ok r ∧ r ≡ (2 ^ 60) ^ 3 [ZMOD MOD] ∧ |r| < MOD := by
  have hodd : ¬ AllHalvings (OddProductFits (2 ^ 60)) 3 := by
    intro h
    exact absurd (h 0 (by decide) (by decide)) (by decide)
  rintro ⟨r, hr, -⟩
  rw [show (3 : Int) = (3 : Nat) from rfl, powpow_overflow hodd] at hr
  cases hr

/-- No halving of a power of two is odd before 1, so no base is too large for it. -/
theorem powpow_two_pow (n : Int) (k : Nat) :
    powpow n (2 ^ k : Nat) = .ok ((n ^ 2 ^ k).tmod MOD) := by
  refine powpow_ok ?_
  induction k with
  | zero => exact allHalvings_one n
  | succ k ih =>
      rw [pow_succ, allHalvings_even (Nat.mul_mod_left _ _), Nat.mul_div_cancel _ two_pos]
      exact ih

/-- The largest residue fits behind such a base. -/
theorem oddProductFits_of_small {n : Int} (h : |n| * (MOD - 1) < 2 ^ 63) (m : Nat) :
    OddProductFits n m := by
  intro _ _
  have h0 := Int.emod_nonneg (n ^ (m - 1)) mod_pos.ne'
  have hlt := Int.emod_lt_of_pos (n ^ (m - 1)) mod_pos
  have hle : |n| * (n ^ (m - 1) % MOD) ≤ |n| * (MOD - 1) :=
    mul_le_mul_of_nonneg_left (by omega) (abs_nonneg n)
  have habs : |n * (n ^ (m - 1) % MOD)| < 2 ^ 63 := by
    rw [abs_mul, abs_of_nonneg h0]
    exact hle.trans_lt h
  rw [abs_lt] at habs
  exact ⟨habs.1.le, habs.2⟩

theorem powpow_of_small {n : Int} (h : |n| * (MOD - 1) < 2 ^ 63) (p : Nat) :
    powpow n p = .ok ((n ^ p).tmod MOD) :=
  powpow_ok fun k => oddProductFits_of_small h (p / 2 ^ k)

/-- The chain goes down to a prime that trial division takes care of. -/
theorem prime_half_pred_mod : Nat.Prime 500000003 := by
  refine prime_of_factors 2 [2, 41, 41, 148721] (by norm_num) ?_ (by reduce_mod_char) ?_
  · simp only [List.forall_mem_cons]
    norm_num
  · simp only [List.forall_mem_cons]
    refine ⟨?_, ?_, ?_, ?_, by simp⟩
    all_goals
      reduce_mod_char
      decide

theorem prime_mod : Nat.Prime 1000000007 := by
  refine prime_of_factors 5 [2, 500000003] (by norm_num) ?_ (by reduce_mod_char) ?_
  · simp only [List.forall_mem_cons]
    exact ⟨Nat.prime_two, prime_half_pred_mod, by simp⟩
  · simp only [List.forall_mem_cons]
    refine ⟨?_, ?_, by simp⟩
    all_goals
      reduce_mod_char
      decide

theorem invNum_inverse (num : Int) (h1 : 1 ≤ num) (hlt : num < MOD) :
    ∃ r, invNum num = .ok r ∧ 1 ≤ r ∧ r ≤ 1000000006 ∧ (num * r).tmod MOD = 1 := by
  have hsmall : |num| * (MOD - 1) < 2 ^ 63 :=
    calc |num| * (MOD - 1) = num * (MOD - 1) := by rw [abs_of_pos h1]
      _ ≤ (MOD - 1) * (MOD - 1) :=
          mul_le_mul_of_nonneg_right (Int.le_sub_one_of_lt hlt) (by decide)
      _ < 2 ^ 63 := by decide
  have hcall : invNum num = .ok ((num ^ (1000000007 - 2)).tmod MOD) :=
    powpow_of_small hsmall (1000000007 - 2)
  have hinv : (num * (num ^ (1000000007 - 2)).tmod MOD).tmod MOD = 1 :=
    mul_pow_sub_two prime_mod h1 hlt
  have h0 : 0 ≤ (num ^ (1000000007 - 2)).tmod MOD :=
    Int.tmod_nonneg _ (pow_nonneg (by omega) _)
  have hltMod := Int.tmod_lt_of_pos (num ^ (1000000007 - 2)) mod_pos
  generalize (num ^ (1000000007 - 2)).tmod MOD = r at hcall hinv h0 hltMod
  have hne : r ≠ 0 := by
    rintro rfl
    rw [mul_zero, Int.zero_tmod] at hinv
    cases hinv
  unfold MOD at hltMod
  exact ⟨r, hcall, by omega, by omega, hinv⟩

/-- The half of 1, which `inv_num(2)` is for. -/
theorem invNum_two :
    ∃ r, invNum 2 = .ok r ∧ 1 ≤ r ∧ r ≤ 1000000006 ∧ (2 * r).tmod MOD = 1 :=
  invNum_inverse 2 (by decide) (by decide)

end Playspace.Kyopro
