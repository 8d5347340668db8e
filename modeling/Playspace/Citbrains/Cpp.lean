import Mathlib.Data.Rat.Floor
import Mathlib.Tactic

/-!
# The C++ values the program is written in

Strings are byte lists, `char` is a signed eight-bit type, and floating-point
numbers are rationals: everything proved about coordinates is proved in exact
arithmetic. Three conversions carry most of the trouble in this code base and
are spelled out here once — a `char` read as an `int32_t` (sign extension), an
`int` pushed into a `char` (modulo 256), and a `float` cast to an integer
(truncation, and undefined behaviour once the target type cannot hold the
result).
-/

namespace Playspace.Citbrains

/-- A `std::string`, also when it holds raw bytes. -/
abbrev Bytes := List UInt8

/-- An ASCII literal as the bytes the program sees. -/
def ascii (s : String) : Bytes := s.toList.map fun c => UInt8.ofNat c.toNat

/-! ## `char` and the integers -/

/-- `static_cast<int32_t>(c)` of a signed `char`. -/
def charToInt (c : UInt8) : Int := c.toBitVec.toInt

/-- `static_cast<char>(static_cast<unsigned char>(n))`. -/
def intToChar (n : Int) : UInt8 := UInt8.ofNat (n % 256).toNat

theorem charToInt_eq (c : UInt8) :
    charToInt c = if c.toNat < 128 then (c.toNat : Int) else c.toNat - 256 := by
  have hlt := c.toNat_lt
  rw [charToInt, BitVec.toInt_eq_toNat_cond]
  simp only [UInt8.toNat_toBitVec]
  split <;> split <;> omega

theorem charToInt_range (c : UInt8) : -128 ≤ charToInt c ∧ charToInt c < 128 := by
  have hlt := c.toNat_lt
  rw [charToInt_eq]
  split <;> omega

theorem toNat_intToChar (n : Int) : ((intToChar n).toNat : Int) = n % 256 := by
  have h0 := Int.emod_nonneg n (show (256 : Int) ≠ 0 by omega)
  have h1 := Int.emod_lt_of_pos n (show (0 : Int) < 256 by omega)
  rw [intToChar, UInt8.toNat_ofNat']
  omega

/-- A byte that went through `unsigned char` comes back as itself exactly in
the lower half of the byte range, and 256 too small in the upper half. -/
theorem charToInt_intToChar (n : Int) :
    charToInt (intToChar n) = if n % 256 < 128 then n % 256 else n % 256 - 256 := by
  have h := toNat_intToChar n
  rw [charToInt_eq]
  split <;> split <;> omega

theorem charToInt_intToChar_of_small {n : Int} (h0 : 0 ≤ n) (h : n < 128) :
    charToInt (intToChar n) = n := by
  rw [charToInt_intToChar]
  split <;> omega

/-! ## Floating point to integer -/

/-- Truncation toward zero, what a C++ cast does to a float. -/
def truncZero (q : ℚ) : Int := q.num.tdiv q.den

theorem truncZero_of_nonneg {q : ℚ} (h : 0 ≤ q) : truncZero q = ⌊q⌋ := by
  rw [truncZero, Int.tdiv_eq_ediv_of_nonneg (Rat.num_nonneg.mpr h), Rat.floor_def']

theorem truncZero_of_nonpos {q : ℚ} (h : q ≤ 0) : truncZero q = ⌈q⌉ := by
  have hneg : 0 ≤ -q.num := Int.neg_nonneg.mpr (Rat.num_nonpos.mpr h)
  rw [Rat.ceil_def', ← Int.tdiv_eq_ediv_of_nonneg hneg, Int.neg_tdiv, Int.neg_neg,
    truncZero]

theorem truncZero_mono {p q : ℚ} (h : p ≤ q) : truncZero p ≤ truncZero q := by
  rcases le_total 0 p with hp | hp
  · rw [truncZero_of_nonneg hp, truncZero_of_nonneg (hp.trans h)]
    exact Int.floor_le_floor h
  · rw [truncZero_of_nonpos hp]
    rcases le_total 0 q with hq | hq
    · rw [truncZero_of_nonneg hq]
      have hceil : ⌈p⌉ ≤ 0 := Int.ceil_le.mpr (by rwa [Int.cast_zero])
      exact hceil.trans (Int.floor_nonneg.mpr hq)
    · rw [truncZero_of_nonpos hq]
      exact Int.ceil_le_ceil h

/-- The values an `int32_t` can hold. -/
def fitsInt32 (n : Int) : Prop := -2 ^ 31 ≤ n ∧ n < 2 ^ 31

instance (n : Int) : Decidable (fitsInt32 n) := inferInstanceAs (Decidable (_ ∧ _))

/-- The two float-to-integer casts of a platform. A value whose truncation the
target type holds is truncated; for the others the language leaves the result
open, and each platform has its own. -/
structure FloatCast where
  toInt32 : ℚ → Int
  toUint8 : ℚ → UInt8
  toInt32_eq : ∀ q, fitsInt32 (truncZero q) → toInt32 q = truncZero q
  toInt32_fits : ∀ q, fitsInt32 (toInt32 q)
  toUint8_eq : ∀ q, 0 ≤ truncZero q → truncZero q < 256 →
    toUint8 q = UInt8.ofNat (truncZero q).toNat

/-- The usual machine: out-of-range results wrap around. -/
def FloatCast.wrapping : FloatCast where
  toInt32 q := Int.bmod (truncZero q) (2 ^ 32)
  toUint8 q := intToChar (truncZero q)
  toInt32_eq := by
    intro q h
    obtain ⟨h0, h1⟩ := h
    exact Int.bmod_eq_of_le (by norm_num at h0 ⊢; omega) (by norm_num at h1 ⊢; omega)
  toInt32_fits := by
    intro q
    have h0 := Int.le_bmod (x := truncZero q) (m := 2 ^ 32) (by norm_num)
    have h1 := Int.bmod_lt (x := truncZero q) (m := 2 ^ 32) (by norm_num)
    norm_num at h0 h1
    exact ⟨by norm_num; omega, by norm_num; omega⟩
  toUint8_eq := by
    intro q h0 h1
    rw [intToChar, Int.emod_eq_of_lt h0 h1]

end Playspace.Citbrains
