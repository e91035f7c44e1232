import Mathlib

/-! The conversions C++ makes between numbers of different kinds.

A `float` or `double` is a rational here, so a conversion to `int` truncates
towards zero and does nothing else; a conversion to a signed `char` keeps the
low eight bits. -/
namespace Botgeddon.Conversions

/-- `static_cast<int>` of a floating-point value. -/
def truncate (q : ℚ) : ℤ := if 0 ≤ q then ⌊q⌋ else ⌈q⌉

theorem truncate_of_nonneg {q : ℚ} (h : 0 ≤ q) : truncate q = ⌊q⌋ := if_pos h

@[simp] theorem truncate_intCast (z : ℤ) : truncate z = z := by
  simp [truncate]

/-- Truncation does not gain anything on a value that is not negative. -/
theorem truncate_le {q : ℚ} (h : 0 ≤ q) : (truncate q : ℚ) ≤ q := by
  rw [truncate_of_nonneg h]
  exact Int.floor_le q

/-- It loses less than one. -/
theorem sub_one_lt_truncate {q : ℚ} (h : 0 ≤ q) : q - 1 < truncate q := by
  rw [truncate_of_nonneg h]
  exact Int.sub_one_lt_floor q

/-- A value below zero truncates to nothing above zero. -/
theorem truncate_nonpos {q : ℚ} (h : q < 0) : truncate q ≤ 0 := by
  rw [truncate, if_neg (not_le.mpr h)]
  exact Int.ceil_le.mpr (by exact_mod_cast h.le)

/-- What is less than a positive integer stays less. -/
theorem truncate_lt_of_lt {q : ℚ} {z : ℤ} (hz : 0 < z) (h : q < z) : truncate q < z := by
  rcases lt_or_ge q 0 with hneg | hnonneg
  · exact (truncate_nonpos hneg).trans_lt hz
  · rw [truncate_of_nonneg hnonneg]
    exact Int.floor_lt.mpr h

theorem truncate_le_of_le {q : ℚ} {z : ℤ} (hz : 0 ≤ z) (h : q ≤ z) : truncate q ≤ z := by
  refine Int.lt_add_one_iff.mp (truncate_lt_of_lt (Int.lt_add_one_iff.mpr hz) ?_)
  push_cast
  linarith

/-- `static_cast<char>` of an `int`, where `char` is signed. -/
def toChar (z : ℤ) : ℤ := z.bmod 256

theorem toChar_of_small {z : ℤ} (lo : -128 ≤ z) (hi : z < 128) : toChar z = z := by
  simp only [toChar, Int.bmod_def]
  split <;> omega

/-- The byte an `int` leaves in a `char`: its low eight bits. -/
def toByte (z : ℤ) : UInt8 := UInt8.ofInt z

theorem toByte_toNat (z : ℤ) : ((toByte z).toNat : ℤ) = z % 256 := by
  have hz : 0 ≤ z % 256 := Int.emod_nonneg z (by decide)
  have hlt : z % 256 < 256 := Int.emod_lt_of_pos z (by decide)
  simp only [toByte, UInt8.ofInt, UInt8.toNat_ofNat']
  omega

/-- Casting to `char` on the way does not change the byte. -/
theorem toByte_add_toChar (base z : ℤ) : toByte (base + toChar z) = toByte (base + z) := by
  apply UInt8.toNat_inj.mp
  have hl := toByte_toNat (base + toChar z)
  have hr := toByte_toNat (base + z)
  have hz : toChar z % 256 = z % 256 := Int.bmod_emod
  omega

end Botgeddon.Conversions
