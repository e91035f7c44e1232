import Botgeddon.Lib.Conversions
import Botgeddon.Lib.Floating

/-! How the arena program computes with seconds.

It does so in two ways: a difference of two time points becomes a
`duration<float>`, and the match time on record is multiplied by 1000. What the
machine and the displays do with the results is written over any `Arithmetic`, which
says what they are. `exact` loses nothing, and is what is meant where nothing is said;
`single` rounds as the processor does. Of either the laws of the timer need that it
keeps order and signs, and that no rounding gives a match a whole second back. -/
namespace Botgeddon.Arena
open Conversions Floating

class Arithmetic where
  /-- The `duration<float>` made of a difference of time points. -/
  seconds : ℚ → ℚ
  /-- `world.timeRemaining * 1000`. -/
  thousandfold : ℚ → ℚ
  seconds_mono : Monotone seconds
  seconds_pos_iff : ∀ d, 0 < seconds d ↔ 0 < d
  seconds_nonneg_iff : ∀ d, 0 ≤ seconds d ↔ 0 ≤ d
  /-- The first fight of a match begins with less than a second too much. -/
  whole : seconds (truncate (thousandfold 120) / 1000) ≤ 121
  /-- From one fight to the next: `S` seconds or less, turned into milliseconds by the
  constructor of `Fighting` and into seconds again by its display, are `S` or less. -/
  keeps : ∀ (d : ℚ) (S : ℕ), S ≤ 121 → seconds d ≤ S → seconds (truncate (thousandfold (seconds d)) / 1000) ≤ S

export Arithmetic (seconds thousandfold seconds_mono)

namespace Arithmetic

/-! ### Exact rationals -/

theorem exact_whole : (truncate (120 * 1000) / 1000 : ℚ) ≤ 121 := by decide +kernel

theorem exact_keeps (d : ℚ) (S : ℕ) (_ : S ≤ 121) (h : d ≤ S) : (truncate (d * 1000) / 1000 : ℚ) ≤ S := by
  have hmilli : truncate (d * 1000) ≤ 1000 * (S : ℤ) := by
    refine truncate_le_of_le (by positivity) ?_
    push_cast
    linarith
  have hcast : (truncate (d * 1000) : ℚ) ≤ 1000 * S := by exact_mod_cast hmilli
  linarith

/-- Seconds as exact rationals. -/
instance exact : Arithmetic where
  seconds d := d
  thousandfold q := q * 1000
  seconds_mono := monotone_id
  seconds_pos_iff _ := Iff.rfl
  seconds_nonneg_iff _ := Iff.rfl
  whole := exact_whole
  keeps := exact_keeps

@[simp] theorem exact_seconds (d : ℚ) : seconds d = d := rfl

@[simp] theorem exact_thousandfold (q : ℚ) : thousandfold q = q * 1000 := rfl

/-! ### Floats -/

/-- A difference of time points is a count of nanoseconds. It is made a `float`, of 23
fraction bits, and then divided by the nanoseconds of a second. -/
def floatSeconds (d : ℚ) : ℚ := round 23 (round 23 (d * 10 ^ 9) / 10 ^ 9)

def floatThousandfold (q : ℚ) : ℚ := round 23 (q * 1000)

theorem floatSeconds_mono : Monotone floatSeconds := by
  intro d d' h
  have hcount : round 23 (d * 10 ^ 9) ≤ round 23 (d' * 10 ^ 9) := round_mono 23 (by linarith)
  exact round_mono 23 (div_le_div_of_nonneg_right hcount (by norm_num))

theorem floatSeconds_pos_iff (d : ℚ) : 0 < floatSeconds d ↔ 0 < d := by
  rw [floatSeconds, round_pos_iff, div_pos_iff_of_pos_right (by norm_num), round_pos_iff,
    mul_pos_iff_of_pos_right (by norm_num)]

theorem floatSeconds_nonneg_iff (d : ℚ) : 0 ≤ floatSeconds d ↔ 0 ≤ d := by
  rw [floatSeconds, round_nonneg_iff, le_div_iff₀ (by norm_num), zero_mul, round_nonneg_iff,
    mul_nonneg_iff_of_pos_right (by norm_num)]

theorem floatThousandfold_mono : Monotone floatThousandfold := fun _ _ h => round_mono 23 (by linarith)

/-- The milliseconds of whole seconds are exact. -/
theorem floatThousandfold_natCast {S : ℕ} (h : S ≤ 121) : floatThousandfold S = 1000 * S := by
  have hexact : round 23 ((1000 * S : ℕ) : ℚ) = (1000 * S : ℕ) := round_natCast (by omega)
  rw [floatThousandfold, mul_comm]
  exact_mod_cast hexact

/-- A millisecond short of whole seconds is not rounded past them. -/
theorem floatSeconds_short : ∀ S ∈ List.range 122, floatSeconds ((1000 * S - 1) / 1000) ≤ S := by
  decide +kernel

/-- Whole seconds are not rounded up; or they are halfway between two `float`s of
nanoseconds, and the lower one does not make as many milliseconds. -/
theorem floatSeconds_whole : ∀ S ∈ List.range 122, floatSeconds S ≤ S ∨
    (0 < (S * 10 ^ 9 : ℚ) ∧ Int.fract ((S * 10 ^ 9 : ℚ) / ulp 23 (S * 10 ^ 9 : ℚ)) ≤ 1 / 2 ∧
      floatThousandfold (round 23 (below 23 (S * 10 ^ 9 : ℚ) / 10 ^ 9)) < 1000 * S) := by
  decide +kernel

/-- At exactly two minutes, rounded up, there is a second more; just above 119 seconds, one less. -/
example : ⌈floatSeconds 120⌉ = 121 ∧ ⌈floatSeconds (119 + 1 / 10 ^ 9)⌉ = 119 := by decide +kernel

theorem floatSeconds_keeps {d : ℚ} {S : ℕ} (hS : S ≤ 121) (h : floatSeconds d ≤ S) :
    floatSeconds (truncate (floatThousandfold (floatSeconds d)) / 1000) ≤ S := by
  have hmem : S ∈ List.range 122 := List.mem_range.mpr (by omega)
  have hproduct : floatThousandfold (floatSeconds d) ≤ 1000 * S :=
    (floatThousandfold_mono h).trans_eq (floatThousandfold_natCast hS)
  have hmilli : truncate (floatThousandfold (floatSeconds d)) ≤ 1000 * (S : ℤ) :=
    truncate_le_of_le (by positivity) (by exact_mod_cast hproduct)
  rcases hmilli.lt_or_eq with hshort | hfull
  · have hcast : (truncate (floatThousandfold (floatSeconds d)) : ℚ) + 1 ≤ 1000 * S := by exact_mod_cast hshort
    exact le_trans (floatSeconds_mono (by linarith)) (floatSeconds_short S hmem)
  · have hsecs : (truncate (floatThousandfold (floatSeconds d)) : ℚ) / 1000 = S := by
      rw [hfull]
      push_cast
      exact mul_div_cancel_left₀ (S : ℚ) (by norm_num)
    rw [hsecs]
    rcases le_or_gt (S : ℚ) d with hle | hlt
    · exact (floatSeconds_mono hle).trans h
    · rcases floatSeconds_whole S hmem with hwhole | ⟨hpos, hmid, hlow⟩
      · exact hwhole
      · -- Fewer than `S` seconds do not make that many milliseconds.
        have hcount : round 23 (d * 10 ^ 9) ≤ below 23 (S * 10 ^ 9 : ℚ) :=
          round_le_below hpos hmid (by linarith)
        have hless : floatSeconds d ≤ round 23 (below 23 (S * 10 ^ 9 : ℚ) / 10 ^ 9) :=
          round_mono 23 (div_le_div_of_nonneg_right hcount (by norm_num))
        have hsome : 0 < (S : ℚ) := pos_of_mul_pos_left hpos (by norm_num)
        refine absurd hfull (truncate_lt_of_lt ?_ ?_).ne
        · have hcast : 0 < S := by exact_mod_cast hsome
          omega
        · push_cast
          exact (floatThousandfold_mono hless).trans_lt hlow

theorem floatSeconds_match : floatSeconds (truncate (floatThousandfold 120) / 1000) ≤ 121 := by decide +kernel

/-- Seconds as `float`s. -/
@[reducible] def single : Arithmetic where
  seconds := floatSeconds
  thousandfold := floatThousandfold
  seconds_mono := floatSeconds_mono
  seconds_pos_iff := floatSeconds_pos_iff
  seconds_nonneg_iff := floatSeconds_nonneg_iff
  whole := floatSeconds_match
  keeps _ _ := floatSeconds_keeps

end Arithmetic

end Botgeddon.Arena
