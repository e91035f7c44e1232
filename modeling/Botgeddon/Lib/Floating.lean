import Mathlib

/-! Binary floating-point rounding, as IEEE 754 rounds by default.

`round f` takes a number to the nearest one with a leading bit and `f` fraction
bits, ties to even; the range of exponents is not limited, so there is neither
overflow nor a subnormal number. It is monotone, keeps signs, and leaves alone the
integers that fit in the fraction. -/
namespace Botgeddon.Floating

variable {K : Type*} [Field K] [LinearOrder K] [FloorRing K]

/-! ### To the nearest integer -/

section Nearest

/-- The nearest integer, and the even one of two. -/
def nearestEven (q : K) : ℤ :=
  if Int.fract q < 1 / 2 then ⌊q⌋
  else if 1 / 2 < Int.fract q then ⌊q⌋ + 1
  else if ⌊q⌋ % 2 = 0 then ⌊q⌋ else ⌊q⌋ + 1

theorem floor_le_nearestEven (q : K) : ⌊q⌋ ≤ nearestEven q := by
  unfold nearestEven
  split_ifs <;> omega

theorem nearestEven_le_floor_add_one (q : K) : nearestEven q ≤ ⌊q⌋ + 1 := by
  unfold nearestEven
  split_ifs <;> omega

variable [IsStrictOrderedRing K]

@[simp] theorem nearestEven_intCast (z : ℤ) : nearestEven (z : K) = z := by
  rw [nearestEven, Int.fract_intCast, if_pos (by norm_num), Int.floor_intCast]

theorem nearestEven_mono : Monotone (nearestEven : K → ℤ) := by
  intro q r hqr
  rcases (Int.floor_le_floor hqr).lt_or_eq with hlt | heq
  · calc nearestEven q ≤ ⌊q⌋ + 1 := nearestEven_le_floor_add_one q
      _ ≤ ⌊r⌋ := hlt
      _ ≤ nearestEven r := floor_le_nearestEven r
  · -- Between the same two integers the fractions decide.
    have hfract : Int.fract q ≤ Int.fract r := by
      rw [Int.fract, Int.fract, heq]
      linarith
    rw [nearestEven, nearestEven, heq]
    split_ifs <;> first | omega | linarith

/-- Below the midpoint above `k` nothing is rounded beyond `k`. -/
theorem nearestEven_le_of_lt {q : K} {k : ℤ} (h : q < k + 1 / 2) : nearestEven q ≤ k := by
  have hfloor : ⌊q⌋ ≤ k := by
    have hlt : ⌊q⌋ < k + 1 := Int.floor_lt.mpr (by push_cast; linarith)
    omega
  rcases hfloor.lt_or_eq with hlt | heq
  · exact (nearestEven_le_floor_add_one q).trans hlt
  · have hfract : Int.fract q < 1 / 2 := by
      rw [Int.fract, heq]
      linarith
    rw [nearestEven, if_pos hfract, heq]

end Nearest

/-! ### To a number of bits -/

section Bits

/-- The distance of neighbours among the numbers with `f` fraction bits, at `q`. -/
def ulp (f : ℕ) (q : K) : K := 2 ^ (Int.log 2 q - f)

/-- Rounding of what is not negative. -/
def roundMagnitude (f : ℕ) (q : K) : K := nearestEven (q / ulp f q) * ulp f q

variable [IsStrictOrderedRing K]

theorem ulp_pos (f : ℕ) (q : K) : 0 < ulp f q := zpow_pos two_pos _

/-- The bottom of a binade is `2 ^ f` units. -/
theorem two_pow_mul_ulp (f : ℕ) (q : K) : 2 ^ f * ulp f q = 2 ^ Int.log 2 q := by
  rw [ulp, ← zpow_natCast, ← zpow_add₀ two_pos.ne', add_sub_cancel]

theorem zpow_log_le {q : K} (h : 0 < q) : (2 : K) ^ Int.log 2 q ≤ q := by
  exact_mod_cast Int.zpow_log_le_self one_lt_two h

theorem lt_zpow_log (q : K) : q < (2 : K) ^ (Int.log 2 q + 1) := by
  exact_mod_cast Int.lt_zpow_succ_log_self one_lt_two q

@[simp] theorem roundMagnitude_zero (f : ℕ) : roundMagnitude f (0 : K) = 0 := by
  have hzero : nearestEven (0 : K) = 0 := by exact_mod_cast nearestEven_intCast (0 : ℤ)
  rw [roundMagnitude, zero_div, hzero, Int.cast_zero, zero_mul]

/-- `2 ^ f` units or more reach the bottom of the binade. -/
theorem zpow_log_le_mul_ulp {f : ℕ} {q : K} {m : ℤ} (h : 2 ^ f ≤ m) : 2 ^ Int.log 2 q ≤ m * ulp f q := by
  rw [← two_pow_mul_ulp f q]
  exact mul_le_mul_of_nonneg_right (by exact_mod_cast h) (ulp_pos f q).le

theorem two_pow_le_units (f : ℕ) {q : K} (h : 0 < q) : ((2 ^ f : ℤ) : K) ≤ q / ulp f q := by
  rw [le_div_iff₀ (ulp_pos f q)]
  push_cast
  rw [two_pow_mul_ulp]
  exact zpow_log_le h

/-- Rounding does not leave the binade, or reaches its upper end. -/
theorem zpow_log_le_roundMagnitude (f : ℕ) {q : K} (h : 0 < q) :
    2 ^ Int.log 2 q ≤ roundMagnitude f q := by
  have hround := nearestEven_mono (two_pow_le_units f h)
  rw [nearestEven_intCast] at hround
  exact zpow_log_le_mul_ulp hround

theorem roundMagnitude_le_zpow_log (f : ℕ) (q : K) : roundMagnitude f q ≤ 2 ^ (Int.log 2 q + 1) := by
  have hwhole : ((2 ^ (f + 1) : ℤ) : K) * ulp f q = 2 ^ (Int.log 2 q + 1) := by
    push_cast
    rw [pow_succ', mul_assoc, two_pow_mul_ulp, zpow_add_one₀ two_ne_zero, mul_comm]
  have hunits : q / ulp f q ≤ ((2 ^ (f + 1) : ℤ) : K) := by
    rw [div_le_iff₀ (ulp_pos f q), hwhole]
    exact (lt_zpow_log q).le
  have hround : nearestEven (q / ulp f q) ≤ 2 ^ (f + 1) := by
    simpa only [nearestEven_intCast] using nearestEven_mono hunits
  calc roundMagnitude f q ≤ ((2 ^ (f + 1) : ℤ) : K) * ulp f q :=
        mul_le_mul_of_nonneg_right (by exact_mod_cast hround) (ulp_pos f q).le
    _ = 2 ^ (Int.log 2 q + 1) := hwhole

theorem roundMagnitude_pos (f : ℕ) {q : K} (h : 0 < q) : 0 < roundMagnitude f q :=
  (zpow_pos two_pos _).trans_le (zpow_log_le_roundMagnitude f h)

theorem roundMagnitude_mono (f : ℕ) {q r : K} (hq : 0 < q) (hqr : q ≤ r) :
    roundMagnitude f q ≤ roundMagnitude f r := by
  have hlog : Int.log 2 q ≤ Int.log 2 r := Int.log_mono_right hq hqr
  rcases hlog.lt_or_eq with hlt | heq
  · calc roundMagnitude f q ≤ 2 ^ (Int.log 2 q + 1) := roundMagnitude_le_zpow_log f q
      _ ≤ 2 ^ Int.log 2 r := zpow_le_zpow_right₀ one_le_two hlt
      _ ≤ roundMagnitude f r := zpow_log_le_roundMagnitude f (hq.trans_le hqr)
  · have hunit : ulp f q = ulp f r := by rw [ulp, ulp, heq]
    have hround : nearestEven (q / ulp f q) ≤ nearestEven (r / ulp f r) := by
      rw [hunit]
      exact nearestEven_mono (div_le_div_of_nonneg_right hqr (ulp_pos f r).le)
    rw [roundMagnitude, roundMagnitude, hunit]
    rw [hunit] at hround
    exact mul_le_mul_of_nonneg_right (by exact_mod_cast hround) (ulp_pos f r).le

/-- Whole units stay as they are. -/
theorem roundMagnitude_eq_self {f : ℕ} {q : K} {m : ℤ} (h : q / ulp f q = m) : roundMagnitude f q = q := by
  rw [roundMagnitude, h, nearestEven_intCast, ← h, div_mul_cancel₀ q (ulp_pos f q).ne']

/-- The lower neighbour of a number, or the number itself. -/
def below (f : ℕ) (p : K) : K := ⌊p / ulp f p⌋ * ulp f p

theorem zpow_log_le_below (f : ℕ) {p : K} (h : 0 < p) : 2 ^ Int.log 2 p ≤ below f p :=
  zpow_log_le_mul_ulp (Int.le_floor.mpr (two_pow_le_units f h))

end Bits

/-! ### With a sign -/

section Sign

/-- The nearest number with `f` fraction bits. -/
def round (f : ℕ) (q : K) : K := if q < 0 then -roundMagnitude f (-q) else roundMagnitude f q

theorem round_of_neg {f : ℕ} {q : K} (h : q < 0) : round f q = -roundMagnitude f (-q) := if_pos h

theorem round_of_nonneg {f : ℕ} {q : K} (h : 0 ≤ q) : round f q = roundMagnitude f q :=
  if_neg (not_lt.mpr h)

variable [IsStrictOrderedRing K]

theorem round_neg_of_neg {f : ℕ} {q : K} (h : q < 0) : round f q < 0 := by
  rw [round_of_neg h]
  exact neg_lt_zero.mpr (roundMagnitude_pos f (neg_pos.mpr h))

theorem round_pos_of_pos {f : ℕ} {q : K} (h : 0 < q) : 0 < round f q := by
  rw [round_of_nonneg h.le]
  exact roundMagnitude_pos f h

@[simp] theorem round_zero (f : ℕ) : round f (0 : K) = 0 := by
  rw [round_of_nonneg (le_refl _), roundMagnitude_zero]

/-- Rounding keeps the sign. -/
@[simp] theorem round_pos_iff {f : ℕ} {q : K} : 0 < round f q ↔ 0 < q := by
  refine ⟨fun h => ?_, round_pos_of_pos⟩
  rcases lt_trichotomy q 0 with hneg | rfl | hpos
  · exact absurd h (round_neg_of_neg hneg).not_gt
  · simp at h
  · exact hpos

@[simp] theorem round_nonneg_iff {f : ℕ} {q : K} : 0 ≤ round f q ↔ 0 ≤ q := by
  refine ⟨fun h => not_lt.mp fun hneg => (round_neg_of_neg hneg).not_ge h, fun h => ?_⟩
  rcases h.lt_or_eq with hpos | rfl
  · exact (round_pos_of_pos hpos).le
  · rw [round_zero]

theorem round_mono (f : ℕ) : Monotone (round f : K → K) := by
  intro q r hqr
  rcases lt_or_ge q 0 with hq | hq
  · rcases lt_or_ge r 0 with hr | hr
    · rw [round_of_neg hq, round_of_neg hr]
      exact neg_le_neg (roundMagnitude_mono f (neg_pos.mpr hr) (neg_le_neg hqr))
    · exact (round_neg_of_neg hq).le.trans (round_nonneg_iff.mpr hr)
  · rcases hq.lt_or_eq with hpos | rfl
    · rw [round_of_nonneg hq, round_of_nonneg (hq.trans hqr)]
      exact roundMagnitude_mono f hpos hqr
    · rw [round_zero]
      exact round_nonneg_iff.mpr hqr

/-- An integer that fits in the fraction is not rounded. -/
theorem round_natCast {f n : ℕ} (h : n < 2 ^ (f + 1)) : round f (n : K) = n := by
  rw [round_of_nonneg (Nat.cast_nonneg n)]
  have hlog : Nat.log 2 n ≤ f := Nat.lt_succ_iff.mp (Nat.log_lt_of_lt_pow' (Nat.succ_ne_zero f) h)
  refine roundMagnitude_eq_self (m := (n * 2 ^ (f - Nat.log 2 n) : ℕ)) ?_
  rw [ulp, Int.log_natCast, div_eq_iff (zpow_ne_zero _ two_ne_zero)]
  push_cast
  rw [mul_assoc, ← zpow_natCast, ← zpow_add₀ two_ne_zero, Nat.cast_sub hlog]
  simp

/-- What is less than a number not past the midpoint of its neighbours is not rounded
to the upper one. -/
theorem round_le_below {f : ℕ} {p q : K} (hp : 0 < p) (hmid : Int.fract (p / ulp f p) ≤ 1 / 2)
    (h : q < p) : round f q ≤ below f p := by
  rcases le_or_gt q 0 with hneg | hpos
  · have hround : round f q ≤ 0 := not_lt.mp fun hround => absurd (round_pos_iff.mp hround) (not_lt.mpr hneg)
    exact hround.trans ((zpow_pos two_pos _).trans_le (zpow_log_le_below f hp)).le
  · rw [round_of_nonneg hpos.le]
    have hlog : Int.log 2 q ≤ Int.log 2 p := Int.log_mono_right hpos h.le
    rcases hlog.lt_or_eq with hlt | heq
    · calc roundMagnitude f q ≤ 2 ^ (Int.log 2 q + 1) := roundMagnitude_le_zpow_log f q
        _ ≤ 2 ^ Int.log 2 p := zpow_le_zpow_right₀ one_le_two hlt
        _ ≤ below f p := zpow_log_le_below f hp
    · have hunit : ulp f q = ulp f p := by rw [ulp, ulp, heq]
      have hunits : q / ulp f p < ⌊p / ulp f p⌋ + 1 / 2 := by
        have hless : q / ulp f p < p / ulp f p := div_lt_div_of_pos_right h (ulp_pos f p)
        rw [Int.fract] at hmid
        linarith
      rw [roundMagnitude, hunit]
      exact mul_le_mul_of_nonneg_right (by exact_mod_cast nearestEven_le_of_lt hunits) (ulp_pos f p).le

end Sign

end Botgeddon.Floating
