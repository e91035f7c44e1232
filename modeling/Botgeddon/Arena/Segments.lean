import Botgeddon.Arena.Animations

/-! What the displays are given: four characters and the dots.

`char` is signed on the host and an expression of characters is an `int`; the
bytes sent are the low eight bits of each. -/
namespace Botgeddon.Arena
open Conversions

structure SegmentLedState where
  segments : Vector UInt8 4
  dots : UInt8
deriving DecidableEq

/-- A character literal. -/
def literal (c : Char) : UInt8 := UInt8.ofNat c.toNat

/-- Minutes, tens of seconds and seconds, as `Fighting` and `PausedAnim` both spell them. -/
def timerSegments (remTime : ℤ) : SegmentLedState :=
  ⟨#v[toByte (48 + toChar (remTime.tdiv 60)), toByte (48 + (toChar (remTime.tmod 60)).tdiv 10),
    toByte (48 + toChar (remTime.tmod 10)), literal ' '], 1⟩

section GetSegmentLed

variable [Arithmetic]

def PreStagingAnim.getSegmentLed : SegmentLedState := ⟨#v[0, 0, 0, 0], 0⟩

def StagingAnim.getSegmentLed : SegmentLedState :=
  ⟨#v[literal 's', literal 't', literal 'r', literal 't'], 0⟩

def PreCountdownAnimation.getSegmentLed : SegmentLedState :=
  ⟨#v[literal ' ', literal ' ', literal ' ', literal ' '], 0⟩

def XmasTree.getSegmentLed (self : XmasTree) (now : ℚ) : SegmentLedState :=
  let curTime := seconds (now - self.start)
  if curTime > 2 then ⟨#v[literal ' ', literal ' ', literal '1', literal ' '], 0⟩
  else if curTime > 1 then ⟨#v[literal ' ', literal '2', literal ' ', literal ' '], 0⟩
  else ⟨#v[literal '3', literal ' ', literal ' ', literal ' '], 0⟩

def Fighting.getSegmentLed (self : Fighting) (now : ℚ) : SegmentLedState :=
  let remTime := truncate ⌈seconds (self.endTime - now)⌉
  if remTime > 0 then timerSegments remTime
  else ⟨#v[literal 'E', literal 'n', literal 'd', literal ' '], 0⟩

def PausedAnim.getSegmentLed (self : PausedAnim) : SegmentLedState := timerSegments self.remTime

def End.getSegmentLed : SegmentLedState := ⟨#v[0, 0, 0, 0], 0⟩

/-- `GetSegmentLed` on the clock readings from the call on. `Fighting` takes two
and shows the time left at the second. -/
def LedAnimation.getSegmentLed (now : ℕ → ℚ) : LedAnimation → SegmentLedState
  | .preStagingAnim _ => PreStagingAnim.getSegmentLed
  | .stagingAnim _ => StagingAnim.getSegmentLed
  | .preCountdownAnimation _ => PreCountdownAnimation.getSegmentLed
  | .xmasTree a => a.getSegmentLed (now 0)
  | .fighting a => a.getSegmentLed (now 1)
  | .pausedAnim a => a.getSegmentLed
  | .endAnim _ => End.getSegmentLed

end GetSegmentLed

/-! ### Reading the display -/

/-- The character of a decimal digit. -/
def digit (d : ℕ) : UInt8 := UInt8.ofNat (48 + d)

/-- One of the first three characters. -/
def SegmentLedState.char (s : SegmentLedState) (i : ℕ) : UInt8 := s.segments[i]!

def IsDigit (c : UInt8) : Prop := ∃ d < 10, c = digit d

/-- The first three characters are minutes, tens of seconds and seconds that
make `secs` seconds. -/
def Spells (s : SegmentLedState) (secs : ℤ) : Prop :=
  ∃ d0 d1 d2 : ℕ, d0 < 10 ∧ d1 ≤ 5 ∧ d2 < 10 ∧ 60 * d0 + 10 * d1 + d2 = secs ∧
    s.char 0 = digit d0 ∧ s.char 1 = digit d1 ∧ s.char 2 = digit d2

theorem toByte_digit (d : ℕ) : toByte (48 + d) = digit d := by
  apply UInt8.toNat_inj.mp
  have hl := toByte_toNat (48 + d)
  have hr : (digit d).toNat = (48 + d) % 256 := UInt8.toNat_ofNat'
  omega

theorem digit_toNat {d : ℕ} (h : d < 10) : (digit d).toNat = 48 + d := by
  have hbyte : (digit d).toNat = (48 + d) % 256 := UInt8.toNat_ofNat'
  omega

/-- What is spelled can be read in one way only. -/
theorem Spells.unique {s : SegmentLedState} {z z' : ℤ} (h : Spells s z) (h' : Spells s z') : z = z' := by
  obtain ⟨d0, d1, d2, h0, h1, h2, hz, hs0, hs1, hs2⟩ := h
  obtain ⟨e0, e1, e2, k0, k1, k2, hz', ks0, ks1, ks2⟩ := h'
  have hsame : ∀ d e : ℕ, d < 10 → e < 10 → digit d = digit e → d = e := by
    intro d e hd he hde
    have hbytes := congrArg UInt8.toNat hde
    rw [digit_toNat hd, digit_toNat he] at hbytes
    omega
  have hd0 := hsame d0 e0 h0 k0 (hs0.symm.trans ks0)
  have hd1 := hsame d1 e1 (by omega) (by omega) (hs1.symm.trans ks1)
  have hd2 := hsame d2 e2 h2 k2 (hs2.symm.trans ks2)
  omega

/-- Any time below ten minutes is spelled. -/
theorem timerSegments_spells {z : ℤ} (lo : 0 ≤ z) (hi : z < 600) : Spells (timerSegments z) z := by
  obtain ⟨n, rfl⟩ := Int.eq_ofNat_of_zero_le lo
  have hmin : ((n : ℤ).tdiv 60) = ((n / 60 : ℕ) : ℤ) := rfl
  have hsec : ((n : ℤ).tmod 60) = ((n % 60 : ℕ) : ℤ) := rfl
  have hlast : ((n : ℤ).tmod 10) = ((n % 10 : ℕ) : ℤ) := rfl
  have hten : ((n % 60 : ℕ) : ℤ).tdiv 10 = ((n % 60 / 10 : ℕ) : ℤ) := rfl
  refine ⟨n / 60, n % 60 / 10, n % 10, by omega, by omega, by omega, by omega, ?_, ?_, ?_⟩
  · show toByte (48 + toChar ((n : ℤ).tdiv 60)) = _
    rw [hmin, toChar_of_small (by omega) (by omega), toByte_digit]
  · show toByte (48 + (toChar ((n : ℤ).tmod 60)).tdiv 10) = _
    rw [hsec, toChar_of_small (by omega) (by omega), hten, toByte_digit]
  · show toByte (48 + toChar ((n : ℤ).tmod 10)) = _
    rw [hlast, toChar_of_small (by omega) (by omega), toByte_digit]

theorem Spells.isDigit {s : SegmentLedState} {secs : ℤ} (h : Spells s secs) (i : Fin 3) :
    IsDigit (s.char i) := by
  obtain ⟨d0, d1, d2, h0, h1, h2, -, hs0, hs1, hs2⟩ := h
  match i with
  | 0 => exact ⟨d0, h0, hs0⟩
  | 1 => exact ⟨d1, by omega, hs1⟩
  | 2 => exact ⟨d2, h2, hs2⟩

end Botgeddon.Arena
