import Botgeddon.Arena.Fades

/-! The countdown, on the displays and on the strip.

The displays show how many seconds are left, and the strip as many bars, which flash at
every whole second. `GetSegmentLed` and `GetColors` work that out independently and from
two readings of the clock, the one for the strip being the later. -/
namespace Botgeddon.Arena
open Visits
open LedAnimation (N)
open XmasTree (dootRegion beat)

namespace XmasTree

/-- The digit for a time of the countdown. -/
def count (curTime : ℚ) : ℕ := if curTime > 2 then 1 else if curTime > 1 then 2 else 3

theorem count_bounds (curTime : ℚ) : 1 ≤ count curTime ∧ count curTime ≤ 3 := by
  unfold count
  split_ifs <;> decide

/-- The digit's second has begun. -/
theorem lt_of_count {curTime : ℚ} (h0 : 0 ≤ curTime) : (3 - count curTime : ℚ) ≤ curTime := by
  unfold count
  split_ifs with h2 h1
  · push_cast
    linarith
  · push_cast
    linarith
  · push_cast
    linarith

theorem count_antitone {t t' : ℚ} (h : t ≤ t') : count t' ≤ count t := by
  unfold count
  split_ifs <;> first | decide | linarith

/-- The digit stands in its place of the display and alone. -/
structure ShowsDigit (s : SegmentLedState) (d : ℕ) : Prop where
  place : s.char (3 - d) = digit d
  blank : ∀ j < 4, j ≠ 3 - d → s.char j = literal ' '
  dots : s.dots = 0

theorem getSegmentLed_showsDigit (a : XmasTree) (now : ℚ) :
    ShowsDigit (a.getSegmentLed now) (count (now - a.start)) := by
  simp only [XmasTree.getSegmentLed, count, Arithmetic.exact_seconds]
  split_ifs
  · exact ⟨by decide, by decide, rfl⟩
  · exact ⟨by decide, by decide, rfl⟩
  · exact ⟨by decide, by decide, rfl⟩

/-- The bars flash for the first third of every second. -/
theorem beat_full {curTime : ℚ} (h0 : 0 ≤ curTime) (h : Int.fract curTime ≤ 1 / 3) : beat curTime = 1 := by
  rw [beat, fmod_one h0]
  have hfract := Int.fract_nonneg curTime
  exact clamp_of_one_le (by nlinarith)

end XmasTree
open XmasTree (count ShowsDigit)

namespace LitRun

variable {r : LitRun}

/-- When iteration `n` reads the clock for its digit. -/
def segmentTime (r : LitRun) (n : ℕ) : ℚ := (r.input n).now (r.reads n)

/-- The digit iteration `n` shows. -/
def count (r : LitRun) (n : ℕ) : ℕ := XmasTree.count (r.segmentTime n - r.entryTime (n + 1))

theorem segmentTime_le_colorTime (r : LitRun) (n : ℕ) : r.segmentTime n ≤ r.colorTime n :=
  r.ordered n (Nat.le_add_right _ _)

theorem segmentTime_mono (r : LitRun) : Monotone r.segmentTime :=
  monotone_nat_of_le_succ fun n => (r.follows n _ 0).trans (r.ordered (n + 1) (Nat.zero_le _))

/-- The object of a countdown. -/
theorem countdown_object {n : ℕ} (h : r.phase n = .Countdown) :
    ∃ a : XmasTree, (r.state n).state = .xmasTree a ∧ a.start = r.entryTime n := by
  obtain ⟨a, ha⟩ := LedAnimation.eq_xmasTree h
  exact ⟨a, ha, (congrArg LedAnimation.start ha).symm⟩

/-- Pixel `i` is in one of the last `d` bars. -/
def InBars (d : ℕ) (i : Fin N) : Prop := 3 < dootRegion[i.val]! + d

instance (d : ℕ) : DecidablePred (InBars d) := fun _ => inferInstanceAs (Decidable (_ < _))

theorem inBars_iff {d : ℕ} {i : Fin N} : InBars d i ↔ 3 < XmasTree.bar (i % 48) + d := by
  rw [InBars, XmasTree.dootRegion_eq i.isLt]

/-- A bar is twelve rows of the eight columns. -/
theorem inBars_card {d : ℕ} (h : 1 ≤ d ∧ d ≤ 3) : (Finset.univ.filter (InBars d)).card = 96 * d := by
  obtain ⟨hlo, hhi⟩ := h
  simp only [inBars_iff]
  interval_cases d <;> decide +kernel

/-- What a frame of a countdown gives pixel `i`. -/
theorem countdown_pixel {n : ℕ} (h : r.phase (n + 1) = .Countdown) (i : Fin N) :
    r.shownPixel n i =
      if r.colorTime n - r.entryTime (n + 1) < dootRegion[i.val]! then
        (paint (beat (r.colorTime n - r.entryTime (n + 1)) * maxLightCounts) fun val => ⟨val, val, 0⟩).color
      else dark := by
  obtain ⟨a, ha, hstart⟩ := countdown_object h
  rw [shownPixel_eq, ha, ← hstart]
  exact XmasTree.pixel_color a _ _

/-- What iteration `n` shows of a countdown. -/
structure CountsDown (r : LitRun) (n : ℕ) : Prop where
  /-- The displays show one digit, in its place. -/
  digit : 1 ≤ r.count n ∧ r.count n ≤ 3
  display : ShowsDigit (r.output n).segmentLed (r.count n)
  /-- As many bars are left, and no pixel outside them is lit. -/
  bars : (Finset.univ.filter (InBars (r.count n))).card = 96 * r.count n
  others : ∀ i, ¬ InBars (r.count n) i → r.shownPixel n i = dark
  /-- The bars look alike, unless a second ends between the two readings, and are at full for the
  first third of each second. -/
  flash : r.colorTime n < r.entryTime (n + 1) + (4 - r.count n) →
    ∃ val : UInt8, (∀ i, InBars (r.count n) i → r.shownPixel n i = ⟨val, val, 0⟩) ∧
      (Int.fract (r.colorTime n - r.entryTime (n + 1)) ≤ 1 / 3 → val = 120)
  /-- No bar goes out while it is lit, if the next frame is read in time. -/
  out : r.colorTime (n + 1) ≤ r.colorTime n + 1 / 12 →
    ∀ i : Fin N, (dootRegion[i.val]! : ℚ) ≤ r.colorTime (n + 1) - r.entryTime (n + 1) → r.shownPixel n i = dark
  /-- The digits go down. -/
  down : ∀ m ≤ n, Stays r.phase (m + 1) (n + 1) → r.count n ≤ r.count m

/-- A pixel whose bar is over within a twelfth of a second is dark already. -/
theorem bars_end_dark {n : ℕ} (h : r.phase (n + 1) = .Countdown)
    (hsoon : r.colorTime (n + 1) ≤ r.colorTime n + 1 / 12) (i : Fin N)
    (hover : (dootRegion[i.val]! : ℚ) ≤ r.colorTime (n + 1) - r.entryTime (n + 1)) : r.shownPixel n i = dark := by
  have hentry := r.entryTime_le_colorTime n
  rw [countdown_pixel h]
  split
  case isTrue hlit =>
    have hsecond : ⌊r.colorTime n - r.entryTime (n + 1)⌋ = dootRegion[i.val]! - 1 := by
      rw [Int.floor_eq_iff]
      push_cast
      constructor <;> linarith
    have hbeat : beat (r.colorTime n - r.entryTime (n + 1)) = 0 := by
      refine XmasTree.beat_dark (by linarith) ?_
      rw [Int.fract, hsecond]
      push_cast
      linarith
    rw [hbeat, zero_mul]
    exact paint_zero tint_yellow
  case isFalse => rfl

/-- **The displays and the strip count together**, in every frame of every countdown. -/
theorem countdown_together {n : ℕ} (h : r.phase (n + 1) = .Countdown) : r.CountsDown n := by
  have hbounds := XmasTree.count_bounds (r.segmentTime n - r.entryTime (n + 1))
  have hread := r.segmentTime_le_colorTime n
  have hentry := r.entryTime_le_colorTime n
  have hbuilt : r.entryTime (n + 1) ≤ r.segmentTime n := (r.entryTime_le n).2
  refine ⟨hbounds, ?_, inBars_card hbounds, fun i hi => ?_, fun hsecond => ?_, bars_end_dark h, fun m hmn hstays => ?_⟩
  · obtain ⟨a, ha, hstart⟩ := countdown_object h
    rw [output_segmentLed, Run.shown_eq, ha, count, ← hstart]
    exact XmasTree.getSegmentLed_showsDigit a _
  · have hgone : (3 - r.count n : ℚ) ≤ r.segmentTime n - r.entryTime (n + 1) := XmasTree.lt_of_count (by linarith)
    have hregion : (dootRegion[i.val]! : ℚ) ≤ 3 - r.count n := by
      have hout := not_lt.mp hi
      have hcast : ((dootRegion[i.val]! + r.count n : ℤ) : ℚ) ≤ 3 := by exact_mod_cast hout
      push_cast at hcast
      linarith
    rw [countdown_pixel h, if_neg (by linarith)]
  · refine ⟨castUInt8 (beat (r.colorTime n - r.entryTime (n + 1)) * maxLightCounts), fun i hi => ?_, fun hfract => ?_⟩
    · have hregion : (4 - r.count n : ℚ) ≤ dootRegion[i.val]! := by
        have hin : (4 : ℤ) ≤ dootRegion[i.val]! + r.count n := hi
        have hcast : (4 : ℚ) ≤ ((dootRegion[i.val]! + r.count n : ℤ) : ℚ) := by exact_mod_cast hin
        push_cast at hcast
        linarith
      rw [countdown_pixel h, if_pos (by linarith)]
      rfl
    · rw [XmasTree.beat_full (by linarith) hfract, one_mul]
      decide +kernel
  · have hsame : r.entryTime (m + 1) = r.entryTime (n + 1) := entryTime_constant (by omega) hstays
    rw [count, count, hsame]
    have hlater := r.segmentTime_mono hmn
    exact XmasTree.count_antitone (by linarith)

/-- The countdown's first frame, at 20 s: three, and three full bars. -/
theorem countdown_together_interrupted :
    ShowsDigit ((LitRun.mk Run.interrupted fun _ _ => .origin).output 5).segmentLed 3 ∧
      (LitRun.mk Run.interrupted fun _ _ => .origin).shownPixel 5 ⟨33, by decide⟩ = ⟨120, 120, 0⟩ := by
  have hcountdown : Run.interrupted.phase 6 = .Countdown := by decide +kernel
  have hthree : (LitRun.mk Run.interrupted fun _ _ => .origin).count 5 = 3 := by decide +kernel
  have hcounts := countdown_together (r := ⟨Run.interrupted, fun _ _ => .origin⟩) hcountdown
  have hdisplay := hcounts.display
  obtain ⟨val, hval, hfull⟩ := hcounts.flash (by decide +kernel)
  rw [hthree] at hdisplay hval
  rw [hfull (by decide +kernel)] at hval
  exact ⟨hdisplay, hval _ (inBars_iff.mpr (by decide))⟩

end LitRun

end Botgeddon.Arena
