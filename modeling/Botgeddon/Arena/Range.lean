import Botgeddon.Arena.MatchClock

/-! The range of the time left.

A fight ends only on a button, never on its clock, so the referee may pause it
after its deadline; the time on record is then negative until the next staging.
Apart from such a pause the record stays between 0 and 120 seconds, and a paused
match shows digits. `Fighting` checks that there is time left before it spells
it and shows "End" otherwise; `PausedAnim` spells whatever is on record. -/
namespace Botgeddon.Arena
open Conversions Visits

/-- Between nothing and a whole match. -/
def InMatch (q : ℚ) : Prop := 0 ≤ q ∧ q ≤ 120

/-- Whatever happens, no state holds more than a match: neither the record where
a state will use it, nor the time a fight was given. -/
def AtMostMatch (q : ℚ) : LedAnimation → Prop
  | .stagingAnim _ | .preCountdownAnimation _ => q = 120
  | .xmasTree _ | .pausedAnim _ => q ≤ 120
  | .fighting a => a.endTime - a.start ≤ 120
  | .preStagingAnim _ | .endAnim _ => True

/-- The record is not overdrawn where a state will use it. -/
def NotOverdrawn (q : ℚ) : LedAnimation → Prop
  | .stagingAnim _ | .preCountdownAnimation _ | .xmasTree _ | .pausedAnim _ => 0 ≤ q
  | .preStagingAnim _ | .fighting _ | .endAnim _ => True

/-- The iteration pauses a fight at a reading past its deadline. -/
def PausesLate (it : Iteration) : LedAnimation → Prop
  | .fighting a => it.refButton = true ∧ a.endTime < pauseReading it
  | _ => False

theorem handed_le_match {q : ℚ} (h : q ≤ 120) : (truncate (q * 1000) : ℚ) / 1000 ≤ 120 := by
  rcases lt_or_ge q 0 with hneg | hnonneg
  · exact (handed_nonpos hneg).trans (by norm_num)
  · exact (handed_le hnonneg).trans h

theorem AtMostMatch.next {it : Iteration} {a b : LedAnimation} {q p : ℚ} {k : ℕ}
    (ht : Transition it a q b p k) (h : AtMostMatch q a) (hstart : ∀ j, a.start ≤ it.now j) :
    AtMostMatch p b := by
  cases ht with
  | stage => rfl
  | awaitTeams | dim | animate | count | fight | hold | resume => exact h
  | countDown a q elapsed => exact le_of_eq h
  | start a q elapsed =>
    simp only [AtMostMatch, add_sub_cancel_left]
    exact handed_le_match h
  | pause a q referee =>
    have hread : a.start ≤ pauseReading it := hstart (pauseReads it)
    have hgiven : a.endTime - a.start ≤ 120 := h
    show a.endTime - pauseReading it ≤ 120
    linarith
  | awaitReferee | abandon | tapOut | rest | restart => trivial

/-- Every transition but a late pause keeps the record from being overdrawn. -/
theorem NotOverdrawn.next {it : Iteration} {a b : LedAnimation} {q p : ℚ} {k : ℕ}
    (ht : Transition it a q b p k) (h : NotOverdrawn q a) (hintime : ¬ PausesLate it a) :
    NotOverdrawn p b := by
  cases ht with
  | stage =>
    show (0 : ℚ) ≤ 120
    norm_num
  | awaitTeams | dim | animate | countDown | count | hold | resume => exact h
  | pause a q referee =>
    have hnotlate : pauseReading it ≤ a.endTime := not_lt.mp fun hlate => hintime ⟨referee, hlate⟩
    exact sub_nonneg.mpr hnotlate
  | awaitReferee | start | fight | tapOut | abandon | rest | restart => trivial

namespace Run

/-- What the law says of iteration `n`: the record is in range before it in a
pause and in a countdown, and where it starts a fight; and in a pause that goes
on, it shows three digits. -/
structure InRange (r : Run) (n : ℕ) : Prop where
  paused : r.phase n = .Paused → InMatch (r.timeRemaining n)
  countdown : r.phase n = .Countdown → InMatch (r.timeRemaining n)
  handed : Enters r.phase n .Fighting → InMatch (r.timeRemaining n)
  digits : r.phase n = .Paused → r.phase (n + 1) = .Paused →
    ∀ i : Fin 3, IsDigit ((r.shown n).char i)

theorem atMostMatch (r : Run) (n : ℕ) : AtMostMatch (r.timeRemaining n) (r.state n).state := by
  refine r.invariant (fun _ a q => AtMostMatch q a) trivial ?_ n
  intro n a q b p k ha hb ht h
  have hstart := (r.entryTime_le n).1
  rw [entryTime, ha] at hstart
  exact h.next ht hstart

theorem notOverdrawn (r : Run) (h : ∀ n, ¬ PausesLate (r.input n) (r.state n).state) (n : ℕ) :
    NotOverdrawn (r.timeRemaining n) (r.state n).state := by
  refine r.invariant (fun _ a q => NotOverdrawn q a) trivial ?_ n
  intro n a q b p k ha hb ht hsound
  have hintime := h n
  rw [ha] at hintime
  exact hsound.next ht hintime

theorem digits_of_inMatch {r : Run} {n : ℕ} (h : r.phase n = .Paused)
    (h' : r.phase (n + 1) = .Paused) (hq : InMatch (r.timeRemaining n)) (i : Fin 3) :
    IsDigit ((r.shown n).char i) := by
  have lo : 0 ≤ ⌈r.timeRemaining n⌉ := Int.ceil_nonneg hq.1
  have hi : ⌈r.timeRemaining n⌉ ≤ 120 := Int.ceil_le.mpr (by exact_mod_cast hq.2)
  rw [shown_paused h h']
  exact (timerSegments_spells lo (by omega)).isDigit i

/-- In a pause and in a countdown the record is what counts. -/
theorem timeRemaining_of {r : Run} {n : ℕ} (h : r.phase n = .Paused ∨ r.phase n = .Countdown) :
    (AtMostMatch (r.timeRemaining n) (r.state n).state → r.timeRemaining n ≤ 120) ∧
      (NotOverdrawn (r.timeRemaining n) (r.state n).state → 0 ≤ r.timeRemaining n) := by
  rcases h with h | h
  · obtain ⟨a, ha⟩ := LedAnimation.eq_pausedAnim h
    rw [ha]
    exact ⟨id, id⟩
  · obtain ⟨a, ha⟩ := LedAnimation.eq_xmasTree h
    rw [ha]
    exact ⟨id, id⟩

theorem timeRemaining_le (r : Run) {n : ℕ} (h : r.phase n = .Paused ∨ r.phase n = .Countdown) :
    r.timeRemaining n ≤ 120 := (timeRemaining_of h).1 (r.atMostMatch n)

theorem inRange_of_notOverdrawn {r : Run} {n : ℕ}
    (hsound : NotOverdrawn (r.timeRemaining n) (r.state n).state) : r.InRange n := by
  have hrange : r.phase n = .Paused ∨ r.phase n = .Countdown → InMatch (r.timeRemaining n) :=
    fun h => ⟨(timeRemaining_of h).2 hsound, r.timeRemaining_le h⟩
  exact ⟨fun h => hrange (.inl h), fun h => hrange (.inr h),
    fun hent => hrange (.inr (enters_fighting_from hent)),
    fun h h' => digits_of_inMatch h h' (hrange (.inl h))⟩

/-- A late pause puts a negative time on record. -/
theorem pausesLate_record {r : Run} {n : ℕ} (h : PausesLate (r.input n) (r.state n).state) :
    r.phase (n + 1) = .Paused ∧ r.timeRemaining (n + 1) < 0 := by
  cases ha : (r.state n).state with
  | fighting a =>
    rw [ha] at h
    obtain ⟨href, hlate⟩ := h
    obtain ⟨a', ha', hb, hp⟩ := observe_pauses ⟨congrArg LedAnimation.arenaState ha, href⟩
    obtain rfl : a = a' := LedAnimation.fighting.inj (ha.symm.trans ha')
    exact ⟨congrArg LedAnimation.arenaState hb, by rw [hp]; exact sub_neg.mpr hlate⟩
  | _ =>
    rw [ha] at h
    exact h.elim

/-- **The time left stays in range exactly as long as no pause comes late.** -/
theorem inRange_iff (r : Run) :
    (∀ n, r.InRange n) ↔ ∀ n, ¬ PausesLate (r.input n) (r.state n).state := by
  refine ⟨fun h n hlate => ?_, fun h n => inRange_of_notOverdrawn (r.notOverdrawn h n)⟩
  obtain ⟨hphase, hneg⟩ := pausesLate_record hlate
  exact absurd ((h (n + 1)).paused hphase).1 (not_le.mpr hneg)

/-- A match that is paused when it has run for 124 seconds. -/
def overtime : Run :=
  paced (· == 2) (· == 2) (fun n => n == 0 || n == 37) (fun _ => false) fun _ => 0

theorem overtime_out_of_range :
    overtime.phase 37 = .Fighting ∧ overtime.phase 38 = .Paused ∧ overtime.timeRemaining 38 = -4 ∧
      (overtime.shown 38).segments = #v[48, 48, 44, 32] ∧ ¬ ∀ n, overtime.InRange n := by
  have hphase : overtime.phase 38 = .Paused := by decide +kernel
  have hrecord : overtime.timeRemaining 38 = -4 := by decide +kernel
  refine ⟨by decide +kernel, hphase, hrecord, by decide +kernel, fun h => ?_⟩
  have hneg := ((h 38).paused hphase).1
  rw [hrecord] at hneg
  exact absurd hneg (by norm_num)

end Run

end Botgeddon.Arena
