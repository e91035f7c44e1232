import Botgeddon.Arena.Arming
import Botgeddon.Lib.Deadline

/-! How long the machine takes.

The times of the diagram are lower bounds; that they are upper bounds as well rests on how
often the loop comes round. No button has a part in the way from the teams' consent to the
fight, so once both teams have pressed the match starts (`start_latency`). And there are
buttons that lead home from everywhere (`homing`). -/
namespace Botgeddon.Arena
open Visits Deadline

namespace Run

/-- The first clock reading of an iteration. -/
abbrev time (r : Run) (n : ℕ) : ℚ := (r.input n).now 0

theorem time_mono (r : Run) : Monotone r.time := fun _ _ h => now_mono h (Nat.le_refl 0)

/-- The machine is in state `s`, entered later than `t`. -/
def EnteredAfter (r : Run) (s : ArenaState) (t : ℚ) (n : ℕ) : Prop := r.phase n = s ∧ t < r.entryTime n

/-- Both teams' presses are on record after iteration `n`'s latches, the later one at `t`. -/
def Consented (r : Run) (t : ℚ) (n : ℕ) : Prop :=
  ∃ a, (r.state n).state = .stagingAnim a ∧ t ≤ r.time n ∧
    max (a.latch ((r.input n).now 0) (r.input n).redButton (r.input n).blueButton).redStart
      (a.latch ((r.input n).now 0) (r.input n).redButton (r.input n).blueButton).blueStart = t

variable {r : Run} {gap : ℚ} {horizon : ℕ} {W : ℕ → Prop}

/-! ### One iteration -/

/-- What is latched no later than now stays latched. -/
theorem latch_latched {a : StagingAnim} {now : ℚ} (red blue : Bool) (hred : a.redStart ≤ now)
    (hblue : a.blueStart ≤ now) : a.latch now red blue = a := by
  have hnotred : ¬ (now < a.redStart ∧ red = true) := fun h => not_lt.mpr hred h.1
  have hnotblue : ¬ (now < a.blueStart ∧ blue = true) := fun h => not_lt.mpr hblue h.1
  simp only [StagingAnim.latch, hnotred, hnotblue, if_false]

theorem consented_step {t : ℚ} {n : ℕ} (h : r.Consented t n) :
    (r.Consented t (n + 1) ∧ r.time n ≤ t + 7 / 2) ∨ r.EnteredAfter .PreCountdown (t + 7 / 2) (n + 1) := by
  obtain ⟨a, ha, ht, hlast⟩ := h
  obtain ⟨a', q, b, p, k, ha', -, hb, -, -, htrans⟩ := r.observe n
  rw [ha'] at ha
  subst ha
  have hred : (a.latch ((r.input n).now 0) (r.input n).redButton (r.input n).blueButton).redStart ≤ t := hlast ▸ le_max_left _ _
  have hblue : (a.latch ((r.input n).now 0) (r.input n).redButton (r.input n).blueButton).blueStart ≤ t :=
    hlast ▸ le_max_right _ _
  have hnext : r.time n ≤ r.time (n + 1) := r.time_mono (Nat.le_succ n)
  cases htrans with
  | awaitTeams a q waits =>
    refine .inl ⟨⟨_, hb, ht.trans hnext, ?_⟩, ?_⟩
    · rw [latch_latched _ _ ((hred.trans ht).trans hnext) ((hblue.trans ht).trans hnext)]
      exact hlast
    · by_contra hlate
      have hread1 : r.time n ≤ (r.input n).now 1 := r.ordered n (by decide)
      have hread2 : r.time n ≤ (r.input n).now 2 := r.ordered n (by decide)
      simp only [Arithmetic.exact_seconds] at waits
      exact waits ⟨by linarith, by linarith⟩
  | dim a q red blue =>
    refine .inr ⟨congrArg LedAnimation.arenaState hb, ?_⟩
    have hbuilt : r.entryTime (n + 1) = (r.input n).now 3 := congrArg LedAnimation.start hb
    have hread1 : (r.input n).now 1 ≤ (r.input n).now 3 := r.ordered n (by decide)
    have hread2 : (r.input n).now 2 ≤ (r.input n).now 3 := r.ordered n (by decide)
    rw [Arithmetic.exact_seconds] at red blue
    rw [hbuilt]
    rcases max_choice (a.latch ((r.input n).now 0) (r.input n).redButton (r.input n).blueButton).redStart
      (a.latch ((r.input n).now 0) (r.input n).redButton (r.input n).blueButton).blueStart with hmax | hmax
    · rw [hlast] at hmax
      rw [← hmax] at red
      linarith
    · rw [hlast] at hmax
      rw [← hmax] at blue
      linarith

/-- The states that run by themselves for some time, and what they lead to. -/
inductive RunsFor : ArenaState → ℚ → ArenaState → Prop where
  | dimmed : RunsFor .PreCountdown 7 .Countdown
  | counted : RunsFor .Countdown 3 .Fighting

/-- They go on as they are, or lead on at a reading taken when their time was over. -/
theorem transition_runs {it : Iteration} {a b : LedAnimation} {q p : ℚ} {k : ℕ} (ht : Transition it a q b p k)
    {s s' : ArenaState} {d : ℚ} (h : RunsFor s d s') (ha : a.arenaState = s) :
    (b = a ∧ it.now 0 ≤ a.start + d) ∨
      (b.arenaState = s' ∧ b.start = it.now 1 ∧ a.start + d < it.now 0) := by
  cases h with
  | dimmed =>
    cases ht with
    | animate a q early =>
      rw [Arithmetic.exact_seconds] at early
      simp only [LedAnimation.start]
      exact .inl ⟨trivial, by linarith⟩
    | countDown a q elapsed =>
      rw [Arithmetic.exact_seconds] at elapsed
      simp only [LedAnimation.start]
      exact .inr ⟨rfl, trivial, by linarith⟩
    | _ => cases ha
  | counted =>
    cases ht with
    | count a q early =>
      rw [Arithmetic.exact_seconds] at early
      simp only [LedAnimation.start]
      exact .inl ⟨trivial, by linarith⟩
    | start a q elapsed =>
      rw [Arithmetic.exact_seconds] at elapsed
      simp only [LedAnimation.start]
      exact .inr ⟨rfl, trivial, by linarith⟩
    | _ => cases ha

theorem runs_step {s s' : ArenaState} {d t : ℚ} (hruns : RunsFor s d s') {n : ℕ} (h : r.EnteredAfter s t n) :
    (r.EnteredAfter s t (n + 1) ∧ r.entryTime (n + 1) = r.entryTime n ∧ r.time n ≤ r.entryTime n + d) ∨
      r.EnteredAfter s' (t + d) (n + 1) := by
  obtain ⟨hphase, hentry⟩ := h
  rcases transition_runs (step_transition (r.input n) (r.state n)) hruns hphase with
    ⟨hsame, hearly⟩ | ⟨hto, hbuilt, hlate⟩
  · have hkept : r.entryTime (n + 1) = r.entryTime n := congrArg LedAnimation.start hsame
    have hstays : r.phase (n + 1) = s := (congrArg LedAnimation.arenaState hsame).trans hphase
    exact .inl ⟨⟨hstays, by rwa [hkept]⟩, hkept, hearly⟩
  · have hnext : r.entryTime (n + 1) = (r.input n).now 1 := hbuilt
    have hread : (r.input n).now 0 ≤ (r.input n).now 1 := r.ordered n (by decide)
    have hpast : r.entryTime n + d < (r.input n).now 0 := hlate
    exact .inr ⟨hto, by rw [hnext]; linarith⟩

/-! ### From consent to the fight -/

theorem consented_leads (hpaced : Paced r.time gap horizon) (t : ℚ) (hW : ∀ n, r.Consented t n → W n) :
    LeadsTo r.time horizon W (7 / 2 + 2 * gap) (r.Consented t) (r.EnteredAfter .PreCountdown (t + 7 / 2)) := by
  refine LeadsTo.deadline hpaced (fun _ => t + 7 / 2) (by norm_num) hW ?_ ?_ ?_
  · rintro n ⟨a, -, ht, -⟩
    linarith
  · exact fun n _ h => (consented_step h).imp_left fun hstays => ⟨hstays.1, rfl⟩
  · intro n _ h hlate
    rcases consented_step h with ⟨-, hearly⟩ | hnext
    · exact absurd hlate (not_lt.mpr hearly)
    · exact hnext

theorem runs_leads (hpaced : Paced r.time gap horizon) {s s' : ArenaState} {d : ℚ} (hruns : RunsFor s d s') (t : ℚ)
    (hW : ∀ n, r.EnteredAfter s t n → W n) :
    LeadsTo r.time horizon W (d + 2 * gap) (r.EnteredAfter s t) (r.EnteredAfter s' (t + d)) := by
  have hd : 0 ≤ d := by cases hruns <;> norm_num
  refine LeadsTo.deadline hpaced (fun n => r.entryTime n + d) hd hW ?_ ?_ ?_
  · intro n _
    have hbefore := (r.entryTime_le n).1 0
    linarith
  · refine fun n _ h => (runs_step hruns h).imp_left fun hstays => ⟨hstays.1, ?_⟩
    rw [hstays.2.1]
  · intro n _ h hlate
    rcases runs_step hruns h with ⟨-, -, hearly⟩ | hnext
    · exact absurd hlate (not_lt.mpr hearly)
    · exact hnext

/-- From the later press to the fight: what the states take, and two rounds for each. -/
theorem fight_leads (hpaced : Paced r.time gap horizon) (t : ℚ)
    (hW : ∀ n, r.phase n = .Staging ∨ r.phase n = .PreCountdown ∨ r.phase n = .Countdown → W n) :
    LeadsTo r.time horizon W (27 / 2 + 6 * gap) (r.Consented t) (r.EnteredAfter .Fighting (t + 27 / 2)) := by
  have hgap := hpaced.gap_nonneg
  have hstaging : ∀ n, r.Consented t n → W n := fun n ⟨a, ha, _⟩ =>
    hW n (.inl (congrArg LedAnimation.arenaState ha))
  have hdim := consented_leads hpaced t hstaging
  have hrun := runs_leads hpaced .dimmed (t + 7 / 2) fun n h => hW n (.inr (.inl h.1))
  have hcount := runs_leads hpaced .counted (t + 7 / 2 + 7) fun n h => hW n (.inr (.inr h.1))
  have hall := (hdim.trans hrun (by linarith)).trans hcount (by linarith)
  have htotal : t + 7 / 2 + 7 + 3 = t + 27 / 2 := by ring
  rw [htotal] at hall
  exact hall.mono (by linarith)

/-! ### Presses and latches -/

/-- A latch is not later than any press of its visit. -/
def Stamped (r : Run) (n : ℕ) : LedAnimation → Prop
  | .stagingAnim a => ∀ m, m < n → Stays r.phase m n →
      ((r.input m).redButton = true → a.redStart ≤ r.time m) ∧
        ((r.input m).blueButton = true → a.blueStart ≤ r.time m)
  | _ => True

/-- What a latch does to a time. -/
theorem latch_le {t now : ℚ} {pressed : Bool} :
    (if now < t ∧ pressed = true then now else t) ≤ t ∧
      (pressed = true → (if now < t ∧ pressed = true then now else t) ≤ now) := by
  split
  case isTrue h => exact ⟨h.1.le, fun _ => le_rfl⟩
  case isFalse h =>
    refine ⟨le_rfl, fun hpressed => ?_⟩
    by_contra hlate
    exact h ⟨not_le.mp hlate, hpressed⟩

theorem stamped (r : Run) (n : ℕ) : r.Stamped n (r.state n).state := by
  refine r.invariant (fun n a _ => r.Stamped n a) trivial ?_ n
  intro n a q b p k ha hb ht ih
  have hfrom : r.phase n = a.arenaState := congrArg LedAnimation.arenaState ha
  have hto : r.phase (n + 1) = b.arenaState := congrArg LedAnimation.arenaState hb
  cases ht with
  | awaitTeams a q waits =>
    intro m hm hstays
    rw [StagingAnim.latch_redStart, StagingAnim.latch_blueStart]
    rcases Nat.lt_succ_iff_lt_or_eq.mp hm with hlt | rfl
    · obtain ⟨hred, hblue⟩ := ih m hlt (hstays.upTo (by omega) (Nat.le_succ n))
      exact ⟨fun h => latch_le.1.trans (hred h), fun h => latch_le.1.trans (hblue h)⟩
    · exact ⟨latch_le.2, latch_le.2⟩
  | stage a q pressed =>
    intro m hm hstays
    have hsame := hstays n (by omega) (Nat.le_succ n)
    rw [hfrom, hto] at hsame
    cases hsame
  | _ => trivial

/-- Iteration `n` of a staging reads the press that makes the teams ready. -/
structure Readies (r : Run) (n : ℕ) : Prop where
  staging : r.phase n = .Staging
  red : Within r.phase (fun m => (r.input m).redButton = true) n
  blue : Within r.phase (fun m => (r.input m).blueButton = true) n
  last : ¬ (During r.phase (fun m => (r.input m).redButton = true) n ∧
    During r.phase (fun m => (r.input m).blueButton = true) n)

/-- What a button pressed in a staging leaves in its latch. -/
theorem latched_of_within {button : Iteration → Bool} {t : ℚ} {n : ℕ} (hnow : r.time n < timePointMax)
    (hlatched : r.Latched button t n)
    (hstamped : ∀ m, m < n → Stays r.phase m n → button (r.input m) = true → t ≤ r.time m)
    (hpressed : Within r.phase (fun m => button (r.input m) = true) n) :
    (if r.time n < t ∧ button (r.input n) = true then r.time n else t) ≤ r.time n ∧
      (¬ During r.phase (fun m => button (r.input m) = true) n →
        (if r.time n < t ∧ button (r.input n) = true then r.time n else t) = r.time n) := by
  obtain ⟨m, hm, hstays, hbutton⟩ := hpressed
  rcases Nat.lt_or_eq_of_le hm with hlt | rfl
  · refine ⟨latch_le.1.trans ((hstamped m hlt hstays hbutton).trans (r.time_mono hm)), fun hnone => ?_⟩
    exact absurd ⟨m, hlt, hstays, hbutton⟩ hnone
  · refine ⟨latch_le.2 hbutton, fun hnone => ?_⟩
    have hsentinel : t = timePointMax := by
      rcases hlatched with hmax | ⟨m', hm', hstays', hpress, -⟩
      · exact hmax
      · exact absurd ⟨m', hm', hstays', hpress⟩ hnone
    rw [if_pos ⟨by rw [hsentinel]; exact hnow, hbutton⟩]

/-- The latches of a staging, after the iteration that reads the teams ready. -/
theorem Readies.consented {n : ℕ} (h : r.Readies n) (hnow : r.time n < timePointMax) : r.Consented (r.time n) n := by
  have hmem := r.remembers n
  have hstamped := r.stamped n
  cases ha : (r.state n).state with
  | stagingAnim a =>
    rw [ha] at hmem hstamped
    obtain ⟨hred, hredNew⟩ := latched_of_within hnow hmem.1 (fun m hm hs => (hstamped m hm hs).1) h.red
    obtain ⟨hblue, hblueNew⟩ := latched_of_within hnow hmem.2 (fun m hm hs => (hstamped m hm hs).2) h.blue
    refine ⟨a, ha, le_rfl, ?_⟩
    rw [StagingAnim.latch_redStart, StagingAnim.latch_blueStart]
    rcases not_and_or.mp h.last with hnone | hnone
    · have heq := hredNew hnone
      exact le_antisymm (max_le hred hblue) (le_max_of_le_left heq.ge)
    · have heq := hblueNew hnone
      exact le_antisymm (max_le hred hblue) (le_max_of_le_right heq.ge)
  | _ =>
    have hphase := h.staging
    rw [phase, ha] at hphase
    cases hphase

/-- **The match starts** after 13.5 seconds. From the iteration that reads the second team's
press, whatever buttons are pressed afterwards, the machine goes through the dimmed
lights and the countdown and into the fight, which begins more than 13.5 seconds after
the press and at most six rounds later than that. -/
theorem start_latency {n N : ℕ} (hpaced : Paced r.time gap N) (hnN : n ≤ N) (h : r.Readies n)
    (hlate : r.time n + (27 / 2 + 6 * gap) < r.time N) :
    ∃ k, n ≤ k ∧ k < N ∧ Enters r.phase k .Fighting ∧
      r.time n + 27 / 2 < r.entryTime (k + 1) ∧ r.entryTime (k + 1) ≤ r.time n + 27 / 2 + 6 * gap ∧
      ∀ j, n ≤ j → j ≤ k → r.phase j = .Staging ∨ r.phase j = .PreCountdown ∨ r.phase j = .Countdown := by
  have hgap := hpaced.gap_nonneg
  have hmax := r.representable N 0
  have hconsented := h.consented (by linarith)
  obtain ⟨m, hnm, hmN, ⟨hphase, hentry⟩, htime, hbefore⟩ :=
    fight_leads hpaced (r.time n) (fun _ hj => hj) n N hnN le_rfl hconsented hlate
  have hne : n ≠ m := by
    rintro rfl
    exact absurd (h.staging.symm.trans hphase) (by decide)
  obtain ⟨k, rfl⟩ : ∃ k, m = k + 1 := ⟨m - 1, by omega⟩
  refine ⟨k, by omega, by omega, ⟨fun hfight => ?_, hphase⟩, hentry, ?_, fun j hj hjk => hbefore j hj (by omega)⟩
  · rcases hbefore k (by omega) (Nat.lt_succ_self k) with hk | hk | hk
    all_goals exact absurd (hfight.symm.trans hk) (by decide)
  · have hbuilt := (r.entryTime_le (k + 1)).1 0
    linarith

theorem paced_paced (red blue ref reset : ℕ → Bool) (remTime : ℕ → ℤ) (N : ℕ) :
    Paced (paced red blue ref reset remTime).time 4 N where
  mono := time_mono _
  gap_nonneg := by norm_num
  within n _ := by
    show 4 * ((min (n + 1) 100000 : ℕ) : ℚ) ≤ 4 * ((min n 100000 : ℕ) : ℚ) + 4
    have h : min (n + 1) 100000 ≤ min n 100000 + 1 := by omega
    have hq : ((min (n + 1) 100000 : ℕ) : ℚ) ≤ (min n 100000 : ℕ) + 1 := by exact_mod_cast h
    linarith

/-- Ready at 8 s, with four seconds a round. -/
theorem start_latency_interrupted :
    ∃ k, 2 ≤ k ∧ k < 12 ∧ Enters interrupted.phase k .Fighting ∧
      interrupted.time 2 + 27 / 2 < interrupted.entryTime (k + 1) ∧
      interrupted.entryTime (k + 1) ≤ interrupted.time 2 + 27 / 2 + 6 * 4 ∧
      ∀ j, 2 ≤ j → j ≤ k →
        interrupted.phase j = .Staging ∨ interrupted.phase j = .PreCountdown ∨ interrupted.phase j = .Countdown := by
  have hnone : ∀ m < 2, (interrupted.input m).redButton = false := by decide
  have hready : interrupted.Readies 2 := by
    refine ⟨by decide +kernel, Within.now rfl, Within.now rfl, ?_⟩
    rintro ⟨⟨m, hm, -, hpressed⟩, -⟩
    rw [hnone m hm] at hpressed
    cases hpressed
  exact start_latency (paced_paced _ _ _ _ _ 12) (by decide) hready (by decide +kernel)

/-! ### The way home -/

/-- The machine waits for the referee, with no press on record. -/
def Waiting (r : Run) (n : ℕ) : Prop :=
  ∃ a, (r.state n).state = .preStagingAnim a ∧ a.startingTime = timePointMax

/-- The referee has pressed at `t`. -/
def Called (r : Run) (t : ℚ) (n : ℕ) : Prop :=
  ∃ a, (r.state n).state = .preStagingAnim a ∧ a.startingTime = t ∧ t ≤ r.time n

/-- Every button is pressed but the referee's. -/
structure HandsOn (it : Iteration) : Prop where
  red : it.redButton = true
  blue : it.blueButton = true
  reset : it.resetButton = true
  referee : it.refButton = false

/-- They are held until iteration `N`. -/
def Held (r : Run) (N n : ℕ) : Prop := ∀ k, n ≤ k → k < N → HandsOn (r.input k)

theorem Held.succ {N n : ℕ} (h : r.Held N n) : r.Held N (n + 1) := fun k hk hkN => h k (by omega) hkN

/-- Nobody calls, and no time on record passes. -/
theorem waiting_succ {n : ℕ} (h : r.Waiting n) (hon : HandsOn (r.input n)) : r.Waiting (n + 1) := by
  obtain ⟨x, hx, hsentinel⟩ := h
  obtain ⟨a, q, b, p, k, ha, -, hb, -, -, ht⟩ := r.observe n
  rw [ha] at hx
  subst hx
  have hlatch : (x.latch ((r.input n).now 0) (r.input n).refButton).startingTime = timePointMax := by
    rw [PreStagingAnim.latch_startingTime, hon.referee]
    simpa using hsentinel
  cases ht with
  | awaitReferee x q waits => exact ⟨_, hb, hlatch⟩
  | stage x q pressed =>
    have hmax := r.representable n 1
    rw [hlatch, Arithmetic.exact_seconds] at pressed
    linarith

theorem called_step {t : ℚ} {n : ℕ} (h : r.Called t n) :
    (r.Called t (n + 1) ∧ r.time n ≤ t + 3 / 2) ∨ r.phase (n + 1) = .Staging := by
  obtain ⟨x, hx, hcall, htime⟩ := h
  obtain ⟨a, q, b, p, k, ha, -, hb, -, -, ht⟩ := r.observe n
  rw [ha] at hx
  subst hx
  have hlatch : (x.latch ((r.input n).now 0) (r.input n).refButton).startingTime = t := by
    rw [PreStagingAnim.latch_startingTime, hcall, if_neg fun h => not_lt.mpr htime h.1]
  cases ht with
  | awaitReferee x q waits =>
    refine .inl ⟨⟨_, hb, hlatch, htime.trans (r.time_mono (Nat.le_succ n))⟩, ?_⟩
    have hread : r.time n ≤ (r.input n).now 1 := r.ordered n (by decide)
    rw [hlatch, Arithmetic.exact_seconds] at waits
    linarith
  | stage x q pressed => exact .inr (congrArg LedAnimation.arenaState hb)

/-- A press of the referee's leads to the staging. -/
theorem called_leads (hpaced : Paced r.time gap horizon) (t : ℚ) (hW : ∀ n, r.Called t n → W n) :
    LeadsTo r.time horizon W (3 / 2 + 2 * gap) (r.Called t) fun n => r.phase n = .Staging := by
  refine LeadsTo.deadline hpaced (fun _ => t + 3 / 2) (by norm_num) hW ?_ ?_ ?_
  · rintro n ⟨a, -, -, htime⟩
    linarith
  · exact fun n _ h => (called_step h).imp_left fun hstays => ⟨hstays.1, rfl⟩
  · intro n _ h hlate
    rcases called_step h with ⟨-, hearly⟩ | hnext
    · exact absurd hlate (not_lt.mpr hearly)
    · exact hnext

/-- Both teams' buttons pressed in a staging are consent. -/
theorem consented_of_handsOn {n : ℕ} (h : r.phase n = .Staging) (hon : HandsOn (r.input n)) : ∃ t, r.Consented t n := by
  cases ha : (r.state n).state with
  | stagingAnim a =>
    refine ⟨_, a, ha, ?_, rfl⟩
    rw [StagingAnim.latch_redStart, StagingAnim.latch_blueStart]
    exact max_le (latch_le.2 hon.red) (latch_le.2 hon.blue)
  | _ =>
    rw [phase, ha] at h
    cases h

theorem handsOn_fighting {n : ℕ} (h : r.phase n = .Fighting) (hon : HandsOn (r.input n)) : r.phase (n + 1) = .End := by
  obtain ⟨a, q, b, p, k, ha, -, hb, -, -, ht⟩ := r.observe n
  have hfrom : a.arenaState = .Fighting := by rw [← ha]; exact h
  cases ht with
  | tapOut => exact congrArg LedAnimation.arenaState hb
  | fight a q red blue referee => exact absurd (hon.red.symm.trans red) (by decide)
  | pause a q referee => exact absurd (hon.referee.symm.trans referee) (by decide)
  | _ => cases hfrom

/-- The reset button clears an end or a pause. -/
theorem handsOn_reset {n : ℕ} (h : r.phase n = .End ∨ r.phase n = .Paused) (hon : HandsOn (r.input n)) :
    r.Waiting (n + 1) := by
  obtain ⟨a, q, b, p, k, ha, -, hb, -, -, ht⟩ := r.observe n
  have hfrom : a.arenaState = .End ∨ a.arenaState = .Paused := by rw [← ha]; exact h
  cases ht with
  | restart | abandon => exact ⟨_, hb, rfl⟩
  | rest a q kept => exact absurd (hon.reset.symm.trans kept) (by decide)
  | resume a q referee released kept => exact absurd (hon.reset.symm.trans kept) (by decide)
  | hold a q held kept => exact absurd (hon.referee.symm.trans (kept hon.reset).1) (by decide)
  | _ => simp [LedAnimation.arenaState] at hfrom

section Home

variable {N : ℕ} (hpaced : Paced r.time gap N)

/-- `P` and the buttons held leads to `Q` and the buttons held. -/
abbrev HeldLeads (r : Run) (N : ℕ) (delay : ℚ) (P Q : ℕ → Prop) : Prop :=
  LeadsTo r.time N (fun _ => True) delay (fun n => P n ∧ r.Held N n) (fun n => Q n ∧ r.Held N n)

/-- Who holds the buttons keeps holding them. -/
theorem held_leads {delay : ℚ} {P Q : ℕ → Prop} (h : LeadsTo r.time N (fun _ => True) delay P Q) :
    r.HeldLeads N delay P Q := h.and_stable fun _ hheld => hheld.succ

include hpaced

theorem home_of_end : r.HeldLeads N gap (fun n => r.phase n = .End ∨ r.phase n = .Paused) r.Waiting :=
  LeadsTo.next hpaced (fun _ _ => trivial) fun n hn h => ⟨handsOn_reset h.1 (h.2 n le_rfl hn), h.2.succ⟩

theorem home_of_fighting (t : ℚ) : r.HeldLeads N (2 * gap) (r.EnteredAfter .Fighting t) r.Waiting := by
  have hfight : r.HeldLeads N gap (r.EnteredAfter .Fighting t) fun n => r.phase n = .End ∨ r.phase n = .Paused :=
    LeadsTo.next hpaced (fun _ _ => trivial) fun n hn h =>
      ⟨.inl (handsOn_fighting h.1.1 (h.2 n le_rfl hn)), h.2.succ⟩
  exact (hfight.trans (home_of_end hpaced) hpaced.gap_nonneg).mono (by linarith)

theorem home_of_countdown (t : ℚ) : r.HeldLeads N (3 + 4 * gap) (r.EnteredAfter .Countdown t) r.Waiting := by
  have hgap := hpaced.gap_nonneg
  have hcount := held_leads (runs_leads hpaced .counted t fun _ _ => trivial)
  exact (hcount.trans (home_of_fighting hpaced _) (by linarith)).mono (by linarith)

theorem home_of_preCountdown (t : ℚ) : r.HeldLeads N (10 + 6 * gap) (r.EnteredAfter .PreCountdown t) r.Waiting := by
  have hgap := hpaced.gap_nonneg
  have hdim := held_leads (runs_leads hpaced .dimmed t fun _ _ => trivial)
  exact (hdim.trans (home_of_countdown hpaced _) (by linarith)).mono (by linarith)

theorem home_of_staging : r.HeldLeads N (27 / 2 + 8 * gap) (fun n => r.phase n = .Staging) r.Waiting := by
  have hgap := hpaced.gap_nonneg
  intro n M hnM hMN h hlate
  have hlt : n < N := by
    refine (lt_of_le_of_ne hnM ?_).trans_le hMN
    rintro rfl
    linarith
  obtain ⟨t, hconsented⟩ := consented_of_handsOn h.1 (h.2 n le_rfl hlt)
  have hfight := held_leads (fight_leads hpaced t fun _ _ => trivial)
  have hhome := (hfight.trans (home_of_fighting hpaced _) (by linarith)).mono
    (show 27 / 2 + 6 * gap + 2 * gap ≤ 27 / 2 + 8 * gap by linarith)
  exact hhome n M hnM hMN ⟨hconsented, h.2⟩ hlate

theorem home_of_called (t : ℚ) : r.HeldLeads N (15 + 10 * gap) (r.Called t) r.Waiting := by
  have hgap := hpaced.gap_nonneg
  have hcalled := held_leads (called_leads hpaced t fun _ _ => trivial)
  exact (hcalled.trans (home_of_staging hpaced) (by linarith)).mono (by linarith)

/-- From wherever the machine is. -/
theorem home : r.HeldLeads N (15 + 10 * gap) (fun _ => True) r.Waiting := by
  have hgap := hpaced.gap_nonneg
  intro n M hnM hMN ⟨_, hheld⟩ hlate
  have hentered : r.EnteredAfter (r.phase n) (r.entryTime n - 1) n := ⟨rfl, by linarith⟩
  have hmem := r.remembers n
  cases ha : (r.state n).state with
  | preStagingAnim a =>
    rw [ha] at hmem
    rcases hmem with hsentinel | ⟨m, hm, -, -, hcall⟩
    · exact ⟨n, le_rfl, hnM, ⟨⟨a, ha, hsentinel⟩, hheld⟩, by linarith, fun _ _ _ => trivial⟩
    · exact home_of_called hpaced _ n M hnM hMN ⟨⟨a, ha, hcall, r.time_mono hm.le⟩, hheld⟩ hlate
  | stagingAnim a =>
    have hphase : r.phase n = .Staging := congrArg LedAnimation.arenaState ha
    exact ((home_of_staging hpaced).mono (by linarith)) n M hnM hMN ⟨hphase, hheld⟩ hlate
  | preCountdownAnimation a =>
    have hphase : r.phase n = .PreCountdown := congrArg LedAnimation.arenaState ha
    rw [hphase] at hentered
    exact ((home_of_preCountdown hpaced _).mono (by linarith)) n M hnM hMN ⟨hentered, hheld⟩ hlate
  | xmasTree a =>
    have hphase : r.phase n = .Countdown := congrArg LedAnimation.arenaState ha
    rw [hphase] at hentered
    exact ((home_of_countdown hpaced _).mono (by linarith)) n M hnM hMN ⟨hentered, hheld⟩ hlate
  | fighting a =>
    have hphase : r.phase n = .Fighting := congrArg LedAnimation.arenaState ha
    rw [hphase] at hentered
    exact ((home_of_fighting hpaced _).mono (by linarith)) n M hnM hMN ⟨hentered, hheld⟩ hlate
  | pausedAnim a =>
    have hphase : r.phase n = .Paused := congrArg LedAnimation.arenaState ha
    exact ((home_of_end hpaced).mono (by linarith)) n M hnM hMN ⟨.inr hphase, hheld⟩ hlate
  | endAnim a =>
    have hphase : r.phase n = .End := congrArg LedAnimation.arenaState ha
    exact ((home_of_end hpaced).mono (by linarith)) n M hnM hMN ⟨.inl hphase, hheld⟩ hlate

end Home

/-- **The way home.** Whatever state the machine is in, the teams' and the reset button
held for 15 seconds and ten rounds, with the referee's released, bring it back to where
it waits for the referee, and keep it there. -/
theorem homing {n N : ℕ} (hpaced : Paced r.time gap N) (hnN : n ≤ N) (hheld : r.Held N n)
    (hlate : r.time n + (15 + 10 * gap) < r.time N) : r.Waiting N := by
  obtain ⟨k, hnk, hkN, ⟨hwaiting, hon⟩, -, -⟩ := home hpaced n N hnN le_rfl ⟨trivial, hheld⟩ hlate
  have hstays : ∀ m, k ≤ m → m ≤ N → r.Waiting m := by
    intro m hm
    induction m, hm using Nat.le_induction with
    | base => exact fun _ => hwaiting
    | succ m hm ih => exact fun hmN => waiting_succ (ih (by omega)) (hon m hm (by omega))
  exact hstays N hkN le_rfl

/-- From a staging, the hands on the buttons from 8 s on. -/
theorem homing_staged :
    (paced (2 ≤ ·) (2 ≤ ·) (· == 0) (2 ≤ ·) fun _ => 0).phase 2 = .Staging ∧
      (paced (2 ≤ ·) (2 ≤ ·) (· == 0) (2 ≤ ·) fun _ => 0).Waiting 17 := by
  refine ⟨by decide +kernel, homing (n := 2) (paced_paced _ _ _ _ _ 17) (by decide) (fun k hk hk' => ?_) (by decide +kernel)⟩
  have hpressed : decide (2 ≤ k) = true := decide_eq_true hk
  have hreleased : (k == 0) = false := beq_false_of_ne (by omega)
  exact ⟨hpressed, hpressed, hpressed, hreleased⟩

end Run

end Botgeddon.Arena
