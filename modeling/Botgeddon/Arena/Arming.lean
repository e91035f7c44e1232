import Botgeddon.Arena.Transition

/-! Arming: how the machine gets to `Fighting`.

The latched press times and the pause release are facts about the past of the
visit they were latched in (`Remembers`). With the guards of the transition
diagram they give the order and the spacing of the states before a fight. -/
namespace Botgeddon.Arena
open Visits

namespace Run

section Memory

variable [Arithmetic]

/-- Iteration `m` read the button pressed, and took its first reading at `t`. -/
def PressedAt (r : Run) (button : Iteration → Bool) (t : ℚ) (m : ℕ) : Prop :=
  button (r.input m) = true ∧ t = (r.input m).now 0

/-- A latched press time is the sentinel or a press of this visit. -/
def Latched (r : Run) (button : Iteration → Bool) (t : ℚ) (n : ℕ) : Prop :=
  t = timePointMax ∨ During r.phase (r.PressedAt button t) n

/-- What the members of the object owned before iteration `n` say about the past. -/
def Remembers (r : Run) (n : ℕ) : LedAnimation → Prop
  | .preStagingAnim a => r.Latched (·.refButton) a.startingTime n
  | .stagingAnim a => r.Latched (·.redButton) a.redStart n ∧ r.Latched (·.blueButton) a.blueStart n
  | .pausedAnim a =>
    a.releasedPause = true → During r.phase (fun m => (r.input m).refButton = false) n
  | _ => True

/-- The latch all press times go through. -/
theorem latched_within {r : Run} {button : Iteration → Bool} {t : ℚ} {n : ℕ}
    (h : r.Latched button t n) :
    let t' := if (r.input n).now 0 < t ∧ button (r.input n) = true then (r.input n).now 0 else t
    t' = timePointMax ∨ Within r.phase (r.PressedAt button t') n := by
  split
  case isTrue hp => exact .inr (Within.now ⟨hp.2, rfl⟩)
  case isFalse => exact h.imp_right During.within

end Memory

end Run

@[simp] theorem PreStagingAnim.latch_startingTime (a : PreStagingAnim) (now : ℚ) (ref : Bool) :
    (a.latch now ref).startingTime = if now < a.startingTime ∧ ref = true then now else a.startingTime := by
  unfold PreStagingAnim.latch
  split <;> rfl

@[simp] theorem StagingAnim.latch_redStart (a : StagingAnim) (now : ℚ) (red blue : Bool) :
    (a.latch now red blue).redStart = if now < a.redStart ∧ red = true then now else a.redStart := by
  simp only [StagingAnim.latch]
  split <;> split <;> rfl

@[simp] theorem StagingAnim.latch_blueStart (a : StagingAnim) (now : ℚ) (red blue : Bool) :
    (a.latch now red blue).blueStart = if now < a.blueStart ∧ blue = true then now else a.blueStart := by
  simp only [StagingAnim.latch]
  split <;> split <;> simp_all

namespace Run

section Memory

variable [Arithmetic]

/-- A latch that survives the iteration is in the past of the next one. -/
theorem Latched.next {r : Run} {button : Iteration → Bool} {t : ℚ} {n : ℕ}
    (h : r.Latched button t n) (hkind : r.phase (n + 1) = r.phase n) :
    r.Latched button
      (if (r.input n).now 0 < t ∧ button (r.input n) = true then (r.input n).now 0 else t) (n + 1) :=
  (latched_within h).imp_right fun hw => hw.succ hkind

theorem remembers (r : Run) (n : ℕ) : r.Remembers n (r.state n).state := by
  refine r.invariant (fun n a _ => r.Remembers n a) (.inl rfl) ?_ n
  intro n a q b p k ha hb ht ih
  have hkind : b.arenaState = a.arenaState → r.phase (n + 1) = r.phase n := by
    intro h
    rw [← ha, ← hb] at h
    exact h
  cases ht with
  | awaitReferee a q waits =>
    simp only [Remembers, PreStagingAnim.latch_startingTime]
    exact Latched.next ih (hkind rfl)
  | awaitTeams a q waits =>
    simp only [Remembers, StagingAnim.latch_redStart, StagingAnim.latch_blueStart]
    exact ⟨Latched.next ih.1 (hkind rfl), Latched.next ih.2 (hkind rfl)⟩
  | stage => exact ⟨.inl rfl, .inl rfl⟩
  | abandon | restart => exact .inl rfl
  | pause =>
    intro hrel
    cases hrel
  | hold a q held kept =>
    intro hrel
    by_cases href : (r.input n).refButton = true
    · simp only [href, if_true] at hrel
      exact (ih hrel).within.succ (hkind rfl)
    · exact (Within.now (by simpa using href)).succ (hkind rfl)
  | _ => trivial

/-- A countdown comes after the dimmed lights, or from a pause whose press the referee
let go before. -/
theorem enters_countdown_from {r : Run} {n : ℕ} (h : Enters r.phase n .Countdown) :
    r.phase n = .PreCountdown ∨ (r.phase n = .Paused ∧ (r.input n).refButton = true ∧
      During r.phase (fun m => (r.input m).refButton = false) n) := by
  have hmem := r.remembers n
  obtain ⟨a, q, b, p, k, ha, -, -, -, hfrom, hto, ht⟩ := observe_entry h
  rw [ha] at hmem
  have hphase : r.phase n = _ := congrArg LedAnimation.arenaState ha
  cases ht with
  | countDown => exact .inl hphase
  | resume a q referee released kept => exact .inr ⟨hphase, referee, hmem released⟩
  | count => exact absurd rfl hfrom
  | _ => cases hto

end Memory

/-! ### Entering a state -/

/-- Iteration `n` comes more than `secs` seconds after the visit it is in, to
state `k`, was entered: from the construction of that visit's object to the
construction of the next. -/
def EnteredBefore (r : Run) (k : ArenaState) (secs : ℚ) (n : ℕ) : Prop :=
  r.phase n = k ∧ ∃ m, m < n ∧ Enters r.phase m k ∧ Stays r.phase (m + 1) n ∧
    secs < r.entryTime (n + 1) - r.entryTime (m + 1)

/-- The visit iteration `n` is in has read the button pressed, more than `secs`
seconds before the next object is built. -/
def PressedBefore (r : Run) (button : Iteration → Bool) (secs : ℚ) (n : ℕ) : Prop :=
  Within r.phase (fun m => button (r.input m) = true ∧
    secs < r.entryTime (n + 1) - (r.input m).now 0) n

theorem enteredBefore {r : Run} {k : ArenaState} {secs : ℚ} {n : ℕ} (hk : r.phase n = k)
    (hne : k ≠ .PreStaging) (h : secs < r.entryTime (n + 1) - r.entryTime n) :
    r.EnteredBefore k secs n := by
  subst hk
  obtain ⟨m, hm, hent, hstays⟩ := @entered _ r.phase n hne
  have hsame : r.entryTime (m + 1) = r.entryTime n :=
    hstays.constant hm fun k hk hk' => r.entryTime_succ k (hk'.trans hk.symm)
  exact ⟨rfl, m, hm, hent, hstays, by rw [hsame]; exact h⟩

/-- A latched time that long ago is a press, not the sentinel: the clock never
passes the sentinel. -/
theorem Latched.pressedBefore {r : Run} {button : Iteration → Bool} {t secs : ℚ} {n j k : ℕ}
    (h : r.Latched button t n) (hsecs : 0 ≤ secs) (hk : r.entryTime (n + 1) = (r.input n).now k)
    (hjk : j ≤ k)
    (hlate : secs < (r.input n).now j - if (r.input n).now 0 < t ∧ button (r.input n) = true then
      (r.input n).now 0 else t) : r.PressedBefore button secs n := by
  have hmono := r.ordered n hjk
  have hmax := r.representable n j
  rcases latched_within h with hmiss | ⟨m, hm, hstays, hpress, htime⟩
  · rw [hmiss] at hlate
    linarith
  · refine ⟨m, hm, hstays, hpress, ?_⟩
    rw [htime] at hlate
    rw [hk]
    linarith

theorem enters_staging {r : Run} {n : ℕ} (h : Enters r.phase n .Staging) :
    r.phase n = .PreStaging ∧ r.PressedBefore (·.refButton) (3 / 2) n := by
  have hmem := r.remembers n
  obtain ⟨a, q, b, p, k, ha, hb, -, -, hfrom, hto, ht⟩ := observe_entry h
  rw [ha] at hmem
  cases ht with
  | stage a q pressed =>
    rw [PreStagingAnim.latch_startingTime] at pressed
    refine ⟨congrArg LedAnimation.arenaState ha, ?_⟩
    exact Latched.pressedBefore hmem (by norm_num) (congrArg LedAnimation.start hb) (by decide) pressed
  | awaitTeams => exact absurd rfl hfrom
  | _ => cases hto

theorem enters_preCountdown {r : Run} {n : ℕ} (h : Enters r.phase n .PreCountdown) :
    r.phase n = .Staging ∧ r.PressedBefore (·.redButton) (7 / 2) n ∧
      r.PressedBefore (·.blueButton) (7 / 2) n := by
  have hmem := r.remembers n
  obtain ⟨a, q, b, p, k, ha, hb, -, -, hfrom, hto, ht⟩ := observe_entry h
  rw [ha] at hmem
  cases ht with
  | dim a q red blue =>
    rw [StagingAnim.latch_redStart] at red
    rw [StagingAnim.latch_blueStart] at blue
    have hbuilt : r.entryTime (n + 1) = (r.input n).now 3 := congrArg LedAnimation.start hb
    refine ⟨congrArg LedAnimation.arenaState ha, ?_, ?_⟩
    · exact Latched.pressedBefore hmem.1 (by norm_num) hbuilt (by decide) red
    · exact Latched.pressedBefore hmem.2 (by norm_num) hbuilt (by decide) blue
  | animate => exact absurd rfl hfrom
  | _ => cases hto

theorem enters_countdown {r : Run} {n : ℕ} (h : Enters r.phase n .Countdown) :
    r.EnteredBefore .PreCountdown 7 n ∨
      (r.phase n = .Paused ∧ (r.input n).refButton = true ∧
        During r.phase (fun m => (r.input m).refButton = false) n) := by
  refine (enters_countdown_from h).imp_left fun hpre => ?_
  obtain ⟨a, q, b, p, k, ha, hb, -, -, -, hto, ht⟩ := observe_entry h
  have hphase : r.phase n = _ := congrArg LedAnimation.arenaState ha
  have hstart : r.entryTime n = _ := congrArg LedAnimation.start ha
  have hbuilt : r.entryTime (n + 1) = _ := congrArg LedAnimation.start hb
  cases ht with
  | countDown a q elapsed =>
    refine enteredBefore hphase (by decide) ?_
    have hmono := r.ordered n (by decide : 0 ≤ 1)
    rw [Arithmetic.exact_seconds] at elapsed
    rw [hstart, hbuilt]
    simp only [LedAnimation.start]
    linarith
  | resume => exact absurd (hphase.symm.trans hpre) (by simp [LedAnimation.arenaState])
  | count => exact absurd (hphase.symm.trans hpre) (by simp [LedAnimation.arenaState])
  | _ => cases hto

theorem enters_fighting {r : Run} {n : ℕ} (h : Enters r.phase n .Fighting) :
    r.EnteredBefore .Countdown 3 n := by
  obtain ⟨a, q, b, p, k, ha, hb, -, -, hfrom, hto, ht⟩ := observe_entry h
  have hstart : r.entryTime n = _ := congrArg LedAnimation.start ha
  have hbuilt : r.entryTime (n + 1) = _ := congrArg LedAnimation.start hb
  cases ht with
  | start a q elapsed =>
    refine enteredBefore (congrArg LedAnimation.arenaState ha) (by decide) ?_
    have hmono := r.ordered n (by decide : 0 ≤ 1)
    rw [Arithmetic.exact_seconds] at elapsed
    rw [hstart, hbuilt]
    simp only [LedAnimation.start]
    linarith
  | fight => exact absurd rfl hfrom
  | _ => cases hto

/-! ### The teams' consent -/

/-- Both teams have pressed since the machine was last in `PreStaging`. -/
def TeamsReady (r : Run) (n : ℕ) : Prop :=
  Since r.phase .PreStaging (fun m => (r.input m).redButton = true) n ∧
    Since r.phase .PreStaging (fun m => (r.input m).blueButton = true) n

theorem TeamsReady.succ {r : Run} {n : ℕ} (h : r.TeamsReady n)
    (hn : r.phase (n + 1) ≠ .PreStaging) : r.TeamsReady (n + 1) :=
  ⟨h.1.succ hn, h.2.succ hn⟩

theorem PressedBefore.since {r : Run} {button : Iteration → Bool} {secs : ℚ} {n : ℕ}
    (h : r.PressedBefore button secs n) (hn : r.phase n ≠ .PreStaging) :
    Since r.phase .PreStaging (fun m => button (r.input m) = true) n := by
  obtain ⟨m, hm, hstays, hpress, -⟩ := h
  exact Within.since ⟨m, hm, hstays, hpress⟩ hn

/-- The states that need the teams' consent. -/
def NeedsTeams : ArenaState → Prop
  | .PreCountdown | .Countdown | .Fighting | .Paused => True
  | _ => False

theorem teams_ready (r : Run) (n : ℕ) : NeedsTeams (r.phase n) → r.TeamsReady n := by
  refine r.invariant (fun n a _ => NeedsTeams a.arenaState → r.TeamsReady n) ?_ ?_ n
  · intro h
    cases h
  · intro n a q b p k ha hb ht ih hneeds
    have hphase : r.phase n = _ := congrArg LedAnimation.arenaState ha
    have hphase' : r.phase (n + 1) = _ := congrArg LedAnimation.arenaState hb
    have hout : r.phase (n + 1) ≠ .PreStaging := by
      rw [hphase']
      intro he
      rw [he] at hneeds
      exact hneeds
    cases ht with
    | dim a q red blue =>
      obtain ⟨hstaging, hred, hblue⟩ := @enters_preCountdown r n
        ⟨by rw [hphase]; simp [LedAnimation.arenaState], hphase'⟩
      have hne : r.phase n ≠ .PreStaging := by rw [hstaging]; decide
      exact TeamsReady.succ ⟨hred.since hne, hblue.since hne⟩ hout
    | animate | countDown | count | start | fight | pause | hold | resume =>
      exact (ih trivial).succ hout
    | _ => cases hneeds

/-- **Arming safety.** The states before a fight come in order and with their
spacing, a pause ends only on a fresh press of the referee's button, and there
is no fight without both teams' consent. -/
theorem arming (r : Run) :
    (∀ n, Enters r.phase n .Fighting → r.EnteredBefore .Countdown 3 n) ∧
      (∀ n, Enters r.phase n .Countdown → r.EnteredBefore .PreCountdown 7 n ∨
        (r.phase n = .Paused ∧ (r.input n).refButton = true ∧
          During r.phase (fun m => (r.input m).refButton = false) n)) ∧
      (∀ n, Enters r.phase n .PreCountdown → r.phase n = .Staging ∧
        r.PressedBefore (·.redButton) (7 / 2) n ∧ r.PressedBefore (·.blueButton) (7 / 2) n) ∧
      (∀ n, Enters r.phase n .Staging → r.phase n = .PreStaging ∧
        r.PressedBefore (·.refButton) (3 / 2) n) ∧
      (∀ n, r.phase n = .Fighting → r.TeamsReady n) :=
  ⟨fun _ => enters_fighting, fun _ => enters_countdown, fun _ => enters_preCountdown,
    fun _ => enters_staging, fun n h => r.teams_ready n (by rw [h]; trivial)⟩

theorem arming_interrupted :
    interrupted.EnteredBefore .Countdown 3 6 ∧ interrupted.phase 9 = .Paused ∧
      During interrupted.phase (fun m => (interrupted.input m).refButton = false) 9 := by
  have hlaw := arming interrupted
  refine ⟨hlaw.1 6 ⟨by decide +kernel, by decide +kernel⟩, ?_⟩
  rcases hlaw.2.1 9 ⟨by decide +kernel, by decide +kernel⟩ with hcame | hpause
  · exact absurd hcame.1 (by decide +kernel)
  · exact ⟨hpause.1, hpause.2.2⟩

end Run

end Botgeddon.Arena
