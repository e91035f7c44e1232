import Botgeddon.Arena.Arming
import Botgeddon.Arena.Scene

/-! The LEDs in the teams' buttons.

A lit button is one that does something. That is a statement about two runs: clear every
press of a button that was dark when it was read, and the machine goes through the same
states and shows the same (`only_lit_buttons_matter`); while the press of a lit button,
with no other button pressed, changes what the machine does (`lit_iff_live`). -/
namespace Botgeddon.Arena
open Visits

/-- The iteration without the presses of dark buttons. -/
def Iteration.masked (leds : Bool × Bool) (it : Iteration) : Iteration :=
  { it with
    redButton := it.redButton && leds.1
    blueButton := it.blueButton && leds.2 }

/-- The iteration with nothing but the given teams' buttons pressed. -/
def Iteration.alone (red blue : Bool) (it : Iteration) : Iteration :=
  { it with
    redButton := red
    blueButton := blue
    refButton := false
    resetButton := false }

/-- What is on record was pressed before the iteration. -/
def Settled (it : Iteration) : LedAnimation → Prop
  | .stagingAnim a =>
    (a.redStart = timePointMax ∨ a.redStart ≤ it.now 0) ∧ (a.blueStart = timePointMax ∨ a.blueStart ≤ it.now 0)
  | _ => True

/-! ### One iteration -/

/-- A latch that is not waiting does not need its button. -/
theorem latch_masked {t now : ℚ} (h : t = timePointMax ∨ t ≤ now) (pressed : Bool) :
    (if now < t ∧ (pressed && decide (t = timePointMax)) = true then now else t) =
      if now < t ∧ pressed = true then now else t := by
  rcases h with hmax | hpast
  · simp only [decide_eq_true hmax, Bool.and_true]
  · have hnot : ¬ now < t := not_lt.mpr hpast
    simp only [hnot, false_and, if_false]

theorem staging_masked {it : Iteration} {a : StagingAnim} (h : Settled it (.stagingAnim a)) :
    a.latch (it.now 0) (it.masked (LedAnimation.stagingAnim a).getButtonLeds).redButton
        (it.masked (LedAnimation.stagingAnim a).getButtonLeds).blueButton =
      a.latch (it.now 0) it.redButton it.blueButton := by
  simp only [latch_staging, Iteration.masked, LedAnimation.getButtonLeds, latch_masked h.1, latch_masked h.2]

/-- Dark buttons play no part in a transition. -/
theorem Transition.masked {it : Iteration} {a b : LedAnimation} {q p : ℚ} {k : ℕ} (h : Transition it a q b p k)
    (hsettled : Settled it a) : Transition (it.masked a.getButtonLeds) a q b p k := by
  cases h with
  | awaitReferee a q waits => exact .awaitReferee a q waits
  | stage a q pressed => exact .stage a q pressed
  | awaitTeams a q waits =>
    have hlatch := staging_masked hsettled
    rw [← hlatch] at waits
    have hnext := @Transition.awaitTeams _ (it.masked (LedAnimation.stagingAnim a).getButtonLeds) a q waits
    rw [show (it.masked (LedAnimation.stagingAnim a).getButtonLeds).now = it.now from rfl, hlatch] at hnext
    exact hnext
  | dim a q red blue =>
    rw [← staging_masked hsettled] at red blue
    exact .dim a q red blue
  | animate a q early => exact .animate a q early
  | countDown a q elapsed => exact .countDown a q elapsed
  | count a q early => exact .count a q early
  | start a q elapsed => exact .start a q elapsed
  | fight a q red blue referee =>
    refine .fight a q ?_ ?_ referee
    · simp only [Iteration.masked, red, Bool.false_and]
    · simp only [Iteration.masked, blue, Bool.false_and]
  | tapOut a q tapped referee =>
    refine .tapOut a q ?_ referee
    simpa only [Iteration.masked, LedAnimation.getButtonLeds, Bool.and_true] using tapped
  | pause a q referee =>
    have hreads : pauseReads (it.masked (LedAnimation.fighting a).getButtonLeds) = pauseReads it := by
      simp only [pauseReads, Iteration.masked, LedAnimation.getButtonLeds, Bool.and_true]
    have hnext := @Transition.pause _ (it.masked (LedAnimation.fighting a).getButtonLeds) a q referee
    rw [pauseReading, hreads] at hnext
    exact hnext
  | hold a q held kept => exact .hold a q held kept
  | resume a q referee released kept => exact .resume a q referee released kept
  | abandon a q reset released => exact .abandon a q reset released
  | rest a q kept => exact .rest a q kept
  | restart a q reset => exact .restart a q reset

/-! ### One press -/

/-- While a team is waited for, the staging goes on if nobody presses. -/
theorem staging_released {it : Iteration} (hrep : ∀ j, it.now j ≤ timePointMax) {a : StagingAnim}
    (h : a.redStart = timePointMax ∨ a.blueStart = timePointMax) (q : ℚ) :
    Transition (it.alone false false) (.stagingAnim a) q (.stagingAnim a) q 3 := by
  have hkept : a.latch ((it.alone false false).now 0) (it.alone false false).redButton (it.alone false false).blueButton = a := by
    simp [latch_staging, Iteration.alone]
  have hnext := @Transition.awaitTeams _ (it.alone false false) a q (by
    rw [hkept]
    rintro ⟨hred, hblue⟩
    have hnow1 : (it.alone false false).now 1 ≤ timePointMax := hrep 1
    have hnow2 : (it.alone false false).now 2 ≤ timePointMax := hrep 2
    rcases h with hmax | hmax
    · rw [hmax, Arithmetic.exact_seconds] at hred
      linarith
    · rw [hmax, Arithmetic.exact_seconds] at hblue
      linarith)
  rwa [hkept] at hnext

/-- A staging that nothing changes has latched nothing. -/
theorem latch_of_unchanged {it : Iteration} {a : StagingAnim} {b : LedAnimation} {q p : ℚ} {k : ℕ}
    (h : Transition it (.stagingAnim a) q b p k) (hb : b = .stagingAnim a) :
    a.latch (it.now 0) it.redButton it.blueButton = a := by
  cases h with
  | awaitTeams a q waits => exact LedAnimation.stagingAnim.inj hb
  | dim => cases hb

/-- A fight is ended by a press. -/
theorem fighting_pressed {it : Iteration} {red blue : Bool} (h : red = true ∨ blue = true) {a : Fighting}
    {b : LedAnimation} {q p : ℚ} {k : ℕ} (ht : Transition (it.alone red blue) (.fighting a) q b p k) :
    b ≠ .fighting a := by
  cases ht with
  | fight a q hred hblue referee =>
    have hred' : red = false := hred
    have hblue' : blue = false := hblue
    rw [hred', hblue'] at h
    simp at h
  | tapOut => exact nofun
  | pause a q referee => cases referee

theorem fighting_released (it : Iteration) (a : Fighting) (q : ℚ) :
    Transition (it.alone false false) (.fighting a) q (.fighting a) q 0 :=
  .fight a q rfl rfl rfl

/-- The press of a dark button is no press. -/
theorem dark_dead {it : Iteration} {s : Loop} (hsettled : Settled it s.state) {red blue : Bool}
    (hred : s.state.getButtonLeds.1 = false ∨ red = false) (hblue : s.state.getButtonLeds.2 = false ∨ blue = false) :
    (s.step (it.alone red blue)).state = (s.step (it.alone false false)).state := by
  have hmasked : (it.alone red blue).masked s.state.getButtonLeds = it.alone false false := by
    rcases hred with hred | hred <;> rcases hblue with hblue | hblue <;>
      simp [Iteration.masked, Iteration.alone, hred, hblue]
  have hsettled' : Settled (it.alone red blue) s.state := hsettled
  have ht := (step_transition (it.alone red blue) s).masked hsettled'
  rw [hmasked] at ht
  exact (Loop.step_eq ht).1.symm

/-- The press of a lit button changes the object. -/
theorem lit_live {it : Iteration} {s : Loop} (hrep : ∀ j, it.now j ≤ timePointMax) (hnow : it.now 0 < timePointMax)
    {red blue : Bool} (h : (s.state.getButtonLeds.1 = true ∧ red = true) ∨ (s.state.getButtonLeds.2 = true ∧ blue = true)) :
    (s.step (it.alone red blue)).state ≠ (s.step (it.alone false false)).state := by
  obtain ⟨w, a⟩ := s
  have ht := step_transition (it.alone red blue) ⟨w, a⟩
  cases a with
  | stagingAnim a =>
    have hlit : (a.redStart = timePointMax ∧ red = true) ∨ (a.blueStart = timePointMax ∧ blue = true) := by
      simpa [LedAnimation.getButtonLeds] using h
    have hreleased := staging_released hrep (hlit.imp And.left And.left) w.timeRemaining
    rw [(Loop.step_eq (s := ⟨w, .stagingAnim a⟩) hreleased).1]
    intro hsame
    have hlatch := latch_of_unchanged ht hsame
    rcases hlit with ⟨hmax, hpressed⟩ | ⟨hmax, hpressed⟩
    · have hred := congrArg StagingAnim.redStart hlatch
      rw [StagingAnim.latch_redStart, hmax, if_pos ⟨hnow, hpressed⟩] at hred
      exact hnow.ne hred
    · have hblue := congrArg StagingAnim.blueStart hlatch
      rw [StagingAnim.latch_blueStart, hmax, if_pos ⟨hnow, hpressed⟩] at hblue
      exact hnow.ne hblue
  | fighting a =>
    rw [(Loop.step_eq (s := ⟨w, .fighting a⟩) (fighting_released it a w.timeRemaining)).1]
    exact fighting_pressed (h.imp And.right And.right) ht
  | _ => simp [LedAnimation.getButtonLeds] at h

namespace Run

/-- Press times on record are times of the past. -/
theorem settled (r : Run) (n : ℕ) : Settled (r.input n) (r.state n).state := by
  have hmem := r.remembers n
  have hpast : ∀ {button : Iteration → Bool} {t : ℚ}, r.Latched button t n → t = timePointMax ∨ t ≤ (r.input n).now 0 := by
    intro button t h
    refine h.imp_right ?_
    rintro ⟨m, hm, -, -, rfl⟩
    exact now_le hm 0 0
  cases ha : (r.state n).state with
  | stagingAnim a =>
    rw [ha] at hmem
    exact ⟨hpast hmem.1, hpast hmem.2⟩
  | _ => trivial

end Run

/-! ### Whole runs -/

/-- Two scenes differ in no more than the buttons on record. -/
structure Agree (s s' : Scene) : Prop where
  state : s'.loop.state = s.loop.state
  timeRemaining : s'.loop.world.timeRemaining = s.loop.world.timeRemaining
  lights : s'.lights = s.lights

/-- They still agree, and have shown the same, after iterations at the same times that make
the same transition. -/
theorem Agree.step {s s' : Scene} (h : Agree s s') (it it' : LitIteration) (hrng : it'.rng = it.rng)
    (hnow : it'.iteration.now = it.iteration.now)
    (htransition : Transition it'.iteration s.loop.state s.loop.world.timeRemaining (s.loop.step it.iteration).state
      (s.loop.step it.iteration).world.timeRemaining (s.loop.tick it.iteration).reads) :
    Agree (s.step it) (s'.step it') ∧ s'.output it' = s.output it := by
  rw [← h.state, ← h.timeRemaining] at htransition
  obtain ⟨hstate, htime, hreads⟩ := Loop.step_eq htransition
  have htick : (s'.loop.tick it'.iteration).state = (s.loop.tick it.iteration).state := hstate
  have hreading : s'.loop.colorReading it'.iteration = s.loop.colorReading it.iteration := by
    rw [Loop.colorReading, Loop.colorReading, hreads, htick, hnow]
  have hbuilt : s'.built it' = s.built it := by
    have hsame := changes_nil_congr (congrArg LedAnimation.arenaState h.state) (congrArg LedAnimation.arenaState hstate)
    simp only [Scene.built, hsame, h.lights, hrng]
  have hlights : (s'.step it').lights = (s.step it).lights := by
    show (s'.loop.step it'.iteration).state.light (s'.built it') (s'.loop.colorReading it'.iteration) = _
    rw [hstate, hbuilt, hreading]
    rfl
  have hsegments : s'.loop.segmentLed it'.iteration = s.loop.segmentLed it.iteration := by
    rw [Loop.segmentLed, Loop.segmentLed, htick, hreads, hnow]
  refine ⟨⟨hstate, htime, hlights⟩, ?_⟩
  show Output.mk (s'.loop.step it'.iteration).state.getButtonLeds (s'.loop.segmentLed it'.iteration)
    ((s'.loop.step it'.iteration).state.getColors (s'.step it').lights (s'.loop.colorReading it'.iteration)) = _
  rw [hstate, hsegments, hlights, hreading]
  rfl

/-- The run without the presses of buttons that were dark when they were read. -/
def Run.masked (r : Run) : Run where
  began := r.began
  input := fun n => (r.input n).masked (r.state n).state.getButtonLeds
  ordered := r.ordered
  follows := r.follows
  after := r.after
  representable := r.representable

namespace LitRun

def masked (r : LitRun) : LitRun where
  toRun := r.toRun.masked
  rng := r.rng

/-- An iteration reads the buttons under the LEDs the one before has set. -/
theorem lit_before (r : LitRun) (n : ℕ) : (r.state (n + 1)).state.getButtonLeds = (r.output n).buttonLeds := by
  show _ = ((r.scene (n + 1)).loop.state).getButtonLeds
  rw [scene_loop]

/-- What the masked run's iteration does in the run's own state. -/
theorem masked_transition (r : LitRun) (n : ℕ) :
    Transition (r.masked.input n) (r.scene n).loop.state (r.scene n).loop.world.timeRemaining
      ((r.scene n).loop.step (r.input n)).state ((r.scene n).loop.step (r.input n)).world.timeRemaining
      ((r.scene n).loop.tick (r.input n)).reads := by
  rw [scene_loop]
  exact (step_transition (r.input n) (r.state n)).masked (r.settled n)

theorem masked_agrees (r : LitRun) (n : ℕ) : Agree (r.scene n) (r.masked.scene n) := by
  induction n with
  | zero => exact ⟨rfl, rfl, rfl⟩
  | succ n ih => exact (ih.step (r.litInput n) (r.masked.litInput n) rfl rfl (r.masked_transition n)).1

/-- **Only lit buttons matter.** Without the presses of dark buttons a run goes through the
same states with the same time on record, and shows the same in every iteration. -/
theorem only_lit_buttons_matter (r : LitRun) (n : ℕ) :
    (r.masked.state n).state = (r.state n).state ∧ r.masked.timeRemaining n = r.timeRemaining n ∧
      r.masked.output n = r.output n := by
  have hagree := r.masked_agrees n
  have hshown := (hagree.step (r.litInput n) (r.masked.litInput n) rfl rfl (r.masked_transition n)).2
  have hstate := hagree.state
  have htime := hagree.timeRemaining
  rw [scene_loop, scene_loop] at hstate htime
  exact ⟨hstate, htime, hshown⟩

/-- **A lit button is a live one.** A team's button is lit in a frame if and only if pressing it,
and nothing else, changes what the next iteration does. -/
theorem lit_iff_live (r : LitRun) (n : ℕ) (hnow : (r.input (n + 1)).now 0 < timePointMax) :
    ((r.output n).buttonLeds.1 = true ↔
        ((r.state (n + 1)).step ((r.input (n + 1)).alone true false)).state ≠
          ((r.state (n + 1)).step ((r.input (n + 1)).alone false false)).state) ∧
      ((r.output n).buttonLeds.2 = true ↔
        ((r.state (n + 1)).step ((r.input (n + 1)).alone false true)).state ≠
          ((r.state (n + 1)).step ((r.input (n + 1)).alone false false)).state) := by
  have hsettled := r.settled (n + 1)
  have hrep := r.representable (n + 1)
  rw [← r.lit_before n]
  constructor
  · refine ⟨fun hlit => lit_live hrep hnow (.inl ⟨hlit, rfl⟩), fun hlive => ?_⟩
    by_contra hdark
    exact hlive (dark_dead hsettled (.inl (Bool.not_eq_true _ ▸ hdark)) (.inr rfl))
  · refine ⟨fun hlit => lit_live hrep hnow (.inr ⟨hlit, rfl⟩), fun hlive => ?_⟩
    by_contra hdark
    exact hlive (dark_dead hsettled (.inr rfl) (.inl (Bool.not_eq_true _ ▸ hdark)))

/-- At 4 s the staging waits for both teams. -/
theorem lit_iff_live_staged :
    (((LitRun.mk Run.interrupted fun _ _ => .origin).state 2).step ((Run.interrupted.input 2).alone true false)).state ≠
      (((LitRun.mk Run.interrupted fun _ _ => .origin).state 2).step ((Run.interrupted.input 2).alone false false)).state :=
  (lit_iff_live ⟨Run.interrupted, fun _ _ => .origin⟩ 1 (by decide +kernel)).1.mp (by decide +kernel)

end LitRun

end Botgeddon.Arena
