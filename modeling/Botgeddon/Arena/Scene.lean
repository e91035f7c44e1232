import Botgeddon.Arena.Colors
import Botgeddon.Arena.Transition

/-! Everything an iteration shows.

After `Tick` an iteration asks for the button LEDs, the segments and the colours, in
this order, and takes further clock readings for the last two. `GetColors` moves the
lights of a `PreCountdownAnimation` on, so what `main`'s loop carries along is the
`Loop` and these lights. -/
namespace Botgeddon.Arena
open Conversions Visits
open LedAnimation (N)
open Strip (ColorTriplet)

/-! ### Transitions are determined -/

/-- The object, the time on record and the inputs decide the transition. -/
theorem Transition.unique {it : Iteration} {a b b' : LedAnimation} {q p p' : ℚ} {k k' : ℕ}
    (h : Transition it a q b p k) (h' : Transition it a q b' p' k') : b = b' ∧ p = p' ∧ k = k' := by
  -- Two transitions from one kind of object have guards that exclude each other.
  cases h <;> cases h' <;> first
    | exact ⟨rfl, rfl, rfl⟩
    | exact absurd ‹_ ≤ _› (not_le.mpr ‹_ < _›)
    | exact absurd ⟨by assumption, by assumption⟩ ‹¬ (_ ∧ _)›
    | simp_all

/-- Whatever is known to be a transition of this iteration is what it does. -/
theorem Loop.step_eq {it : Iteration} {s : Loop} {b : LedAnimation} {p : ℚ} {k : ℕ}
    (h : Transition it s.state s.world.timeRemaining b p k) :
    (s.step it).state = b ∧ (s.step it).world.timeRemaining = p ∧ (s.tick it).reads = k :=
  (step_transition it s).unique h

/-- `ChangeState` always leads to another state. -/
theorem changes_nil_iff (it : Iteration) (s : Loop) :
    (s.tick it).changes = [] ↔ (s.step it).state.arenaState = s.state.arenaState := by
  obtain ⟨w, a⟩ := s
  cases a with
  | fighting a =>
    simp only [Loop.step, Loop.tick, LedAnimation.tick, Fighting.tick, Ticking.now, Ticking.read,
      Ticking.member, Ticking.viaState, Ticking.changeState, Ticking.setTimeRemaining, WorldState.press]
    by_cases href : it.refButton = true <;> by_cases htap : (it.redButton || it.blueButton) = true <;>
      simp [href, htap, getAnimation, LedAnimation.arenaState]
  | pausedAnim a =>
    simp only [Loop.step, Loop.tick, LedAnimation.tick, PausedAnim.tick, PausedAnim.update, Ticking.now,
      Ticking.member, Ticking.viaState, Ticking.changeState, WorldState.press]
    by_cases href : it.refButton = true <;> by_cases hres : it.resetButton = true <;>
      by_cases hrel : a.releasedPause = true <;>
        simp [href, hres, hrel, getAnimation, LedAnimation.arenaState]
  | preStagingAnim | stagingAnim | preCountdownAnimation | xmasTree | endAnim =>
    simp only [Loop.step, Loop.tick, LedAnimation.tick, PreStagingAnim.tick, StagingAnim.tick,
      PreCountdownAnimation.tick, XmasTree.tick, End.tick, Ticking.now, Ticking.read, Ticking.member,
      Ticking.viaState, Ticking.changeState, Ticking.setTimeRemaining, WorldState.press]
    split <;> simp [getAnimation, LedAnimation.arenaState]

/-- Iterations between states of the same kind agree on whether there was one. -/
theorem changes_nil_congr {it it' : Iteration} {s s' : Loop} (hbefore : s'.state.arenaState = s.state.arenaState)
    (hafter : (s'.step it').state.arenaState = (s.step it).state.arenaState) :
    (s'.tick it').changes = [] ↔ (s.tick it).changes = [] := by
  rw [changes_nil_iff, changes_nil_iff, hbefore, hafter]

/-! ### Latches -/

theorem latch_preStaging (a : PreStagingAnim) (now : ℚ) (refButton : Bool) :
    a.latch now refButton = ⟨a.start, if now < a.startingTime ∧ refButton = true then now else a.startingTime⟩ := by
  unfold PreStagingAnim.latch
  split <;> rfl

theorem latch_staging (a : StagingAnim) (now : ℚ) (redButton blueButton : Bool) :
    a.latch now redButton blueButton =
      ⟨a.start, if now < a.blueStart ∧ blueButton = true then now else a.blueStart,
        if now < a.redStart ∧ redButton = true then now else a.redStart⟩ := by
  by_cases hred : now < a.redStart ∧ redButton = true <;>
    by_cases hblue : now < a.blueStart ∧ blueButton = true <;> simp [StagingAnim.latch, hred, hblue]

/-! ### The loop with its lights -/

/-- How many clock readings `GetSegmentLed` takes. -/
def LedAnimation.segmentReads : LedAnimation → ℕ
  | .xmasTree _ => 1
  | .fighting _ => 2
  | _ => 0

/-- What the loops of `GetColors` leave in the lights. -/
def LedAnimation.light (lights : Lights) (now : ℚ) : LedAnimation → Lights
  | .preCountdownAnimation a => lights.update (now - a.start)
  | _ => lights

/-- The clock reading `GetColors` takes. -/
def Loop.colorReading (it : Iteration) (s : Loop) : ℚ :=
  it.now ((s.tick it).reads + (s.tick it).state.segmentReads)

/-- The lights are those of the object the machine owns, if it is a
`PreCountdownAnimation`; no other class has any. -/
structure Scene where
  loop : Loop
  lights : Lights

/-- An iteration's inputs, and what the engine of a `PreCountdownAnimation` built in
it will give. -/
structure LitIteration where
  iteration : Iteration
  rng : ℕ → Draw

/-- What an iteration shows. -/
structure Output where
  buttonLeds : Bool × Bool
  segmentLed : SegmentLedState
  colors : Vector ColorTriplet N

namespace Scene

/-- The lights after `Tick`: a new object has new ones. -/
def built (it : LitIteration) (s : Scene) : Lights :=
  if (s.loop.tick it.iteration).changes = [] then s.lights else .new it.rng

def step (it : LitIteration) (s : Scene) : Scene where
  loop := s.loop.step it.iteration
  lights := (s.loop.step it.iteration).state.light (s.built it) (s.loop.colorReading it.iteration)

def output (it : LitIteration) (s : Scene) : Output where
  buttonLeds := (s.step it).loop.state.getButtonLeds
  segmentLed := s.loop.segmentLed it.iteration
  colors := (s.step it).loop.state.getColors (s.step it).lights (s.loop.colorReading it.iteration)

end Scene

/-- A run of `main`'s loop, with the draws of the engines built in it. -/
structure LitRun extends Run where
  rng : ℕ → ℕ → Draw

namespace LitRun

def litInput (r : LitRun) (n : ℕ) : LitIteration := ⟨r.input n, r.rng n⟩

/-- What `main`'s loop carries before iteration `n`. -/
def scene (r : LitRun) (n : ℕ) : Scene :=
  states Scene.step ⟨Loop.initial r.began, .new (r.rng 0)⟩ r.litInput n

/-- What iteration `n` shows. -/
def output (r : LitRun) (n : ℕ) : Output := (r.scene n).output (r.litInput n)

/-- The lights play no part in what the machine does. -/
theorem scene_loop (r : LitRun) (n : ℕ) : (r.scene n).loop = r.state n := by
  refine states_related Scene.step Loop.step _ _ r.litInput r.input (fun s s' => s.loop = s') rfl ?_ n
  rintro n s s' rfl
  rfl

/-- What is proved of the segments a run shows holds of its lit output. -/
theorem output_segmentLed (r : LitRun) (n : ℕ) : (r.output n).segmentLed = r.shown n := by
  show (r.scene n).loop.segmentLed (r.input n) = _
  rw [scene_loop]
  rfl

end LitRun

end Botgeddon.Arena
