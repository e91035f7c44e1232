import Botgeddon.Arena.Arithmetic
import Botgeddon.Arena.World

/-! The seven animations and the state machine that owns one of them.

Each class keeps the members its `Tick` and `GetSegmentLed` use. A `Tick` calls
`ChangeState` on the state machine that owns the very object it runs on, so a
`Ticking` records, beside the state, the `ChangeState` calls made and how often
a member of the object was read after it was gone. Where that happens the value
read is the one the object held. -/
namespace Botgeddon.Arena
open Conversions

/-! ### The objects -/

structure PreStagingAnim where
  start : ℚ
  startingTime : ℚ

structure StagingAnim where
  start : ℚ
  blueStart : ℚ
  redStart : ℚ

structure PreCountdownAnimation where
  start : ℚ

structure XmasTree where
  start : ℚ

/-- `endTime` is the member `_end`. -/
structure Fighting where
  start : ℚ
  endTime : ℚ

structure PausedAnim where
  start : ℚ
  releasedPause : Bool
  remTime : ℤ

structure End where
  start : ℚ

inductive LedAnimation where
  | preStagingAnim (a : PreStagingAnim)
  | stagingAnim (a : StagingAnim)
  | preCountdownAnimation (a : PreCountdownAnimation)
  | xmasTree (a : XmasTree)
  | fighting (a : Fighting)
  | pausedAnim (a : PausedAnim)
  | endAnim (a : End)

/-- The enumerator `GetAnimation` builds the object for. -/
def LedAnimation.arenaState : LedAnimation → ArenaState
  | .preStagingAnim _ => .PreStaging
  | .stagingAnim _ => .Staging
  | .preCountdownAnimation _ => .PreCountdown
  | .xmasTree _ => .Countdown
  | .fighting _ => .Fighting
  | .pausedAnim _ => .Paused
  | .endAnim _ => .End

theorem LedAnimation.eq_xmasTree {a : LedAnimation} (h : a.arenaState = .Countdown) :
    ∃ x, a = .xmasTree x := by
  cases a with
  | xmasTree x => exact ⟨x, rfl⟩
  | _ => cases h

theorem LedAnimation.eq_fighting {a : LedAnimation} (h : a.arenaState = .Fighting) :
    ∃ f, a = .fighting f := by
  cases a with
  | fighting f => exact ⟨f, rfl⟩
  | _ => cases h

theorem LedAnimation.eq_pausedAnim {a : LedAnimation} (h : a.arenaState = .Paused) :
    ∃ p, a = .pausedAnim p := by
  cases a with
  | pausedAnim p => exact ⟨p, rfl⟩
  | _ => cases h

/-- The member `_start`, which every class has. -/
def LedAnimation.start : LedAnimation → ℚ
  | .preStagingAnim a => a.start
  | .stagingAnim a => a.start
  | .preCountdownAnimation a => a.start
  | .xmasTree a => a.start
  | .fighting a => a.start
  | .pausedAnim a => a.start
  | .endAnim a => a.start

variable [Arithmetic]

/-- The `Fighting` constructor turns the seconds left into whole milliseconds. -/
def Fighting.new (now : ℚ) (world : WorldState) : Fighting :=
  ⟨now, now + truncate (thousandfold world.timeRemaining) / 1000⟩

/-- `StateMachine::GetAnimation`. Every constructor reads the clock once. -/
def getAnimation (state : ArenaState) (world : WorldState) (now : ℚ) (remTime : ℤ) : LedAnimation :=
  match state with
  | .PreStaging => .preStagingAnim ⟨now, timePointMax⟩
  | .Staging => .stagingAnim ⟨now, timePointMax, timePointMax⟩
  | .PreCountdown => .preCountdownAnimation ⟨now⟩
  | .Countdown => .xmasTree ⟨now⟩
  | .Fighting => .fighting (Fighting.new now world)
  | .Paused => .pausedAnim ⟨now, false, remTime⟩
  | .End => .endAnim ⟨now⟩

/-! ### A call of `Tick` under way -/

structure Ticking where
  input : Iteration
  world : WorldState
  /-- The object `StateMachine::_state` owns. -/
  state : LedAnimation
  /-- How often the iteration has read the clock. -/
  reads : ℕ
  /-- The `ChangeState` calls made, first to last. -/
  changes : List ArenaState
  /-- Reads of members of the object `Tick` runs on, made after it was destroyed. -/
  staleReads : ℕ

namespace Ticking

/-- The next clock reading. -/
def now (t : Ticking) : ℚ := t.input.now t.reads

/-- The clock has been read. -/
def read (t : Ticking) : Ticking := { t with reads := t.reads + 1 }

/-- A member of the object `Tick` runs on is read. -/
def member (t : Ticking) : Ticking :=
  { t with staleReads := if t.changes = [] then t.staleReads else t.staleReads + 1 }

def setTimeRemaining (q : ℚ) (t : Ticking) : Ticking :=
  { t with world := { t.world with timeRemaining := q } }

/-- `StateMachine::ChangeState`. -/
def changeState (state : ArenaState) (t : Ticking) : Ticking :=
  { t with
    state := getAnimation state t.world t.now t.input.remTime
    reads := t.reads + 1
    changes := t.changes ++ [state] }

/-- `_state->ChangeState(state, world)` in a `Tick`, which reads the member `_state`. -/
def viaState (state : ArenaState) (t : Ticking) : Ticking := t.member.changeState state

end Ticking

/-! ### `Tick`, class by class -/

namespace PreStagingAnim

def fadeOutStart : ℚ := 3 / 2

/-- The first reading of a press, or the sentinel. -/
def latch (self : PreStagingAnim) (now : ℚ) (refButton : Bool) : PreStagingAnim :=
  if now < self.startingTime ∧ refButton then { self with startingTime := now } else self

/-- The match clock is set up after `ChangeState`: the new state does not see it
yet, and the ticking object is not touched any more. -/
def tick (self : PreStagingAnim) (t : Ticking) : Ticking :=
  let now := t.now
  let t := t.read
  let self := self.latch now t.world.refButton
  let t := { t with state := .preStagingAnim self }
  let startingDuration := seconds (t.now - self.startingTime)
  let t := t.member.read
  if startingDuration > fadeOutStart then
    (t.viaState .Staging).setTimeRemaining 120
  else t

end PreStagingAnim

namespace StagingAnim

def totalAnimFromLastButton : ℚ := 7 / 2

def latch (self : StagingAnim) (now : ℚ) (redButton blueButton : Bool) : StagingAnim :=
  let self := if now < self.redStart ∧ redButton then { self with redStart := now } else self
  if now < self.blueStart ∧ blueButton then { self with blueStart := now } else self

def tick (self : StagingAnim) (t : Ticking) : Ticking :=
  let now := t.now
  let t := t.read
  let self := self.latch now t.world.redButton t.world.blueButton
  let t := { t with state := .stagingAnim self }
  let redDuration := seconds (t.now - self.redStart)
  let t := t.member.read
  let blueDuration := seconds (t.now - self.blueStart)
  let t := t.member.read
  if redDuration > totalAnimFromLastButton ∧ blueDuration > totalAnimFromLastButton then
    t.viaState .PreCountdown
  else t

end StagingAnim

namespace PreCountdownAnimation

def animEnd : ℚ := 7

def tick (self : PreCountdownAnimation) (t : Ticking) : Ticking :=
  let duration := seconds (t.now - self.start)
  let t := t.member.read
  if duration > animEnd then t.viaState .Countdown else t

end PreCountdownAnimation

namespace XmasTree

def tick (self : XmasTree) (t : Ticking) : Ticking :=
  let duration := seconds (t.now - self.start)
  let t := t.member.read
  if duration > 3 then t.viaState .Fighting else t

end XmasTree

namespace Fighting

/-- A press of a team's button does not return from `Tick`: the referee's button
is tested all the same. -/
def tick (self : Fighting) (t : Ticking) : Ticking :=
  let t := if t.world.redButton || t.world.blueButton then t.viaState .End else t
  if t.world.refButton then
    let duration := seconds (self.endTime - t.now)
    let t := t.member.read
    (t.setTimeRemaining duration).viaState .Paused
  else t

end Fighting

namespace PausedAnim

/-- What `Tick` writes into the object before it tests the buttons. -/
def update (self : PausedAnim) (world : WorldState) : PausedAnim :=
  { self with
    remTime := truncate ⌈world.timeRemaining⌉
    releasedPause := if !world.refButton then true else self.releasedPause }

/-- `world.refButton && _releasedPause`: the member is read only if the button is
pressed, and once more for the reset button. -/
def tick (self : PausedAnim) (t : Ticking) : Ticking :=
  let self := self.update t.world
  let t := { t with state := .pausedAnim self }
  let t := if t.world.refButton then
      if self.releasedPause then t.member.viaState .Countdown else t.member
    else t
  if t.world.resetButton then
    if self.releasedPause then t.member.viaState .PreStaging else t.member
  else t

end PausedAnim

namespace End

def tick (_self : End) (t : Ticking) : Ticking :=
  if t.world.resetButton then t.viaState .PreStaging else t

end End

def LedAnimation.tick : LedAnimation → Ticking → Ticking
  | .preStagingAnim a => a.tick
  | .stagingAnim a => a.tick
  | .preCountdownAnimation a => a.tick
  | .xmasTree a => a.tick
  | .fighting a => a.tick
  | .pausedAnim a => a.tick
  | .endAnim a => a.tick

end Botgeddon.Arena
