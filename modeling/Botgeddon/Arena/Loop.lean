import Botgeddon.Lib.Visits
import Botgeddon.Arena.Segments

/-! `main`'s loop and its runs.

An iteration reads the buttons, calls `StateMachine::Tick`, and asks the
animation the machine then owns what to show. `GetButtonLeds` and `GetColors`
write no member that any `Tick` or `GetSegmentLed` reads. -/
namespace Botgeddon.Arena
open Visits

/-- What `main`'s loop carries from one iteration to the next. -/
structure Loop where
  world : WorldState
  state : LedAnimation

namespace Loop

variable [Arithmetic]

/-- `main` before its loop. The buttons are read before anything looks at them. -/
def initial (now : ℚ) : Loop :=
  let world : WorldState :=
    { redButton := false, blueButton := false, refButton := false, resetButton := false }
  ⟨world, getAnimation .PreStaging world now 0⟩

/-- `state.Tick(world)`. -/
def tick (it : Iteration) (s : Loop) : Ticking :=
  s.state.tick ⟨it, s.world.press it, s.state, 0, [], 0⟩

def step (it : Iteration) (s : Loop) : Loop := ⟨(s.tick it).world, (s.tick it).state⟩

/-- `state.GetSegmentLed()`, after the iteration's `Tick`. -/
def segmentLed (it : Iteration) (s : Loop) : SegmentLedState :=
  (s.tick it).state.getSegmentLed fun j => it.now ((s.tick it).reads + j)

end Loop

/-- A run of `main`'s loop: any buttons in every iteration, any clock that does
not go back and stays representable, any content of uninitialised members. -/
structure Run where
  began : ℚ
  input : ℕ → Iteration
  ordered : ∀ n, Monotone (input n).now
  follows : ∀ n j k, (input n).now j ≤ (input (n + 1)).now k
  after : ∀ j, began ≤ (input 0).now j
  representable : ∀ n j, (input n).now j ≤ timePointMax

namespace Run

section State

variable [Arithmetic]

/-- The loop's state before iteration `n`. -/
def state (r : Run) (n : ℕ) : Loop := states Loop.step (Loop.initial r.began) r.input n

/-- The arena state the machine is in before iteration `n`. -/
def phase (r : Run) (n : ℕ) : ArenaState := (r.state n).state.arenaState

/-- When the object owned before iteration `n` was built. -/
def entryTime (r : Run) (n : ℕ) : ℚ := (r.state n).state.start

/-- What iteration `n` shows. -/
def shown (r : Run) (n : ℕ) : SegmentLedState := (r.state n).segmentLed (r.input n)

@[simp] theorem phase_zero (r : Run) : r.phase 0 = .PreStaging := rfl

end State

/-- Readings of earlier iterations are not later. -/
theorem now_le {r : Run} {m n : ℕ} (h : m < n) (j k : ℕ) :
    (r.input m).now j ≤ (r.input n).now k := by
  induction n, h using Nat.le_induction generalizing k with
  | base => exact r.follows m j k
  | succ n _ ih => exact (ih 0).trans (r.follows n 0 k)

/-- Nor are earlier readings of the same iteration. -/
theorem now_mono {r : Run} {m n : ℕ} (h : m ≤ n) {j k : ℕ} (hjk : j ≤ k) :
    (r.input m).now j ≤ (r.input n).now k := by
  rcases Nat.lt_or_eq_of_le h with hlt | rfl
  · exact now_le hlt j k
  · exact r.ordered m hjk

/-- A run with an iteration every four seconds, each with one clock reading, for
the first hundred thousand iterations; then the clock stands still. -/
def paced (redButton blueButton refButton resetButton : ℕ → Bool) (remTime : ℕ → ℤ) : Run where
  began := 0
  input := fun n =>
    { redButton := redButton n
      blueButton := blueButton n
      refButton := refButton n
      resetButton := resetButton n
      now := fun _ => 4 * (min n 100000 : ℕ)
      remTime := remTime n }
  ordered := fun _ _ _ _ => le_refl _
  follows := fun n _ _ => by
    have h : min n 100000 ≤ min (n + 1) 100000 := by omega
    have hq : ((min n 100000 : ℕ) : ℚ) ≤ (min (n + 1) 100000 : ℕ) := by exact_mod_cast h
    linarith
  after := fun _ => by simp
  representable := fun n _ => by
    have h : min n 100000 ≤ 100000 := Nat.min_le_right ..
    have hq : ((min n 100000 : ℕ) : ℚ) ≤ 100000 := by exact_mod_cast h
    calc 4 * ((min n 100000 : ℕ) : ℚ) ≤ 400000 := by linarith
      _ ≤ timePointMax := by norm_num [timePointMax]

/-- A match with one pause: staged by the referee, both teams ready at 8 s, fought
from 24 s, paused at 28 s, resumed at 36 s by a fresh press and fought again from 40 s. -/
def interrupted : Run :=
  paced (· == 2) (· == 2) (fun n => n == 0 || n == 7 || n == 9) (fun _ => false) fun _ => 0

end Run

end Botgeddon.Arena
