import Botgeddon.Lib.Conversions

/-! What the arena program shares between its parts, and what it reads from
outside.

Seconds are rationals: a `std::chrono::time_point` is its distance from the
clock's epoch. -/
namespace Botgeddon.Arena

/-- The buttons as the current iteration read them, and the match time left as
the last state that computed it wrote it. -/
structure WorldState where
  redButton : Bool
  blueButton : Bool
  refButton : Bool
  resetButton : Bool
  timeRemaining : ℚ := 0

inductive ArenaState where
  | PreStaging
  | Staging
  | PreCountdown
  | Countdown
  | Fighting
  | Paused
  | End
deriving DecidableEq, Repr

/-- `time_point<steady_clock>::max()`: the largest 64-bit count of nanoseconds.
Press times hold it until the press happens. -/
def timePointMax : ℚ := (2 ^ 63 - 1) / 10 ^ 9

/-- What one iteration of `main`'s loop takes from outside. -/
structure Iteration where
  redButton : Bool
  blueButton : Bool
  refButton : Bool
  resetButton : Bool
  /-- The readings of `steady_clock::now()`, in the order the iteration takes them. -/
  now : ℕ → ℚ
  /-- What the memory of a `PausedAnim` built in this iteration holds where
  `_remTime` is, which the constructor leaves as it is. -/
  remTime : ℤ

/-- The button part of `main`'s loop. -/
def WorldState.press (w : WorldState) (it : Iteration) : WorldState :=
  { w with
    redButton := it.redButton
    blueButton := it.blueButton
    refButton := it.refButton
    resetButton := it.resetButton }

end Botgeddon.Arena
