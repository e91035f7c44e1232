import Botgeddon.Lib.Along
import Botgeddon.Firmware.Controller

/-! The segment controller as a machine.

Three things happen in any order: an I2C transaction, the timer interrupt, and a
step of the foreground, which is the end of `setup` and then `loop` calling
`displaySegments` for ever. The interrupts are atomic; the foreground can be
interrupted between any two of its accesses to the display. -/
namespace Botgeddon.Firmware

/-- `characterArray`: the segments of every character, A to G from bit 6 down. -/
def characterArray : Vector UInt8 128 := #v[
  0x7e, 0x30, 0x6d, 0x79, 0x33, 0x5b, 0x5f, 0x70, 0x7f, 0x7b, 0x77, 0x1f, 0x4e, 0x3d, 0x4f, 0x47,
  0x00, 0x00, 0x00, 0x00, 0x00, 0x00, 0x00, 0x00, 0x00, 0x00, 0x00, 0x00, 0x00, 0x00, 0x00, 0x00,
  0x00, 0x00, 0x22, 0x00, 0x00, 0x00, 0x00, 0x20, 0x4e, 0x78, 0x00, 0x00, 0x04, 0x01, 0x00, 0x00,
  0x7e, 0x30, 0x6d, 0x79, 0x33, 0x5b, 0x5f, 0x70, 0x7f, 0x7b, 0x00, 0x00, 0x00, 0x00, 0x00, 0x00,
  0x00, 0x77, 0x1f, 0x4e, 0x3d, 0x4f, 0x47, 0x5e, 0x37, 0x30, 0x38, 0x00, 0x0e, 0x00, 0x15, 0x7e,
  0x67, 0x73, 0x05, 0x5b, 0x0f, 0x3e, 0x00, 0x00, 0x00, 0x3b, 0x00, 0x4e, 0x00, 0x78, 0x00, 0x08,
  0x02, 0x77, 0x1f, 0x0d, 0x3d, 0x6f, 0x47, 0x5e, 0x17, 0x10, 0x38, 0x00, 0x30, 0x00, 0x15, 0x1d,
  0x67, 0x73, 0x05, 0x5b, 0x0f, 0x1c, 0x00, 0x00, 0x00, 0x00, 0x00, 0x00, 0x00, 0x00, 0x00, 0x00]

/-- The entry `displaySegments` looks up for a digit, unless the digit is raw. -/
def lookup (segments : UInt8) : Option ℕ :=
  if segments &&& 0x80 ≠ 0 then none else some segments.toNat

/-- The segments posted for a digit. -/
def segmentsOf (segments : UInt8) : UInt8 :=
  match lookup segments with
  | none => segments &&& 0x7f
  | some i => characterArray[i]!

/-- What the foreground does next: assign digit `i` at the end of `setup`, or in
the `x`-th round of `displaySegments` read a digit, or post the one it has read. -/
inductive Foreground where
  | setup (i : ℕ)
  | read (x : ℕ)
  | post (x : ℕ) (segments : UInt8)
deriving DecidableEq

structure Machine where
  controller : Controller
  foreground : Foreground
  /-- The segments clocked out to the drivers so far. -/
  posted : List UInt8

inductive Event where
  | receive (bytes : List UInt8)
  | timer
  | foreground

namespace Machine

/-- Power-on up to the first assignment of a digit: the globals are zero, and the
interrupts are on after `setupTWI`. -/
def boot (eeprom : UInt8) : Machine :=
  let panel : Panel := ⟨⟨#v[0, 0, 0], 0, 0⟩, 0, eeprom, 0⟩
  ⟨⟨⟨Vector.replicate bufferSize 0, 0, 0⟩, [], panel.setupTWI⟩, .setup 0, []⟩

def setDigit (s : Machine) (i : ℕ) (c : UInt8) : Machine :=
  let display := s.controller.panel.display
  { s with
    controller := { s.controller with
      panel := { s.controller.panel with
        display := { display with digits := display.digits.setIfInBounds i c } } } }

/-- One step of the foreground. `setup` writes '1', '2' and '3'. -/
def foregroundStep (s : Machine) : Machine :=
  match s.foreground with
  | .setup i =>
    { s.setDigit i (0x31 + UInt8.ofNat i) with
      foreground := if i < 2 then .setup (i + 1) else .read 0 }
  | .read x => { s with foreground := .post x s.controller.panel.display.digits[2 - x] }
  | .post x segments =>
    { s with
      posted := s.posted ++ [segmentsOf segments]
      foreground := if x < 2 then .read (x + 1) else .read 0 }

def step (s : Machine) : Event → Machine
  | .receive bytes => { s with controller := s.controller.receive bytes }
  | .timer => { s with controller := s.controller.timerInterrupt }
  | .foreground => s.foregroundStep

def run (s : Machine) (events : List Event) : Machine := events.foldl step s

@[simp] theorem run_nil (s : Machine) : s.run [] = s := rfl

@[simp] theorem run_cons (s : Machine) (e : Event) (events : List Event) :
    s.run (e :: events) = (s.step e).run events := rfl

/-- The byte a timer interrupt hands to `updateBufferData`. -/
def handedBy (s : Machine) : Event → Option UInt8
  | .timer =>
    if s.controller.buffer.head ≠ s.controller.buffer.tail then some s.controller.buffer.oldest
    else none
  | _ => none

theorem timer_controller {s : Machine} {c : UInt8} (h : s.handedBy .timer = some c) :
    (s.step .timer).controller =
      { s.controller with buffer := s.controller.buffer.pop, panel := s.controller.panel.execute c } := by
  simp only [handedBy] at h
  split at h
  case isTrue hne =>
    obtain rfl := Option.some.inj h
    show s.controller.timerInterrupt = _
    rw [Controller.timerInterrupt, if_pos hne]
    rfl
  case isFalse => cases h

theorem timer_idle {s : Machine} (h : s.handedBy .timer = none) : s.step .timer = s := by
  simp only [handedBy] at h
  split at h
  case isTrue => cases h
  case isFalse heq =>
    show { s with controller := s.controller.timerInterrupt } = s
    rw [Controller.timerInterrupt, if_neg heq]

theorem receive_controller (s : Machine) (bytes : List UInt8) :
    (s.step (.receive bytes)).controller =
      { s.controller with
        wire := []
        buffer := (s.controller.wire ++ bytes).foldl Ring.push s.controller.buffer } := by
  show (Controller.twiReceive _) = _
  rw [Controller.twiReceive_eq]

/-- The foreground does nothing to the buffer. -/
theorem foreground_frame (s : Machine) :
    (s.step .foreground).controller.buffer = s.controller.buffer ∧
      (s.step .foreground).controller.wire = s.controller.wire := by
  simp only [step, foregroundStep]
  split <;> exact ⟨rfl, rfl⟩

end Machine

end Botgeddon.Firmware
