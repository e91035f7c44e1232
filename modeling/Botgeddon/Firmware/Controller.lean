import Botgeddon.Lib.Ring

/-! The segment controller's globals and what the received bytes do to them.

Bytes come in over I2C into a ring buffer, and a timer interrupt takes them out
one at a time. A byte is a character to show, or a command that may take the
next byte as its argument. -/
namespace Botgeddon.Firmware

/-- `BUFFER_SIZE`. -/
abbrev bufferSize : ℕ := 64

def twiAddressDefault : UInt8 := 0x61

/-! ### Command bytes -/

def resetCmd : UInt8 := 0x76
def decimalCmd : UInt8 := 0x77
def cursorCmd : UInt8 := 0x79
def digit1Cmd : UInt8 := 0x7B
def digit2Cmd : UInt8 := 0x7C
def digit3Cmd : UInt8 := 0x7D
def twiAddressCmd : UInt8 := 0x80

/-- A byte that is shown when no command waits for it. -/
def Displayable (c : UInt8) : Prop := c < 0x76 ∨ c = 0x78

instance (c : UInt8) : Decidable (Displayable c) := inferInstanceAs (Decidable (_ ∨ _))

structure Display where
  digits : Vector UInt8 3
  decimals : UInt8
  cursor : ℕ
deriving DecidableEq

/-- What the received bytes act on: the display, the command mode, the EEPROM cell
with the I2C address, and the address the controller answers to. -/
structure Panel where
  display : Display
  commandMode : UInt8
  eeprom : UInt8
  twiAddress : UInt8
deriving DecidableEq

namespace Display

/-- `display.digits[display.cursor] = c`. The byte after the three digits is
`decimals`; the cursor is never beyond that one. -/
def put (d : Display) (c : UInt8) : Display :=
  if h : d.cursor < 3 then { d with digits := d.digits.set d.cursor c }
  else if d.cursor = 3 then { d with decimals := c }
  else d

/-- A character goes where the cursor is, and the cursor to the next digit. -/
def store (d : Display) (c : UInt8) : Display :=
  { d.put c with cursor := ((d.put c).cursor + 1) % 3 }

def reset (_d : Display) : Display := ⟨#v[0x78, 0x78, 0x78], 0, 0⟩

theorem store_cursor (d : Display) (c : UInt8) : (d.store c).cursor = (d.cursor + 1) % 3 := by
  unfold store put
  split
  · rfl
  · split <;> rfl

theorem store_cursor_lt (d : Display) (c : UInt8) : (d.store c).cursor < 3 :=
  Nat.mod_lt _ (by decide)

/-- With the cursor on a digit, a character changes that digit and no other member
but the cursor. -/
theorem store_eq {d : Display} (h : d.cursor < 3) (c : UInt8) :
    d.store c = ⟨d.digits.set d.cursor c, d.decimals, (d.cursor + 1) % 3⟩ := by
  simp only [store, put, dif_pos h]

end Display

theorem getElem!_set (v : Vector UInt8 3) {i j : ℕ} (hi : i < 3) (hj : j < 3) (c : UInt8) :
    (v.set j c)[i]! = if i = j then c else v[i]! := by
  rw [getElem!_pos (v.set j c) i hi, Vector.getElem_set hj hi, getElem!_pos v i hi]
  exact if_congr eq_comm rfl rfl

namespace Panel

/-- `setupTWI`: an invalid address in the EEPROM is replaced by the default. -/
def setupTWI (p : Panel) : Panel :=
  if p.eeprom = 0 ∨ p.eeprom > 0x7F then
    { p with eeprom := twiAddressDefault, twiAddress := twiAddressDefault }
  else { p with twiAddress := p.eeprom }

/-- The `switch` over the command modes, with argument `c`. -/
def command (p : Panel) (c : UInt8) : Panel :=
  if p.commandMode = decimalCmd then { p with display := { p.display with decimals := c } }
  else if p.commandMode = cursorCmd then
    if c ≤ 3 then { p with display := { p.display with cursor := c.toNat } } else p
  else if p.commandMode = twiAddressCmd then setupTWI { p with eeprom := c }
  else if p.commandMode = digit1Cmd then
    { p with display := { p.display with digits := p.display.digits.set 0 (c ||| 0x80) } }
  else if p.commandMode = digit2Cmd then
    { p with display := { p.display with digits := p.display.digits.set 1 (c ||| 0x80) } }
  else if p.commandMode = digit3Cmd then
    { p with display := { p.display with digits := p.display.digits.set 2 (c ||| 0x80) } }
  else p

/-- `updateBufferData` on the byte `c` it took from the buffer. -/
def execute (p : Panel) (c : UInt8) : Panel :=
  if p.commandMode = 0 ∧ Displayable c then { p with display := p.display.store c }
  else if c = resetCmd ∧ p.commandMode = 0 then { p with display := p.display.reset }
  else if p.commandMode ≠ 0 then { p.command c with commandMode := 0 }
  else { p with commandMode := c }

/-- Bytes acting one after the other. -/
def feed (p : Panel) (bytes : List UInt8) : Panel := bytes.foldl execute p

@[simp] theorem feed_nil (p : Panel) : p.feed [] = p := rfl

@[simp] theorem feed_cons (p : Panel) (c : UInt8) (bytes : List UInt8) :
    p.feed (c :: bytes) = (p.execute c).feed bytes := rfl

theorem feed_append (p : Panel) (bytes bytes' : List UInt8) :
    p.feed (bytes ++ bytes') = (p.feed bytes).feed bytes' := List.foldl_append

theorem execute_data {p : Panel} {c : UInt8} (hmode : p.commandMode = 0) (hc : Displayable c) :
    p.execute c = { p with display := p.display.store c } := if_pos ⟨hmode, hc⟩

theorem execute_command {p : Panel} (hmode : p.commandMode ≠ 0) (c : UInt8) :
    p.execute c = { p.command c with commandMode := 0 } := by
  unfold execute
  rw [if_neg (fun h => hmode h.1), if_neg (fun h => hmode h.2), if_pos hmode]

/-- A byte that is not shown starts a command, but for the reset, which is one. -/
theorem execute_enter {p : Panel} {c : UInt8} (hmode : p.commandMode = 0) (hc : ¬ Displayable c) :
    p.execute c = if c = resetCmd then { p with display := p.display.reset }
      else { p with commandMode := c } := by
  unfold execute
  rw [if_neg (fun h => hc h.2), if_neg (not_not.mpr hmode)]
  simp only [hmode, and_true]

end Panel

/-- The globals the two interrupts share, and the bytes of the current I2C
transaction that `Wire` still holds. -/
structure Controller where
  buffer : Ring UInt8 bufferSize
  wire : List UInt8
  panel : Panel

namespace Controller

/-- `while (Wire.available())`, from the bytes `Wire` holds: what it holds
afterwards, and the buffer. A byte that finds no room is read and dropped. -/
def receiveLoop : List UInt8 → Ring UInt8 bufferSize → List UInt8 × Ring UInt8 bufferSize
  | [], buffer => ([], buffer)
  | c :: rest, buffer => receiveLoop rest (buffer.push c)

def twiReceive (s : Controller) : Controller :=
  { s with
    wire := (receiveLoop s.wire s.buffer).1
    buffer := (receiveLoop s.wire s.buffer).2 }

def updateBufferData (s : Controller) : Controller :=
  { s with buffer := s.buffer.pop, panel := s.panel.execute s.buffer.oldest }

/-- `ISR(TIMER1_COMPA_vect)`. -/
def timerInterrupt (s : Controller) : Controller :=
  if s.buffer.head ≠ s.buffer.tail then s.updateBufferData else s

/-- A transaction: `Wire` collects its bytes and calls `twiReceive`. -/
def receive (s : Controller) (bytes : List UInt8) : Controller :=
  twiReceive { s with wire := s.wire ++ bytes }

theorem receiveLoop_eq (wire : List UInt8) (buffer : Ring UInt8 bufferSize) :
    receiveLoop wire buffer = ([], wire.foldl Ring.push buffer) := by
  induction wire generalizing buffer with
  | nil => rfl
  | cons c rest ih => exact ih (buffer.push c)

/-- `twiReceive` leaves `Wire` empty. -/
theorem twiReceive_eq (s : Controller) :
    s.twiReceive = { s with wire := [], buffer := s.wire.foldl Ring.push s.buffer } := by
  rw [twiReceive, receiveLoop_eq]

end Controller

end Botgeddon.Firmware
