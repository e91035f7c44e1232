import Botgeddon.Firmware.Machine

/-! Where the bytes go.

The received bytes are not trusted, and they decide where the next character is
stored: the cursor is set by the character before, by the reset and by the
cursor command. The first two keep it on a digit. The command's check lets 3
through as well, and with the cursor there the next character lands in the
member after the digits. -/
namespace Botgeddon.Firmware

/-- The cursor is on a digit, and the pointers of the buffer are inside it. -/
structure IndexSafe (s : Machine) : Prop where
  cursor : s.controller.panel.display.cursor < 3
  head : s.controller.buffer.head < bufferSize
  tail : s.controller.buffer.tail < bufferSize

/-- A character taken from the buffer changes one digit and no other member of the
display but the cursor. -/
def StoresInDigits (s : Machine) (e : Event) : Prop :=
  ∀ c, s.handedBy e = some c → s.controller.panel.commandMode = 0 → Displayable c →
    ∃ h : s.controller.panel.display.cursor < 3,
      (s.step e).controller.panel = { s.controller.panel with
        display := { s.controller.panel.display with
          digits := s.controller.panel.display.digits.set s.controller.panel.display.cursor c h
          cursor := (s.controller.panel.display.cursor + 1) % 3 } }

/-- The entry of the table the event looks up. -/
def Machine.looksUp (s : Machine) : Event → Option ℕ
  | .foreground =>
    match s.foreground with
    | .post _ segments => lookup segments
    | _ => none
  | _ => none

/-- The event stays within the digits, the buffer and the table. -/
structure StaysInside (s : Machine) (e : Event) : Prop where
  next : IndexSafe (s.step e)
  stores : StoresInDigits s e
  looksUp : ∀ i ∈ s.looksUp e, i < 128

/-- The argument 3 of a cursor command is taken from the buffer. -/
def SetsCursorPastDigits (s : Machine) (e : Event) : Prop :=
  s.handedBy e = some 3 ∧ s.controller.panel.commandMode = cursorCmd

/-! ### The cursor -/

/-- Only a cursor command moves the cursor, and not to an argument past 3. -/
theorem command_cursor_eq {p : Panel} {c : UInt8} (h : p.commandMode = cursorCmd → ¬ c ≤ 3) :
    (p.command c).display.cursor = p.display.cursor := by
  unfold Panel.command Panel.setupTWI
  split_ifs with hdecimal hcursor hle <;> first | rfl | exact absurd hle (h hcursor)

/-- Only the argument 3 of a cursor command puts the cursor past the digits. -/
theorem command_cursor (p : Panel) (c : UInt8) (h : p.display.cursor < 3) :
    (p.command c).display.cursor < 3 ↔ ¬ (p.commandMode = cursorCmd ∧ c = 3) := by
  have heq : c = 3 ↔ c.toNat = 3 := ⟨fun h => by rw [h]; rfl, fun h => UInt8.toNat_inj.mp h⟩
  by_cases hmoves : p.commandMode = cursorCmd ∧ c ≤ 3
  · obtain ⟨hcursor, hc⟩ := hmoves
    have hle : c.toNat ≤ 3 := hc
    have hmoved : (p.command c).display.cursor = c.toNat := by
      unfold Panel.command
      rw [if_neg (by rw [hcursor]; decide), if_pos hcursor, if_pos hc]
    rw [hmoved, and_iff_right hcursor, heq]
    omega
  · rw [command_cursor_eq fun hcursor hc => hmoves ⟨hcursor, hc⟩]
    refine iff_of_true h ?_
    rintro ⟨hcursor, rfl⟩
    exact hmoves ⟨hcursor, by decide⟩

theorem execute_cursor (p : Panel) (c : UInt8) (h : p.display.cursor < 3) :
    (p.execute c).display.cursor < 3 ↔ ¬ (p.commandMode = cursorCmd ∧ c = 3) := by
  by_cases hmode : p.commandMode = 0
  · have hnot : ¬ (p.commandMode = cursorCmd ∧ c = 3) := by
      rw [hmode]
      exact fun hboth => absurd hboth.1 (by decide)
    refine iff_of_true ?_ hnot
    by_cases hc : Displayable c
    · rw [Panel.execute_data hmode hc]
      exact Display.store_cursor_lt _ _
    · rw [Panel.execute_enter hmode hc]
      split
      · exact Nat.zero_lt_succ _
      · exact h
  · rw [Panel.execute_command hmode]
    exact command_cursor p c h

/-! ### The pointers of the buffer -/

theorem push_pointers {b : Ring UInt8 bufferSize} (h : b.head < bufferSize) (c : UInt8) :
    (b.push c).head < bufferSize ∧ (b.push c).tail = b.tail := by
  unfold Ring.push
  split
  · exact ⟨Nat.mod_lt _ (by decide), rfl⟩
  · exact ⟨h, rfl⟩

theorem pushes_pointers {b : Ring UInt8 bufferSize} (h : b.head < bufferSize) (bytes : List UInt8) :
    (bytes.foldl Ring.push b).head < bufferSize ∧ (bytes.foldl Ring.push b).tail = b.tail := by
  induction bytes generalizing b with
  | nil => exact ⟨h, rfl⟩
  | cons c bytes ih =>
    obtain ⟨hhead, htail⟩ := push_pointers h c
    obtain ⟨hhead', htail'⟩ := ih hhead
    exact ⟨hhead', htail'.trans htail⟩

/-! ### Every event -/

theorem lookup_lt {segments : UInt8} {i : ℕ} (h : lookup segments = some i) : i < 128 := by
  have hall : ∀ n < 256, UInt8.ofNat n &&& 0x80 = 0 → n < 128 := by decide +kernel
  simp only [lookup] at h
  split at h
  case isTrue => cases h
  case isFalse hraw =>
    obtain rfl := Option.some.inj h
    refine hall segments.toNat segments.toNat_lt ?_
    rw [UInt8.ofNat_toNat]
    exact not_not.mp hraw

theorem looksUp_lt (s : Machine) (e : Event) : ∀ i ∈ s.looksUp e, i < 128 := by
  intro i hi
  cases e with
  | foreground =>
    simp only [Machine.looksUp] at hi
    split at hi
    · exact lookup_lt hi
    · cases hi
  | receive | timer => cases hi

theorem foreground_cursor (s : Machine) :
    (s.step .foreground).controller.panel.display.cursor = s.controller.panel.display.cursor := by
  simp only [Machine.step, Machine.foregroundStep]
  split <;> rfl

/-- A safe state stays safe unless the cursor is sent past the digits. -/
theorem indexSafe_step {s : Machine} (h : IndexSafe s) (e : Event) :
    IndexSafe (s.step e) ↔ ¬ SetsCursorPastDigits s e := by
  cases e with
  | receive bytes =>
    refine iff_of_true ?_ fun hsets => by cases hsets.1
    obtain ⟨hhead, htail⟩ := pushes_pointers h.head (s.controller.wire ++ bytes)
    refine ⟨?_, ?_, ?_⟩ <;> rw [s.receive_controller bytes]
    · exact h.cursor
    · exact hhead
    · rw [htail]
      exact h.tail
  | foreground =>
    refine iff_of_true ?_ fun hsets => by cases hsets.1
    obtain ⟨hbuffer, -⟩ := s.foreground_frame
    exact ⟨by rw [foreground_cursor]; exact h.cursor, by rw [hbuffer]; exact h.head,
      by rw [hbuffer]; exact h.tail⟩
  | timer =>
    cases hc : s.handedBy .timer with
    | none =>
      rw [Machine.timer_idle hc]
      exact iff_of_true h fun hsets => by cases hc.symm.trans hsets.1
    | some c =>
      have hcontroller := Machine.timer_controller hc
      have hcursor := execute_cursor s.controller.panel c h.cursor
      have hsets : SetsCursorPastDigits s .timer ↔ s.controller.panel.commandMode = cursorCmd ∧ c = 3 := by
        rw [SetsCursorPastDigits, hc, Option.some_inj, and_comm]
      rw [hsets, ← hcursor]
      refine ⟨fun hsafe => ?_, fun hlt => ⟨?_, ?_, ?_⟩⟩
      · have hlt := hsafe.cursor
        rw [hcontroller] at hlt
        exact hlt
      · rw [hcontroller]
        exact hlt
      · rw [hcontroller]
        exact h.head
      · rw [hcontroller]
        exact Nat.mod_lt _ (by decide)

/-- With the cursor on a digit, a character goes into that digit. -/
theorem storesInDigits {s : Machine} (h : IndexSafe s) (e : Event) : StoresInDigits s e := by
  intro c hc hmode hdata
  cases e with
  | receive | foreground => cases hc
  | timer =>
    refine ⟨h.cursor, ?_⟩
    rw [Machine.timer_controller hc]
    show s.controller.panel.execute c = _
    rw [Panel.execute_data hmode hdata, Display.store_eq h.cursor]

theorem staysInside_iff {s : Machine} (h : IndexSafe s) (e : Event) :
    StaysInside s e ↔ ¬ SetsCursorPastDigits s e :=
  ⟨fun hin => (indexSafe_step h e).mp hin.next,
    fun hsets => ⟨(indexSafe_step h e).mpr hsets, storesInDigits h e, looksUp_lt s e⟩⟩

theorem boot_indexSafe (eeprom : UInt8) : IndexSafe (Machine.boot eeprom) := by
  refine ⟨?_, Nat.zero_lt_succ _, Nat.zero_lt_succ _⟩
  show (Panel.setupTWI _).display.cursor < 3
  unfold Panel.setupTWI
  split <;> exact Nat.zero_lt_succ _

/-- **Index safety.** From power-on, whatever is received and however it interleaves,
every event stays inside exactly as long as no cursor command with argument 3 is
executed. -/
theorem index_safe_iff (eeprom : UInt8) (events : List Event) :
    Along Machine.step StaysInside (Machine.boot eeprom) events ↔
      Along Machine.step (fun s e => ¬ SetsCursorPastDigits s e) (Machine.boot eeprom) events :=
  Along.congr (fun _ e h => staysInside_iff h e) (fun _ _ _ hin => hin.next) (boot_indexSafe eeprom)

/-- A cursor command with argument 3, and then the character '1'. -/
def strayEvents : List Event := [.receive [0x79, 0x03, 0x31], .timer, .timer, .timer]

/-- The character changes the decimals and no digit. -/
theorem stray_character :
    ((Machine.boot 0x61).run (strayEvents.take 3)).controller.panel.display = ⟨#v[0, 0, 0], 0, 3⟩ ∧
      ((Machine.boot 0x61).run strayEvents).controller.panel.display = ⟨#v[0, 0, 0], 0x31, 1⟩ ∧
      ¬ Along Machine.step StaysInside (Machine.boot 0x61) strayEvents := by
  refine ⟨by decide, by decide, fun h => ?_⟩
  have hsafe := (Along.iff_forall_initial.mp h [.receive [0x79, 0x03, 0x31], .timer] .timer [.timer] rfl).next
  exact absurd hsafe.cursor (by decide)

end Botgeddon.Firmware
