import Botgeddon.Firmware.IndexSafety
import Botgeddon.Firmware.ReceiveQueue

/-! What a frame of the host does to the panel, whole or in part.

A frame is the cursor command with argument 0 and three characters. Bytes get
lost on the bus or find the buffer full, and then the interpreter takes a
character for an argument or a command byte for one. As long as no character is
1, 2 or 3, an argument taken by mistake moves the cursor to the first digit or
does not move it (`Recoverable.execute`), and every whole frame that begins in
step ends in step. -/
namespace Botgeddon.Firmware

/-- The three characters of a frame. -/
structure Frame where
  s0 : UInt8
  s1 : UInt8
  s2 : UInt8
deriving DecidableEq

namespace Frame

/-- A register write of 0 to the cursor, and the characters. -/
def bytes (f : Frame) : List UInt8 := [0x79, 0x00, f.s0, f.s1, f.s2]

def digits (f : Frame) : Vector UInt8 3 := #v[f.s0, f.s1, f.s2]

/-- Every character is one the controller shows. -/
structure Shown (f : Frame) : Prop where
  s0 : Displayable f.s0
  s1 : Displayable f.s1
  s2 : Displayable f.s2

end Frame

/-! ### A whole frame -/

/-- The cursor command puts the cursor on the first digit. -/
theorem feed_home {p : Panel} (h : p.commandMode = 0) (bytes : List UInt8) :
    p.feed (0x79 :: 0x00 :: bytes) =
      Panel.feed { p with display := { p.display with cursor := 0 } } bytes := by
  obtain ⟨display, commandMode, eeprom, twiAddress⟩ := p
  obtain rfl : commandMode = 0 := h
  have hhome : ((Panel.mk display 0 eeprom twiAddress).execute 0x79).execute 0x00 =
      ⟨{ display with cursor := 0 }, 0, eeprom, twiAddress⟩ := rfl
  rw [Panel.feed_cons, Panel.feed_cons, hhome]

theorem store_three (digits : Vector UInt8 3) (decimals c0 c1 c2 : UInt8) :
    (((Display.mk digits decimals 0).store c0).store c1).store c2 = ⟨#v[c0, c1, c2], decimals, 0⟩ := by
  have hdigits : ((digits.set 0 c0).set 1 c1).set 2 c2 = #v[c0, c1, c2] := by
    apply Vector.ext
    intro i hi
    have hcases : i = 0 ∨ i = 1 ∨ i = 2 := by omega
    rcases hcases with rfl | rfl | rfl <;> simp
  simp only [Display.store, Display.put]
  simpa using hdigits

/-- Three characters fill the digits and bring the cursor back. -/
theorem feed_characters {p : Panel} (hmode : p.commandMode = 0) (hcursor : p.display.cursor = 0)
    {c0 c1 c2 : UInt8} (h0 : Displayable c0) (h1 : Displayable c1) (h2 : Displayable c2) :
    p.feed [c0, c1, c2] = { p with display := ⟨#v[c0, c1, c2], p.display.decimals, 0⟩ } := by
  obtain ⟨⟨digits, decimals, cursor⟩, commandMode, eeprom, twiAddress⟩ := p
  obtain rfl : commandMode = 0 := hmode
  obtain rfl : cursor = 0 := hcursor
  rw [Panel.feed_cons, Panel.execute_data rfl h0, Panel.feed_cons, Panel.execute_data rfl h1,
    Panel.feed_cons, Panel.execute_data rfl h2, Panel.feed_nil]
  simp only [store_three]

/-- A frame that begins in step fills the digits. -/
theorem feed_frame {p : Panel} (hmode : p.commandMode = 0) {f : Frame} (h : f.Shown) :
    p.feed f.bytes = { p with display := ⟨f.digits, p.display.decimals, 0⟩ } := by
  rw [Frame.bytes, feed_home hmode]
  exact @feed_characters { p with display := { p.display with cursor := 0 } } hmode rfl
    _ _ _ h.s0 h.s1 h.s2

/-! ### Frames with bytes missing -/

/-- A character that an argument of the cursor command taken by mistake may be: not
1, 2 or 3, which would put the cursor there. -/
def Harmless (c : UInt8) : Prop := c = 0 ∨ (4 ≤ c ∧ c ≤ 0x75) ∨ c = 0x78

structure Frame.Harmless (f : Frame) : Prop where
  s0 : Firmware.Harmless f.s0
  s1 : Firmware.Harmless f.s1
  s2 : Firmware.Harmless f.s2

theorem Harmless.displayable {c : UInt8} (h : Harmless c) : Displayable c := by
  rcases h with rfl | ⟨-, hle⟩ | rfl
  · exact .inl (by decide)
  · exact .inl (UInt8.lt_of_le_of_lt hle (by decide))
  · exact .inr rfl

/-- As an argument of the cursor command it has no effect, unless it is 0. -/
theorem Harmless.past_digits {c : UInt8} (h : Harmless c) (hc : c ≠ 0) : ¬ c ≤ 3 := by
  rcases h with rfl | ⟨hge, -⟩ | rfl
  · exact absurd rfl hc
  · exact UInt8.not_le.mpr (UInt8.lt_of_lt_of_le (by decide) hge)
  · decide

theorem Frame.Harmless.shown {f : Frame} (h : f.Harmless) : f.Shown :=
  ⟨h.s0.displayable, h.s1.displayable, h.s2.displayable⟩

theorem Frame.Harmless.mem_bytes {f : Frame} (h : f.Harmless) {c : UInt8} (hc : c ∈ f.bytes) :
    c = cursorCmd ∨ Firmware.Harmless c := by
  simp only [Frame.bytes, List.mem_cons, List.not_mem_nil, or_false] at hc
  rcases hc with rfl | rfl | rfl | rfl | rfl
  · exact .inl rfl
  · exact .inr (.inl rfl)
  · exact .inr h.s0
  · exact .inr h.s1
  · exact .inr h.s2

/-- The panel, having been `p₀`, waits for a byte or for the argument of a cursor
command, and nothing but digits and cursor has changed. -/
structure Recoverable (p₀ p : Panel) : Prop where
  commandMode : p.commandMode = 0 ∨ p.commandMode = cursorCmd
  cursor : p.display.cursor < 3
  decimals : p.display.decimals = p₀.display.decimals
  eeprom : p.eeprom = p₀.eeprom
  twiAddress : p.twiAddress = p₀.twiAddress

/-- A byte of a frame keeps it so, wherever in a frame it comes from. -/
theorem Recoverable.execute {p₀ p : Panel} (h : Recoverable p₀ p) {c : UInt8}
    (hc : c = cursorCmd ∨ Harmless c) : Recoverable p₀ (p.execute c) := by
  by_cases hmode : p.commandMode = 0
  · by_cases hdata : Displayable c
    · rw [Panel.execute_data hmode hdata, Display.store_eq h.cursor]
      exact ⟨h.commandMode, Nat.mod_lt _ (by decide), h.decimals, h.eeprom, h.twiAddress⟩
    · obtain rfl : c = cursorCmd := hc.resolve_right fun hharm => hdata hharm.displayable
      rw [Panel.execute_enter hmode hdata, if_neg (by decide)]
      exact ⟨.inr rfl, h.cursor, h.decimals, h.eeprom, h.twiAddress⟩
  · -- The byte is an argument: 0 moves the cursor to the first digit, the others do nothing.
    have hcursor : p.commandMode = cursorCmd := h.commandMode.resolve_left hmode
    have hcommand : p.command c =
        if c ≤ 3 then { p with display := { p.display with cursor := c.toNat } } else p := by
      unfold Panel.command
      rw [if_neg (by rw [hcursor]; decide), if_pos hcursor]
    rw [Panel.execute_command hmode, hcommand]
    split
    case isTrue hle =>
      have hzero : c = 0 := by
        by_contra hne
        rcases hc with rfl | hharm
        · exact absurd hle (by decide)
        · exact hharm.past_digits hne hle
      subst hzero
      exact ⟨.inl rfl, Nat.zero_lt_succ _, h.decimals, h.eeprom, h.twiAddress⟩
    case isFalse => exact ⟨.inl rfl, h.cursor, h.decimals, h.eeprom, h.twiAddress⟩

theorem Recoverable.feed {p₀ p : Panel} (h : Recoverable p₀ p) {bytes : List UInt8}
    (hbytes : ∀ c ∈ bytes, c = cursorCmd ∨ Harmless c) : Recoverable p₀ (p.feed bytes) := by
  induction bytes generalizing p with
  | nil => exact h
  | cons c bytes ih =>
    exact ih (h.execute (hbytes c List.mem_cons_self)) fun d hd => hbytes d (List.mem_cons_of_mem c hd)

theorem mem_frames {frames : List Frame} (h : ∀ f ∈ frames, f.Harmless) {c : UInt8}
    (hc : c ∈ frames.flatMap Frame.bytes) : c = cursorCmd ∨ Harmless c := by
  obtain ⟨f, hf, hcf⟩ := List.mem_flatMap.mp hc
  exact (h f hf).mem_bytes hcf

/-- Whatever is missing of the frames, every part of the rest is survived. -/
theorem feed_lossy {p : Panel} (hmode : p.commandMode = 0) (hcursor : p.display.cursor < 3)
    {frames : List Frame} (h : ∀ f ∈ frames, f.Harmless) {stream : List UInt8}
    (hlossy : stream.Sublist (frames.flatMap Frame.bytes)) : Recoverable p (p.feed stream) := by
  have hnow : Recoverable p p := ⟨.inl hmode, hcursor, rfl, rfl, rfl⟩
  exact hnow.feed fun c hc => mem_frames h (hlossy.subset hc)

theorem feed_data_commandMode {p : Panel} (hmode : p.commandMode = 0) {bytes : List UInt8}
    (h : ∀ c ∈ bytes, Displayable c) : (p.feed bytes).commandMode = 0 := by
  induction bytes generalizing p with
  | nil => exact hmode
  | cons c bytes ih =>
    rw [Panel.feed_cons, Panel.execute_data hmode (h c List.mem_cons_self)]
    exact @ih { p with display := p.display.store c } hmode fun d hd => h d (List.mem_cons_of_mem c hd)

/-- Out of step, the first byte of a frame is an argument and ends the command; the
rest of the frame is characters. -/
theorem feed_out_of_step {p : Panel} (hmode : p.commandMode ≠ 0) {f : Frame} (h : f.Shown) :
    (p.feed f.bytes).commandMode = 0 := by
  rw [Frame.bytes, Panel.feed_cons, Panel.execute_command hmode]
  refine feed_data_commandMode rfl fun c hc => ?_
  simp only [List.mem_cons, List.not_mem_nil, or_false] at hc
  rcases hc with rfl | rfl | rfl | rfl
  · exact .inl (by decide)
  · exact h.s0
  · exact h.s1
  · exact h.s2

/-- One frame brings any panel into step. -/
theorem feed_frame_commandMode (p : Panel) {f : Frame} (h : f.Shown) : (p.feed f.bytes).commandMode = 0 := by
  by_cases hmode : p.commandMode = 0
  · rw [feed_frame hmode h]
    exact hmode
  · exact feed_out_of_step hmode h

/-- The panel shows the frame and waits for the next. -/
structure Shows (p : Panel) (f : Frame) : Prop where
  digits : p.display.digits = f.digits
  cursor : p.display.cursor = 0
  commandMode : p.commandMode = 0

theorem shows_frame {p : Panel} (hmode : p.commandMode = 0) {f : Frame} (h : f.Shown) :
    Shows (p.feed f.bytes) f := by
  rw [feed_frame hmode h]
  exact ⟨rfl, rfl, hmode⟩

/-- **The link recovers.** Whatever bytes of the frames get lost, at every point the
panel waits for a byte or for the argument of a cursor command, the cursor is on a
digit, and decimals and address are as they were; and any panel at all shows the
second of two whole frames, or the first if it waits for no argument. -/
theorem link_recovers :
    (∀ (p : Panel) (frames : List Frame) (stream seen : List UInt8), p.commandMode = 0 →
      p.display.cursor < 3 → (∀ f ∈ frames, f.Harmless) → stream.Sublist (frames.flatMap Frame.bytes) →
        seen <+: stream → Recoverable p (p.feed seen)) ∧
      (∀ (p : Panel) (f g : Frame), f.Harmless → g.Harmless → Shows (p.feed (f.bytes ++ g.bytes)) g) ∧
      ∀ (p : Panel) (f : Frame), p.commandMode = 0 → f.Harmless → Shows (p.feed f.bytes) f := by
  refine ⟨?_, ?_, ?_⟩
  · intro p frames stream seen hmode hcursor hframes hlossy hseen
    exact feed_lossy hmode hcursor hframes (hseen.sublist.trans hlossy)
  · intro p f g hf hg
    rw [Panel.feed_append]
    exact shows_frame (feed_frame_commandMode p hf.shown) hg.shown
  · intro p f hmode hf
    exact shows_frame hmode hf.shown

/-- "0:42" without its cursor argument, from which "0:41" recovers; and "0:41" twice
from a panel that waits for an address. -/
theorem link_recovers_example :
    Recoverable setUp.controller.panel (setUp.controller.panel.feed [0x79, 0x30, 0x34, 0x32]) ∧
      Shows ((Panel.mk ⟨#v[1, 2, 3], 0, 3⟩ 0x80 0x61 0x61).feed
        (Frame.bytes ⟨0x30, 0x34, 0x31⟩ ++ Frame.bytes ⟨0x30, 0x34, 0x31⟩)) ⟨0x30, 0x34, 0x31⟩ := by
  have hdigit : ∀ c : UInt8, c = 0x30 ∨ c = 0x31 ∨ c = 0x32 ∨ c = 0x34 → Harmless c := by
    rintro c (rfl | rfl | rfl | rfl) <;> exact .inr (.inl (by decide))
  have hlast : Frame.Harmless ⟨0x30, 0x34, 0x31⟩ :=
    ⟨hdigit _ (by decide), hdigit _ (by decide), hdigit _ (by decide)⟩
  refine ⟨link_recovers.1 _ [⟨0x30, 0x34, 0x32⟩] [0x79, 0x30, 0x34, 0x32] _ (by decide) (by decide) ?_
    (by decide) (List.prefix_refl _), link_recovers.2.1 _ _ _ hlast hlast⟩
  intro f hf
  obtain rfl := List.mem_singleton.mp hf
  exact ⟨hdigit _ (by decide), hdigit _ (by decide), hdigit _ (by decide)⟩

/-! ### Through the buffer -/

/-- The bytes handed to `updateBufferData` are bytes received, in order. -/
theorem handed_sublist {s : Machine} (h : Started s) (events : List Event) :
    (s.handed events).Sublist (received events) := by
  obtain ⟨-, hhanded⟩ := h.refines.run events
  have haccepted := Fifo.accepted_sublist capacity Fifo.empty (ops events)
  rw [arrivals_flatMap] at haccepted
  have hserved : s.handed events = (Fifo.empty.run capacity (ops events)).handed := hhanded.symm
  rw [hserved]
  exact (List.sublist_append_left _ _).trans haccepted

/-- A controller that is sent frames, of which the bus may lose bytes and the full
buffer drops some, stays recoverable. -/
theorem run_recoverable {s : Machine} (h : Started s) (hmode : s.controller.panel.commandMode = 0)
    (hcursor : s.controller.panel.display.cursor < 3) {frames : List Frame}
    (hframes : ∀ f ∈ frames, f.Harmless) {events : List Event}
    (hlossy : (received events).Sublist (frames.flatMap Frame.bytes)) :
    Recoverable s.controller.panel (s.run events).controller.panel := by
  obtain ⟨hrun, hhanded⟩ := h.refines.run events
  have hpanel : (s.run events).controller.panel = s.controller.panel.feed (s.handed events) := by
    rw [hrun.panel, hhanded]
    rfl
  rw [hpanel]
  exact feed_lossy hmode hcursor hframes ((handed_sublist h events).trans hlossy)

end Botgeddon.Firmware
