import Botgeddon.Arena.Timer
import Botgeddon.Firmware.Frames

/-! The big display: what the host shows against what the controller holds.

Every iteration of `main`'s loop sends the controller a cursor command and three
characters, in one stream of bytes in which characters and commands are told
apart by their value alone. The minutes of a timer are a character with no bound
of its own, so a time far enough from the range of a match is a command. -/
namespace Botgeddon
open Arena Firmware Conversions

/-- What an iteration writes to the big display: a register write, and the first
three characters. -/
def sent (s : SegmentLedState) : List UInt8 :=
  [0x79, 0x00, s.char 0, s.char 1, s.char 2]

/-! ### One iteration's bytes -/

/-- A command where the first character should be swallows the second or clears the
display: the cursor is not back on the first digit. -/
theorem feed_command {p : Panel} (hmode : p.commandMode = 0) (hcursor : p.display.cursor = 0)
    {c0 c1 c2 : UInt8} (h0 : ¬ Displayable c0) (h1 : Displayable c1) (h1' : 3 < c1)
    (h2 : Displayable c2) : (p.feed [c0, c1, c2]).display.cursor ≠ 0 := by
  obtain ⟨display, commandMode, eeprom, twiAddress⟩ := p
  obtain rfl : commandMode = 0 := hmode
  have hcursor : display.cursor = 0 := hcursor
  rw [Panel.feed_cons, Panel.execute_enter rfl h0]
  by_cases hreset : c0 = resetCmd
  · rw [if_pos hreset, Panel.feed_cons, Panel.execute_data rfl h1, Panel.feed_cons,
      Panel.execute_data rfl h2, Panel.feed_nil]
    show ((display.reset.store c1).store c2).cursor ≠ 0
    rw [Display.store_cursor, Display.store_cursor, show display.reset.cursor = 0 from rfl]
    decide
  · have hc0 : c0 ≠ 0 := by
      rintro rfl
      exact h0 (.inl (by decide))
    have hswallow : ((Panel.mk display c0 eeprom twiAddress).command c1).display.cursor = 0 := by
      rw [command_cursor_eq fun _ => UInt8.not_le.mpr h1']
      exact hcursor
    rw [if_neg hreset, Panel.feed_cons, Panel.execute_command hc0, Panel.feed_cons,
      Panel.execute_data rfl h2, Panel.feed_nil]
    show (Display.store _ c2).cursor ≠ 0
    rw [Display.store_cursor, hswallow]
    decide

/-! ### The characters an iteration shows -/

/-- The minutes of a time of `z` seconds make a character the controller shows. -/
def SafeMinutes (z : ℤ) : Prop := (48 + z.tdiv 60) % 256 < 118 ∨ (48 + z.tdiv 60) % 256 = 120

instance (z : ℤ) : Decidable (SafeMinutes z) := inferInstanceAs (Decidable (_ ∨ _))

theorem displayable_iff (c : UInt8) : Displayable c ↔ c.toNat < 118 ∨ c.toNat = 120 := by
  have heq : c = 0x78 ↔ c.toNat = 120 :=
    ⟨fun h => by rw [h]; rfl, fun h => UInt8.toNat_inj.mp h⟩
  rw [Displayable, heq]
  rfl

theorem displayable_minutes (z : ℤ) :
    Displayable ((timerSegments z).char 0) ↔ SafeMinutes z := by
  show Displayable (toByte (48 + toChar (z.tdiv 60))) ↔ _
  have hbyte := toByte_toNat (48 + z.tdiv 60)
  rw [toByte_add_toChar, displayable_iff, SafeMinutes]
  omega

theorem tdiv_ten_bounds {w : ℤ} (lo : -60 < w) (hi : w < 60) : -5 ≤ w.tdiv 10 ∧ w.tdiv 10 ≤ 5 := by
  rcases Int.le_total 0 w with hpos | hneg
  · rw [Int.tdiv_eq_ediv_of_nonneg hpos]
    omega
  · have hflip : (-w).tdiv 10 = -(w.tdiv 10) := Int.neg_tdiv w 10
    rw [Int.tdiv_eq_ediv_of_nonneg (by omega)] at hflip
    omega

/-- The tens of seconds are within five of '0', whatever the time. -/
theorem tens_toNat (z : ℤ) : 43 ≤ ((timerSegments z).char 1).toNat ∧
    ((timerSegments z).char 1).toNat ≤ 53 := by
  show 43 ≤ (toByte (48 + (toChar (z.tmod 60)).tdiv 10)).toNat ∧
    (toByte (48 + (toChar (z.tmod 60)).tdiv 10)).toNat ≤ 53
  have hlo : -60 < z.tmod 60 := Int.lt_tmod_of_pos z (by decide)
  have hhi : z.tmod 60 < 60 := Int.tmod_lt_of_pos z (by decide)
  have hten := tdiv_ten_bounds hlo hhi
  have hbyte := toByte_toNat (48 + (z.tmod 60).tdiv 10)
  rw [toChar_of_small (by omega) (by omega)]
  omega

/-- The seconds are within nine of it. -/
theorem units_toNat (z : ℤ) : ((timerSegments z).char 2).toNat ≤ 57 := by
  show (toByte (48 + toChar (z.tmod 10))).toNat ≤ 57
  have hlo : -10 < z.tmod 10 := Int.lt_tmod_of_pos z (by decide)
  have hhi : z.tmod 10 < 10 := Int.tmod_lt_of_pos z (by decide)
  have hbyte := toByte_toNat (48 + z.tmod 10)
  rw [toChar_of_small (by omega) (by omega)]
  omega

/-- The controller takes the first three characters for characters. -/
def Plain (s : SegmentLedState) : Prop := ∀ i : Fin 3, Displayable (s.char i)

theorem plain_timer (z : ℤ) : Plain (timerSegments z) ↔ SafeMinutes z := by
  have hten := tens_toNat z
  have hunit := units_toNat z
  constructor
  · intro h
    exact (displayable_minutes z).mp (h 0)
  · intro h i
    match i with
    | 0 => exact (displayable_minutes z).mpr h
    | 1 => exact (displayable_iff _).mpr (.inl (show ((timerSegments z).char 1).toNat < 118 by omega))
    | 2 => exact (displayable_iff _).mpr (.inl (show ((timerSegments z).char 2).toNat < 118 by omega))

theorem plain_mk {c0 c1 c2 c3 dots : UInt8} (h0 : Displayable c0) (h1 : Displayable c1)
    (h2 : Displayable c2) : Plain ⟨#v[c0, c1, c2, c3], dots⟩ := by
  intro i
  match i with
  | 0 => exact h0
  | 1 => exact h1
  | 2 => exact h2

theorem displayable_digit {c : UInt8} (h : IsDigit c) : Displayable c := by
  obtain ⟨d, hd, rfl⟩ := h
  rw [displayable_iff, digit_toNat hd]
  omega

theorem feed_sent {p : Panel} (hmode : p.commandMode = 0) {s : SegmentLedState} (h : Plain s) :
    p.feed (sent s) = { p with
      display := ⟨#v[s.char 0, s.char 1, s.char 2], p.display.decimals, 0⟩ } := by
  rw [sent, feed_home hmode]
  exact @feed_characters { p with display := { p.display with cursor := 0 } } hmode rfl
    _ _ _ (h 0) (h 1) (h 2)

theorem feed_sent_swallowed {p : Panel} (hmode : p.commandMode = 0) {s : SegmentLedState}
    (h0 : ¬ Displayable (s.char 0)) (h1 : Displayable (s.char 1)) (h1' : (3 : UInt8) < s.char 1)
    (h2 : Displayable (s.char 2)) : (p.feed (sent s)).display.cursor ≠ 0 := by
  rw [sent, feed_home hmode]
  exact @feed_command { p with display := { p.display with cursor := 0 } } hmode rfl
    _ _ _ h0 h1 h1' h2

/-- A timer whose minutes are a command leaves the cursor elsewhere. -/
theorem feed_sent_command {p : Panel} (hmode : p.commandMode = 0) {z : ℤ} (h : ¬ SafeMinutes z) :
    (p.feed (sent (timerSegments z))).display.cursor ≠ 0 := by
  have hten := tens_toNat z
  have hunit := units_toNat z
  have h0 : ¬ Displayable ((timerSegments z).char 0) := fun hc => h ((displayable_minutes z).mp hc)
  have h1 : Displayable ((timerSegments z).char 1) := (displayable_iff _).mpr (.inl (by omega))
  have h1' : (3 : UInt8) < (timerSegments z).char 1 := by
    rw [UInt8.lt_iff_toNat_lt, show (3 : UInt8).toNat = 3 from rfl]
    omega
  have h2 : Displayable ((timerSegments z).char 2) := (displayable_iff _).mpr (.inl (by omega))
  exact feed_sent_swallowed hmode h0 h1 h1' h2

namespace Arena.Run

section Law

variable [Arithmetic]

theorem plain_fighting {r : Run} {n : ℕ} (h : r.phase (n + 1) = .Fighting) : Plain (r.shown n) := by
  rcases lt_or_ge 0 (r.timeLeft n) with hpos | hgone
  · exact fun i => displayable_digit ((shows_fighting h hpos).1.isDigit i)
  · obtain ⟨b, hb⟩ := LedAnimation.eq_fighting h
    rw [shown_fighting hb, if_neg (fun hceil => not_lt.mpr hgone (Int.ceil_pos.mp hceil))]
    exact plain_mk (.inl (by decide)) (.inl (by decide)) (.inl (by decide))

/-- Outside a pause everything shown is plain. -/
theorem plain_of_not_paused {r : Run} {n : ℕ} (h : r.phase (n + 1) ≠ .Paused) : Plain (r.shown n) := by
  cases hb : (r.state (n + 1)).state with
  | pausedAnim b => exact absurd (congrArg LedAnimation.arenaState hb) h
  | fighting b => exact plain_fighting (congrArg LedAnimation.arenaState hb)
  | xmasTree b =>
    rw [shown_eq, hb]
    simp only [LedAnimation.getSegmentLed, XmasTree.getSegmentLed]
    split <;> [skip; split] <;>
      exact plain_mk (.inl (by decide)) (.inl (by decide)) (.inl (by decide))
  | _ =>
    rw [shown_eq, hb]
    exact plain_mk (.inl (by decide)) (.inl (by decide)) (.inl (by decide))

/-- What iteration `n` may put on the display in a pause is a plain timer: what the
memory holds where a new pause shows it, and the record where a pause goes on. -/
structure TimesSafe (r : Run) (n : ℕ) : Prop where
  unassigned : r.Pauses n → SafeMinutes (r.input n).remTime
  overtime : r.phase n = .Paused → r.phase (n + 1) = .Paused → SafeMinutes ⌈r.timeRemaining n⌉

theorem plain_iff (r : Run) (n : ℕ) : Plain (r.shown n) ↔ r.TimesSafe n := by
  constructor
  · intro h
    refine ⟨fun hpauses => ?_, fun hfrom hto => ?_⟩
    · rwa [(shown_pausing hpauses).2, plain_timer] at h
    · rwa [shown_paused hfrom hto, plain_timer] at h
  · intro h
    by_cases hto : r.phase (n + 1) = .Paused
    · by_cases hfrom : r.phase n = .Paused
      · rw [shown_paused hfrom hto, plain_timer]
        exact h.overtime hfrom hto
      · have hpauses := enters_paused_from ⟨hfrom, hto⟩
        rw [(shown_pausing hpauses).2, plain_timer]
        exact h.unassigned hpauses
    · exact plain_of_not_paused hto

/-- What is not plain is a timer. -/
theorem shown_timer {r : Run} {n : ℕ} (h : ¬ Plain (r.shown n)) : ∃ z, r.shown n = timerSegments z := by
  have hto : r.phase (n + 1) = .Paused := by
    by_contra hto
    exact h (plain_of_not_paused hto)
  by_cases hfrom : r.phase n = .Paused
  · exact ⟨_, shown_paused hfrom hto⟩
  · exact ⟨_, (shown_pausing (enters_paused_from ⟨hfrom, hto⟩)).2⟩

/-! ### The display over a run -/

/-- The controller's panel when the bytes of the iterations before `n` have been
processed, from the panel `p`. -/
def panel (r : Run) (p : Panel) : ℕ → Panel
  | 0 => p
  | n + 1 => (r.panel p n).feed (sent (r.shown n))

/-- After iteration `n` the controller holds what the iteration showed, is ready for
the next, and has changed nothing else. -/
structure Agrees (r : Run) (p : Panel) (n : ℕ) : Prop where
  digits : (r.panel p (n + 1)).display.digits =
    #v[(r.shown n).char 0, (r.shown n).char 1, (r.shown n).char 2]
  cursor : (r.panel p (n + 1)).display.cursor = 0
  commandMode : (r.panel p (n + 1)).commandMode = 0
  decimals : (r.panel p (n + 1)).display.decimals = p.display.decimals
  eeprom : (r.panel p (n + 1)).eeprom = p.eeprom

/-- As long as everything shown is plain, the panel stays ready. -/
theorem panel_ready {r : Run} {p : Panel} (h : p.commandMode = 0) {n : ℕ}
    (hplain : ∀ k < n, Plain (r.shown k)) :
    (r.panel p n).commandMode = 0 ∧ (r.panel p n).display.decimals = p.display.decimals ∧
      (r.panel p n).eeprom = p.eeprom := by
  induction n with
  | zero => exact ⟨h, rfl, rfl⟩
  | succ n ih =>
    obtain ⟨hmode, hdecimals, heeprom⟩ := ih fun k hk => hplain k (Nat.lt_succ_of_lt hk)
    rw [panel, feed_sent hmode (hplain n (Nat.lt_succ_self n))]
    exact ⟨hmode, hdecimals, heeprom⟩

theorem agrees_of_timesSafe {r : Run} {p : Panel} (h : p.commandMode = 0) {N : ℕ}
    (hsafe : ∀ n < N, r.TimesSafe n) {n : ℕ} (hn : n < N) : r.Agrees p n := by
  have hplain : ∀ k < N, Plain (r.shown k) := fun k hk => (r.plain_iff k).mpr (hsafe k hk)
  obtain ⟨hmode, hdecimals, heeprom⟩ := panel_ready h fun k hk => hplain k (hk.trans hn)
  have hnext : r.panel p (n + 1) = _ := feed_sent hmode (hplain n hn)
  refine ⟨?_, ?_, ?_, ?_, ?_⟩ <;> rw [hnext]
  · exact hmode
  · exact hdecimals
  · exact heeprom

/-- An iteration that leaves the panel ready showed nothing that is a command. -/
theorem timesSafe_of_ready {r : Run} {p : Panel} {n : ℕ} (hmode : (r.panel p n).commandMode = 0)
    (hcursor : (r.panel p (n + 1)).display.cursor = 0) : r.TimesSafe n := by
  rw [← plain_iff]
  by_contra hplain
  obtain ⟨z, hz⟩ := shown_timer hplain
  rw [hz, plain_timer] at hplain
  rw [panel, hz] at hcursor
  exact feed_sent_command hmode hplain hcursor

/-- **Host and controller agree** on the first `N` iterations exactly if no time shown
in them has minutes that are a command. -/
theorem display_agrees_iff (r : Run) (p : Panel) (h : p.commandMode = 0) (N : ℕ) :
    (∀ n < N, r.Agrees p n) ↔ ∀ n < N, r.TimesSafe n := by
  refine ⟨fun hagree n hn => ?_, fun hsafe n hn => agrees_of_timesSafe h hsafe hn⟩
  have hmode : (r.panel p n).commandMode = 0 := by
    cases n with
    | zero => exact h
    | succ n => exact (hagree n (Nat.lt_of_succ_lt hn)).commandMode
  exact timesSafe_of_ready hmode (hagree n hn).cursor

end Law

theorem display_agrees_interrupted :
    interrupted.Agrees setUp.controller.panel 7 ∧ interrupted.Agrees setUp.controller.panel 11 := by
  have hover : ∀ n < 12, interrupted.phase n = .Paused →
      SafeMinutes ⌈interrupted.timeRemaining n⌉ := by decide +kernel
  have hsafe : ∀ n < 12, interrupted.TimesSafe n := fun n hn =>
    ⟨fun _ => .inl (show (48 + (0 : ℤ).tdiv 60) % 256 < 118 by decide), fun hfrom _ => hover n hn hfrom⟩
  have hagrees := (display_agrees_iff interrupted setUp.controller.panel (by decide) 12).mpr hsafe
  exact ⟨hagrees 7 (by decide), hagrees 11 (by decide)⟩

/-- The same match with 80 minutes in the memory of the new `PausedAnim`: the minutes
are the command that sets the I2C address, and the tens are the address. -/
theorem interrupted_readdressed :
    (interrupted.withRemTime fun _ => 4800).phase 7 = .Fighting ∧
      (interrupted.withRemTime fun _ => 4800).phase 8 = .Paused ∧
      ((interrupted.withRemTime fun _ => 4800).panel setUp.controller.panel 7).eeprom = 0x61 ∧
      ((interrupted.withRemTime fun _ => 4800).panel setUp.controller.panel 8).eeprom = 0x30 ∧
      ¬ ∀ n, (interrupted.withRemTime fun _ => 4800).Agrees setUp.controller.panel n := by
  have haddress : ((interrupted.withRemTime fun _ => 4800).panel setUp.controller.panel 8).eeprom =
      0x30 := by decide +kernel
  refine ⟨by decide +kernel, by decide +kernel, by decide +kernel, haddress, fun h => ?_⟩
  have hkept := (h 7).eeprom
  rw [haddress] at hkept
  exact absurd hkept (by decide)

/-! ### Over the wire -/

section Wire

variable [Arithmetic]

/-- The bytes of the first `N` iterations. -/
def sentBefore (r : Run) (N : ℕ) : List UInt8 := (List.range N).flatMap fun n => sent (r.shown n)

theorem feed_sentBefore (r : Run) (p : Panel) (N : ℕ) : p.feed (r.sentBefore N) = r.panel p N := by
  induction N with
  | zero => rfl
  | succ N ih =>
    rw [sentBefore, List.range_succ, List.flatMap_append, List.flatMap_singleton, Panel.feed_append]
    show (p.feed (r.sentBefore N)).feed _ = _
    rw [ih]
    rfl

/-- A controller that has received those bytes, in whatever transactions and without
an overflow, and has worked them off shows what the last iteration showed. -/
theorem received_digits {r : Run} {s : Machine} (h : Started s) (hmode : s.controller.panel.commandMode = 0)
    {events : List Event} (hroom : NeverOverflows events)
    (hdrained : (s.run events).controller.buffer.head = (s.run events).controller.buffer.tail)
    {N : ℕ} (hbytes : received events = r.sentBefore (N + 1)) (hsafe : ∀ n < N + 1, r.TimesSafe n) :
    (s.run events).controller.panel.display.digits =
      #v[(r.shown N).char 0, (r.shown N).char 1, (r.shown N).char 2] := by
  have hagrees : r.Agrees s.controller.panel N := agrees_of_timesSafe hmode hsafe (Nat.lt_succ_self N)
  rw [run_drained h hroom hdrained, hbytes]
  show (s.controller.panel.feed (r.sentBefore (N + 1))).display.digits = _
  rw [feed_sentBefore]
  exact hagrees.digits

end Wire

end Arena.Run

end Botgeddon
