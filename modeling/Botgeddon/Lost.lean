import Botgeddon.Installation

/-! A display the host has lost.

The host talks to three addresses and never asks who is there. A pause far enough out of
range has minutes that are the command to set the address, and its tens of seconds, which
the display takes for the address, are no address of the host's. The display keeps what
it was given across power losses, and no byte of any execution reaches it again. -/
namespace Botgeddon
open Arena Firmware Host Conversions

/-! ### The device on the bus -/

/-- What the device does of itself, or suffers. -/
inductive DeviceOwn where
  | timer
  | foreground
  | next
  | powerLoss

def DeviceOwn.event : DeviceOwn → DeviceEvent
  | .timer => .machine .timer
  | .foreground => .machine .foreground
  | .next => .next
  | .powerLoss => .powerLoss

/-- The controller as a slave of the bus, with power losses. -/
def bigDevice : Bus.Slave UInt8 (List UInt8) DeviceOwn DeviceEvent Device where
  address d := d.panel.twiAddress
  step := Device.step
  hear bytes := .machine (.receive bytes)
  own := DeviceOwn.event

/-- An address the host talks to. -/
def HostAddress (a : UInt8) : Prop :=
  a = redSegmentLedI2cAddress ∨ a = blueSegmentLedI2cAddress ∨ a = bigSegmentLedI2cAddress

instance (a : UInt8) : Decidable (HostAddress a) := inferInstanceAs (Decidable (_ ∨ _))

/-! ### Lost -/

/-- What digit `i` can show when nothing is received any more: what it showed, nothing
after a power loss, or what `setup` writes. -/
def Leftover (old : Vector UInt8 3) (i : ℕ) (c : UInt8) : Prop :=
  c = old[i]! ∨ c = 0 ∨ c = 0x31 + UInt8.ofNat i

/-- The device has address `a`, or none yet, and nothing to work off. -/
structure Lost (a : UInt8) (old : Vector UInt8 3) (d : Device) : Prop where
  knows : d.Knows
  keeps : Device.Keeps a d
  idle : d.machine.controller.buffer.head = d.machine.controller.buffer.tail
  address : d.panel.twiAddress = 0 ∨ d.panel.twiAddress = a
  digits : ∀ i < 3, Leftover old i d.panel.display.digits[i]!

theorem handedBy_idle {s : Machine} (h : s.controller.buffer.head = s.controller.buffer.tail) :
    s.handedBy .timer = none := if_neg (not_not.mpr h)

theorem Lost.takes_none {a : UInt8} {old : Vector UInt8 3} {d : Device} (h : Lost a old d) (e : DeviceEvent)
    (c : UInt8) : ¬ d.TakesAddress e c := by
  rintro ⟨-, -, harg⟩
  obtain ⟨-, -, hhanded, -⟩ := addressArgument_spec harg
  rw [handedBy_idle h.idle] at hhanded
  cases hhanded

/-- A statement of `setupTWI` shows nothing, and gives no address but that of the cell. -/
theorem setupStep_frame {p : Panel} {pc : SetupTWI} (h : pc.Knows p) :
    (p.setupStep pc).1.display = p.display ∧
      ((p.setupStep pc).1.twiAddress = p.twiAddress ∨ (p.setupStep pc).1.twiAddress = p.eeprom) := by
  cases pc with
  | begin twiAddress => exact ⟨rfl, .inr h.1⟩
  | _ => exact ⟨rfl, .inl rfl⟩

/-- The foreground writes what `setup` writes. -/
theorem foreground_digits {s : Machine} {old : Vector UInt8 3}
    (h : ∀ i < 3, Leftover old i s.controller.panel.display.digits[i]!) :
    (s.step .foreground).controller.panel.twiAddress = s.controller.panel.twiAddress ∧
      ∀ i < 3, Leftover old i (s.step .foreground).controller.panel.display.digits[i]! := by
  simp only [Machine.step, Machine.foregroundStep]
  cases s.foreground with
  | read x => exact ⟨rfl, h⟩
  | post x segments => exact ⟨rfl, h⟩
  | setup j =>
    refine ⟨rfl, fun i hi => ?_⟩
    show Leftover old i (s.controller.panel.display.digits.setIfInBounds j (0x31 + UInt8.ofNat j))[i]!
    rw [getElem!_pos _ i hi, Vector.getElem_setIfInBounds]
    split
    case isTrue heq =>
      rw [heq]
      exact .inr (.inr rfl)
    case isFalse =>
      have hold := h i hi
      rwa [getElem!_pos _ i hi] at hold

theorem Lost.foreground {a : UInt8} {old : Vector UInt8 3} {s : Machine} (h : Lost a old ⟨s, .running⟩) :
    Lost a old ((Device.mk s .running).step (.machine .foreground)) := by
  obtain ⟨htwi, hdigits⟩ := foreground_digits h.digits
  have hstep : (Device.mk s .running).step (.machine .foreground) = ⟨s.step .foreground, .running⟩ := by
    show Device.interrupt _ _ = _
    have hnone : s.addressArgument .foreground = none := by
      rw [Machine.addressArgument]
      exact ite_self none
    rw [Device.interrupt, hnone]
  have hknows := h.knows.step (.machine .foreground)
  have hkeeps := Device.keeps_step h.knows h.keeps (h.takes_none (.machine .foreground))
  rw [hstep] at hknows hkeeps ⊢
  refine ⟨hknows, hkeeps, ?_, ?_, hdigits⟩
  · rw [s.foreground_frame.1]
    exact h.idle
  · exact h.address.imp htwi.trans htwi.trans

theorem Lost.timer {a : UInt8} {old : Vector UInt8 3} {s : Machine} (h : Lost a old ⟨s, .running⟩) :
    (Device.mk s .running).step (.machine .timer) = ⟨s, .running⟩ := by
  have hnone : s.handedBy .timer = none := handedBy_idle h.idle
  have harg : s.addressArgument .timer = none := by
    rw [Machine.addressArgument, hnone]
    exact ite_self none
  show Device.interrupt _ _ = _
  rw [Device.interrupt, harg]
  show Device.mk (s.step .timer) .running = _
  rw [Machine.timer_idle hnone]

/-- A statement of `setupTWI`, on the way up. -/
theorem Lost.boot {a : UInt8} {old : Vector UInt8 3} {s : Machine} {pc : SetupTWI} (h : Lost a old ⟨s, .boot pc⟩) :
    Lost a old ((Device.mk s (.boot pc)).step .next) := by
  obtain ⟨hdisplay, htwi⟩ := setupStep_frame (show pc.Knows s.controller.panel from h.knows)
  refine ⟨h.knows.step .next, Device.keeps_step h.knows h.keeps (h.takes_none .next), h.idle, ?_, ?_⟩
  · rcases htwi with hsame | hcell
    · exact h.address.imp hsame.trans hsame.trans
    · exact .inr (hcell.trans h.keeps.2.1)
  · show ∀ i < 3, Leftover old i (s.controller.panel.setupStep pc).1.display.digits[i]!
    rw [hdisplay]
    exact h.digits

theorem Lost.powerLoss {a : UInt8} {old : Vector UInt8 3} {d : Device} (h : Lost a old d) :
    Lost a old (d.step .powerLoss) where
  knows := h.knows.step .powerLoss
  keeps := Device.keeps_step h.knows h.keeps (h.takes_none .powerLoss)
  idle := rfl
  address := .inl rfl
  digits := fun i hi => by
    refine .inr (.inl ?_)
    show (Vector.replicate 3 (0 : UInt8))[i]! = 0
    rw [getElem!_pos _ i hi, Vector.getElem_replicate]

/-- Nothing the device does of itself brings it back. -/
theorem Lost.own {a : UInt8} {old : Vector UInt8 3} {d : Device} (h : Lost a old d) (e : DeviceOwn) :
    Lost a old (d.step e.event) := by
  obtain ⟨s, control⟩ := d
  rcases h.keeps.1 with hrun | ⟨pc, hpc⟩
  · obtain rfl : control = .running := hrun
    cases e with
    | timer =>
      show Lost a old ((Device.mk s .running).step (.machine .timer))
      rw [h.timer]
      exact h
    | foreground => exact h.foreground
    | next => exact h
    | powerLoss => exact h.powerLoss
  · obtain rfl : control = .boot pc := hpc
    cases e with
    | timer | foreground => exact h
    | next => exact h.boot
    | powerLoss => exact h.powerLoss

/-- It answers none of the host's addresses. -/
theorem Lost.deaf {a : UInt8} {old : Vector UInt8 3} {d : Device} (h : Lost a old d) (ha : ¬ HostAddress a)
    {target : UInt8} (htarget : HostAddress target) : d.panel.twiAddress ≠ target := by
  rintro rfl
  rcases h.address with hnone | hsome
  · rw [hnone] at htarget
    exact absurd htarget (by decide)
  · exact ha (hsome ▸ htarget)

theorem Lost.run {a : UInt8} {old : Vector UInt8 3} {d : Device} (h : Lost a old d) (ha : ¬ HostAddress a)
    {events : List (Bus.Event UInt8 (List UInt8) DeviceOwn)} (hsent : ∀ m ∈ Bus.messages events, HostAddress m.1) :
    Lost a old (bigDevice.run d events) :=
  Bus.Slave.run_deaf h (fun _ hs m hm => hs.deaf ha (hsent m hm)) fun _ e hs => hs.own e

/-! ### How it gets lost -/

/-- The minutes of a time of `z` seconds are the command that sets the address. -/
def SetsAddress (z : ℤ) : Prop := (48 + z.tdiv 60) % 256 = 128

instance (z : ℤ) : Decidable (SetsAddress z) := inferInstanceAs (Decidable (_ = _))

theorem setsAddress_minutes {z : ℤ} (h : SetsAddress z) : (timerSegments z).char 0 = twiAddressCmd := by
  apply UInt8.toNat_inj.mp
  have hbyte := toByte_toNat (48 + z.tdiv 60)
  rw [SetsAddress] at h
  show (toByte (48 + toChar (z.tdiv 60))).toNat = 128
  rw [toByte_add_toChar]
  omega

/-- The tens of seconds are an address, and not one of the host's. -/
theorem tens_address (z : ℤ) : ValidAddress ((timerSegments z).char 1) ∧ ¬ HostAddress ((timerSegments z).char 1) := by
  obtain ⟨lo, hi⟩ := tens_toNat z
  have hall : ∀ n < 256, 43 ≤ n → n ≤ 53 → ValidAddress (UInt8.ofNat n) ∧ ¬ HostAddress (UInt8.ofNat n) := by
    decide +kernel
  have htens := hall _ ((timerSegments z).char 1).toNat_lt lo hi
  rwa [UInt8.ofNat_toNat] at htens

/-- The command that sets the address, its argument, and one more byte. -/
theorem feed_address {p : Panel} (hp : p.commandMode = 0) {c : UInt8} (hc : ValidAddress c) (last : UInt8) :
    (p.feed [twiAddressCmd, c, last]).eeprom = c ∧ (p.feed [twiAddressCmd, c, last]).twiAddress = c := by
  have hset : (p.execute twiAddressCmd).execute c = { p with commandMode := 0, eeprom := c, twiAddress := c } := by
    rw [Panel.execute_enter hp (by decide), if_neg (by decide),
      Panel.execute_command (show twiAddressCmd ≠ 0 by decide)]
    show { Panel.setupTWI { p with commandMode := twiAddressCmd, eeprom := c } with commandMode := 0 } = _
    rw [Panel.setupTWI, if_neg ((validAddress_iff c).mp hc)]
  rw [Panel.feed_cons, Panel.feed_cons, hset, Panel.feed_cons, Panel.feed_nil]
  exact execute_address (show (0 : UInt8) ≠ twiAddressCmd by decide) last

/-- A frame that sets the address sets it to the tens of seconds. -/
theorem feed_setsAddress {p : Panel} (hp : p.commandMode = 0) {z : ℤ} (h : SetsAddress z) :
    (p.feed (sent (timerSegments z))).eeprom = (timerSegments z).char 1 ∧
      (p.feed (sent (timerSegments z))).twiAddress = (timerSegments z).char 1 := by
  rw [sent, feed_home hp, setsAddress_minutes h]
  exact @feed_address { p with display := { p.display with cursor := 0 } } hp _ (tens_address z).1 _

/-- **A display can be lost for good.** When it has worked off a frame whose minutes are
the command that sets the address, then whatever executions of the host follow, each
ended after any of its transactions, and however often the power is lost, at every
moment it keeps the tens of seconds for its address, is selected by no transaction, and
shows nothing but leftovers. -/
theorem lost_for_good {p : Panel} (hp : p.commandMode = 0) {z : ℤ} (hz : SetsAddress z) {d : Device}
    (hpanel : d.panel = p.feed (sent (timerSegments z))) (hknows : d.Knows) (hcontrol : d.control = .running)
    (hidle : d.machine.controller.buffer.head = d.machine.controller.buffer.tail)
    {cuts : List (List (UInt8 × List UInt8))}
    (hcuts : ∀ cut ∈ cuts, ∃ (x : Execution) (fuel : ℕ), cut <+: transactions (x.main fuel).1)
    {events : List (Bus.Event UInt8 (List UInt8) DeviceOwn)} (hsent : Bus.messages events = cuts.flatten)
    {before : List (Bus.Event UInt8 (List UInt8) DeviceOwn)} (hbefore : before <+: events) :
    (bigDevice.run d before).panel.eeprom = (timerSegments z).char 1 ∧
      (∀ m ∈ Bus.messages events, (bigDevice.run d before).panel.twiAddress ≠ m.1) ∧
      ∀ i < 3, Leftover d.panel.display.digits i (bigDevice.run d before).panel.display.digits[i]! := by
  obtain ⟨heeprom, htwi⟩ := feed_setsAddress hp hz
  obtain ⟨hvalid, hforeign⟩ := tens_address z
  rw [← hpanel] at heeprom htwi
  have hlost : Lost ((timerSegments z).char 1) d.panel.display.digits d :=
    ⟨hknows, ⟨.inl hcontrol, heeprom, hvalid⟩, hidle, .inr htwi, fun _ _ => .inl rfl⟩
  have htargets : ∀ m ∈ Bus.messages events, HostAddress m.1 := by
    intro m hm
    rw [hsent] at hm
    obtain ⟨cut, hcut, hin⟩ := List.mem_flatten.mp hm
    obtain ⟨x, fuel, hwhole⟩ := hcuts cut hcut
    exact x.transactions_target fuel (hwhole.subset hin)
  have hsofar : ∀ m ∈ Bus.messages before, HostAddress m.1 := fun m hm =>
    htargets m ((hbefore.filterMap _).subset hm)
  have hafter := hlost.run hforeign hsofar
  exact ⟨hafter.keeps.2.1, fun m hm => hafter.deaf hforeign (htargets m hm), hafter.digits⟩

/-- A display that has worked off a pause of eighty minutes. -/
def readdressed : Device := ⟨setUp.run (.receive (sent (timerSegments 4800)) :: List.replicate 5 .timer), .running⟩

/-- A power loss, the first four transactions of an execution, another power loss, and
the interrupted match from its start. -/
def afterwards : List (Bus.Event UInt8 (List UInt8) DeviceOwn) :=
  .own .powerLoss :: (Bus.spread [.next, .timer, .foreground] ((transactions (interruptedExecution.main 9).1).take 4) ++
    .own .powerLoss :: Bus.spread [.next, .timer, .foreground] (transactions (interruptedExecution.main 9).1))

theorem lost_for_good_eighty :
    (bigDevice.run readdressed (afterwards.take 9)).panel.eeprom = 0x30 ∧
      (bigDevice.run readdressed afterwards).panel.eeprom = 0x30 := by
  have hpanel : readdressed.panel = setUp.controller.panel.feed (sent (timerSegments 4800)) := by decide +kernel
  have hknows : readdressed.Knows := ⟨by decide +kernel, by decide +kernel⟩
  have hcuts : ∀ cut ∈ [(transactions (interruptedExecution.main 9).1).take 4, transactions (interruptedExecution.main 9).1],
      ∃ (x : Execution) (fuel : ℕ), cut <+: transactions (x.main fuel).1 := by
    intro cut hcut
    refine ⟨interruptedExecution, 9, ?_⟩
    rcases List.mem_pair.mp hcut with rfl | rfl
    · exact List.take_prefix _ _
    · exact List.prefix_refl _
  have hsent : Bus.messages afterwards =
      [(transactions (interruptedExecution.main 9).1).take 4, transactions (interruptedExecution.main 9).1].flatten := by
    show Bus.messages (Bus.spread _ _ ++ _) = _
    rw [Bus.messages_append, Bus.messages_spread]
    show _ ++ Bus.messages (Bus.spread _ _) = _
    rw [Bus.messages_spread, List.flatten_cons, List.flatten_cons, List.flatten_nil, List.append_nil]
  have hlaw : ∀ before, before <+: afterwards → (bigDevice.run readdressed before).panel.eeprom = 0x30 :=
    fun before hbefore =>
      (lost_for_good (by decide) (by decide) hpanel hknows rfl (by decide +kernel) hcuts hsent hbefore).1
  exact ⟨hlaw _ (List.take_prefix 9 _), hlaw _ (List.prefix_refl _)⟩

end Botgeddon
