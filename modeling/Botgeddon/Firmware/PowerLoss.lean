import Botgeddon.Firmware.Language

/-! The address across power losses.

Only the EEPROM cell survives a power loss, and two statements write to it: the one
that carries out an address command, before anything has looked at the argument,
and the one in `setupTWI` that repairs a cell it cannot use. `Device` takes these
routines a statement at a time, with a power loss possible before each. Everything
else the controller does leaves the cell alone, so that a loss in the middle of it
is a loss before it. What a device comes up on is decided by the cell (`repaired`),
and no statement of `setupTWI` changes that. -/
namespace Botgeddon.Firmware

/-! ### The routines, statement by statement -/

/-- The statement of `setupTWI` that is next, with the local `twiAddress`. -/
inductive SetupTWI where
  | read
  | test (twiAddress : UInt8)
  | useDefault
  | repair (twiAddress : UInt8)
  | begin (twiAddress : UInt8)
  | onReceive
deriving DecidableEq

/-- What the processor is about to do: `setupTWI` in `setup`, whatever comes next with
interrupts on, or an address command with argument `c` in `updateBufferData`. -/
inductive Control where
  | boot (pc : SetupTWI)
  | running
  | store (c : UInt8)
  | command (c : UInt8) (pc : SetupTWI)
  | leave (c : UInt8)
deriving DecidableEq

/-- One statement of `setupTWI`, and the next one. -/
def Panel.setupStep (p : Panel) : SetupTWI → Panel × Option SetupTWI
  | .read => (p, some (.test p.eeprom))
  | .test twiAddress =>
    (p, if twiAddress = 0 ∨ twiAddress > 0x7F then some .useDefault else some (.begin twiAddress))
  | .useDefault => (p, some (.repair twiAddressDefault))
  | .repair twiAddress => ({ p with eeprom := twiAddressDefault }, some (.begin twiAddress))
  | .begin twiAddress => ({ p with twiAddress := twiAddress }, some .onReceive)
  | .onReceive => (p, none)

/-- The RAM when power comes on: zero. -/
def Machine.powerOn (eeprom : UInt8) : Machine :=
  ⟨⟨⟨Vector.replicate bufferSize 0, 0, 0⟩, [], ⟨⟨Vector.replicate 3 0, 0, 0⟩, 0, eeprom, 0⟩⟩, .setup 0, []⟩

def Machine.withPanel (s : Machine) (p : Panel) : Machine :=
  { s with controller := { s.controller with panel := p } }

/-- The argument an event hands to an address command. -/
def Machine.addressArgument (s : Machine) (e : Event) : Option UInt8 :=
  if s.controller.panel.commandMode = twiAddressCmd then s.handedBy e else none

structure Device where
  machine : Machine
  control : Control

inductive DeviceEvent where
  /-- Something the machine does with interrupts on. -/
  | machine (e : Event)
  /-- The next statement of the routine under way. -/
  | next
  | powerLoss

namespace Device

def panel (d : Device) : Panel := d.machine.controller.panel

/-- Power comes on. -/
def powerOn (eeprom : UInt8) : Device := ⟨Machine.powerOn eeprom, .boot .read⟩

/-- The interrupt that takes the argument of an address command from the buffer goes
on to carry it out. -/
def interrupt (d : Device) (e : Event) : Device :=
  match d.machine.addressArgument e with
  | some c =>
    { machine := { d.machine with
        controller := { d.machine.controller with buffer := d.machine.controller.buffer.pop } }
      control := .store c }
  | none => { d with machine := d.machine.step e }

/-- One statement of `setupTWI`, called from where `resume` and `back` lead on. -/
def setupStep (d : Device) (pc : SetupTWI) (resume : SetupTWI → Control) (back : Control) : Device :=
  { machine := d.machine.withPanel (d.panel.setupStep pc).1
    control :=
      match (d.panel.setupStep pc).2 with
      | some pc' => resume pc'
      | none => back }

def statement (d : Device) : Device :=
  match d.control with
  | .boot pc => d.setupStep pc .boot .running
  | .running => d
  | .store c =>
    { machine := d.machine.withPanel { d.panel with eeprom := c }
      control := .command c .read }
  | .command c pc => d.setupStep pc (.command c) (.leave c)
  | .leave _ =>
    { machine := d.machine.withPanel { d.panel with commandMode := 0 }
      control := .running }

/-- Interrupts are off while a routine is under way. -/
def step (d : Device) : DeviceEvent → Device
  | .machine e =>
    match d.control with
    | .running => d.interrupt e
    | _ => d
  | .next => d.statement
  | .powerLoss => powerOn d.panel.eeprom

def run (d : Device) (events : List DeviceEvent) : Device := events.foldl step d

@[simp] theorem run_nil (d : Device) : d.run [] = d := rfl

@[simp] theorem run_cons (d : Device) (e : DeviceEvent) (events : List DeviceEvent) :
    d.run (e :: events) = (d.step e).run events := rfl

theorem run_append (d : Device) (events events' : List DeviceEvent) :
    d.run (events ++ events') = (d.run events).run events' := List.foldl_append

end Device

/-! ### Without a power loss it is the machine -/

/-- An address the bus can have. -/
def ValidAddress (a : UInt8) : Prop := a ≠ 0 ∧ a ≤ 0x7F

instance (a : UInt8) : Decidable (ValidAddress a) := inferInstanceAs (Decidable (_ ∧ _))

/-- What `setupTWI` makes of a cell. -/
def repaired (a : UInt8) : UInt8 := if ValidAddress a then a else twiAddressDefault

theorem validAddress_iff (a : UInt8) : ValidAddress a ↔ ¬ (a = 0 ∨ a > 0x7F) := by
  rw [not_or, ValidAddress, gt_iff_lt, UInt8.not_lt]

theorem repaired_of_valid {a : UInt8} (h : ValidAddress a) : repaired a = a := if_pos h

@[simp] theorem withPanel_panel (s : Machine) (p : Panel) : (s.withPanel p).controller.panel = p := rfl

@[simp] theorem withPanel_withPanel (s : Machine) (p q : Panel) :
    (s.withPanel p).withPanel q = s.withPanel q := rfl

namespace Device

/-- Without a power loss `setupTWI` does what it does, in four statements or six. -/
theorem setup_returns (resume : SetupTWI → Control) (back : Control)
    (called : ∀ s pc, statement ⟨s, resume pc⟩ = setupStep ⟨s, resume pc⟩ pc resume back) (s : Machine) :
    ∃ n ≤ 6, statement^[n] ⟨s, resume .read⟩ = ⟨s.withPanel s.controller.panel.setupTWI, back⟩ := by
  rw [Panel.setupTWI]
  by_cases h : s.controller.panel.eeprom = 0 ∨ s.controller.panel.eeprom > 0x7F
  · refine ⟨6, le_refl 6, ?_⟩
    rw [if_pos h]
    simp only [Function.iterate_succ_apply, Function.iterate_zero_apply, called, setupStep, panel,
      Panel.setupStep, withPanel_panel, withPanel_withPanel, if_pos h]
  · refine ⟨4, by decide, ?_⟩
    rw [if_neg h]
    simp only [Function.iterate_succ_apply, Function.iterate_zero_apply, called, setupStep, panel,
      Panel.setupStep, withPanel_panel, withPanel_withPanel, if_neg h]

theorem run_next (d : Device) (n : ℕ) : d.run (List.replicate n .next) = statement^[n] d := by
  induction n generalizing d with
  | zero => rfl
  | succ n ih => rw [List.replicate_succ, run_cons, Function.iterate_succ_apply]; exact ih _

/-- With nothing to carry out there is no statement. -/
theorem statement_running (s : Machine) (n : ℕ) : statement^[n] ⟨s, .running⟩ = ⟨s, .running⟩ :=
  Function.iterate_fixed rfl n

/-- Power comes on and stays: the machine boots. -/
theorem boots (eeprom : UInt8) :
    (powerOn eeprom).run (List.replicate 6 .next) = ⟨Machine.boot eeprom, .running⟩ := by
  obtain ⟨n, hn, hreturns⟩ := setup_returns .boot .running (fun _ _ => rfl) (Machine.powerOn eeprom)
  have hsplit : 6 = (6 - n) + n := by omega
  rw [run_next, hsplit, Function.iterate_add_apply, powerOn, hreturns, statement_running]
  rfl

end Device

/-- Only a timer interrupt hands over an argument, and `updateBufferData` then sets up
the address from it. -/
theorem addressArgument_spec {s : Machine} {e : Event} {c : UInt8} (h : s.addressArgument e = some c) :
    s.controller.panel.commandMode = twiAddressCmd ∧ e = .timer ∧ s.handedBy .timer = some c ∧
      s.step e = { s with
        controller := { s.controller with
          buffer := s.controller.buffer.pop
          panel := { Panel.setupTWI { s.controller.panel with eeprom := c } with commandMode := 0 } } } := by
  have hmode : s.controller.panel.commandMode = twiAddressCmd := by
    by_contra hne
    rw [Machine.addressArgument, if_neg hne] at h
    cases h
  rw [Machine.addressArgument, if_pos hmode] at h
  cases e with
  | receive | foreground => cases h
  | timer =>
    refine ⟨hmode, rfl, h, ?_⟩
    have hne : s.controller.panel.commandMode ≠ 0 := by
      rw [hmode]
      decide
    have hcommand : s.controller.panel.command c = Panel.setupTWI { s.controller.panel with eeprom := c } := by
      unfold Panel.command
      rw [if_neg (by rw [hmode]; decide), if_neg (by rw [hmode]; decide), if_pos hmode]
    have hcontroller := Machine.timer_controller h
    rw [Panel.execute_command hne, hcommand] at hcontroller
    exact congrArg (fun controller => { s with controller := controller }) hcontroller

namespace Device

/-- An address command that is not cut short does what the machine does. -/
theorem commands {s : Machine} {e : Event} {c : UInt8} (h : s.addressArgument e = some c) :
    (Device.mk s .running).run (.machine e :: List.replicate 8 .next) = ⟨s.step e, .running⟩ := by
  obtain ⟨-, -, -, hstep⟩ := addressArgument_spec h
  obtain ⟨n, hn, hreturns⟩ := setup_returns (.command c) (.leave c) (fun _ _ => rfl)
    (Machine.mk ⟨s.controller.buffer.pop, s.controller.wire, { s.controller.panel with eeprom := c }⟩
      s.foreground s.posted)
  have hinterrupt : (Device.mk s .running).step (.machine e) = ⟨{ s with
      controller := { s.controller with buffer := s.controller.buffer.pop } }, .store c⟩ := by
    show interrupt _ e = _
    rw [interrupt, h]
  have hsplit : 8 = (6 - n) + 1 + n + 1 := by omega
  rw [run_cons, hinterrupt, run_next, hsplit, Function.iterate_succ_apply, Function.iterate_add_apply]
  show statement^[6 - n + 1] (statement^[n] ⟨_, .command c .read⟩) = _
  rw [hstep]
  exact (congrArg (statement^[6 - n + 1]) hreturns).trans (statement_running _ (6 - n))

end Device

/-! ### What is known at each statement -/

/-- The controller answers on the address in the cell. -/
structure Addressed (p : Panel) : Prop where
  same : p.twiAddress = p.eeprom
  valid : ValidAddress p.eeprom

def SetupTWI.Knows (p : Panel) : SetupTWI → Prop
  | .read => True
  | .test twiAddress => twiAddress = p.eeprom
  | .useDefault => ¬ ValidAddress p.eeprom
  | .repair twiAddress => twiAddress = twiAddressDefault ∧ ¬ ValidAddress p.eeprom
  | .begin twiAddress => twiAddress = p.eeprom ∧ ValidAddress p.eeprom
  | .onReceive => Addressed p

/-- A statement of `setupTWI` does not change what the cell comes down to. -/
theorem setupStep_spec {p : Panel} {pc : SetupTWI} (h : pc.Knows p) :
    repaired (p.setupStep pc).1.eeprom = repaired p.eeprom ∧
      (p.setupStep pc).1.commandMode = p.commandMode ∧
      (∀ pc', (p.setupStep pc).2 = some pc' → pc'.Knows (p.setupStep pc).1) ∧
      ((p.setupStep pc).2 = none → Addressed (p.setupStep pc).1) := by
  cases pc with
  | read => exact ⟨rfl, rfl, by rintro _ ⟨⟩; exact rfl, by rintro ⟨⟩⟩
  | test twiAddress =>
    obtain rfl : twiAddress = p.eeprom := h
    have hvalid := validAddress_iff p.eeprom
    refine ⟨rfl, rfl, fun pc' heq => ?_, fun heq => ?_⟩
    · simp only [Panel.setupStep] at heq
      split at heq
      case isTrue hbad =>
        obtain rfl := Option.some.inj heq
        exact fun hgood => hvalid.mp hgood hbad
      case isFalse hgood =>
        obtain rfl := Option.some.inj heq
        exact ⟨rfl, hvalid.mpr hgood⟩
    · simp only [Panel.setupStep] at heq
      split at heq <;> cases heq
  | useDefault => exact ⟨rfl, rfl, by rintro _ ⟨⟩; exact ⟨rfl, h⟩, by rintro ⟨⟩⟩
  | repair twiAddress =>
    obtain ⟨rfl, hbad⟩ := h
    refine ⟨?_, rfl, by rintro _ ⟨⟩; exact ⟨rfl, show ValidAddress twiAddressDefault by decide⟩,
      by rintro ⟨⟩⟩
    show repaired twiAddressDefault = repaired p.eeprom
    rw [repaired_of_valid (by decide), repaired, if_neg hbad]
  | begin twiAddress =>
    obtain ⟨rfl, hgood⟩ := h
    exact ⟨rfl, rfl, by rintro _ ⟨⟩; exact ⟨rfl, hgood⟩, by rintro ⟨⟩⟩
  | onReceive => exact ⟨rfl, rfl, by rintro _ ⟨⟩, fun _ => h⟩

/-- A valid cell is not repaired. -/
theorem setupStep_valid {p : Panel} {pc : SetupTWI} (h : pc.Knows p) (hvalid : ValidAddress p.eeprom) :
    (p.setupStep pc).1.eeprom = p.eeprom := by
  cases pc with
  | repair twiAddress => exact absurd hvalid h.2
  | _ => rfl

/-- Only an address command touches the cell or the address. -/
theorem execute_address {p : Panel} (h : p.commandMode ≠ twiAddressCmd) (c : UInt8) :
    (p.execute c).eeprom = p.eeprom ∧ (p.execute c).twiAddress = p.twiAddress := by
  unfold Panel.execute Panel.command
  split_ifs <;> exact ⟨rfl, rfl⟩

theorem step_address {s : Machine} {e : Event} (h : s.addressArgument e = none) :
    (s.step e).controller.panel.eeprom = s.controller.panel.eeprom ∧
      (s.step e).controller.panel.twiAddress = s.controller.panel.twiAddress := by
  cases e with
  | receive bytes =>
    rw [s.receive_controller bytes]
    exact ⟨rfl, rfl⟩
  | foreground =>
    simp only [Machine.step, Machine.foregroundStep]
    split <;> exact ⟨rfl, rfl⟩
  | timer =>
    cases hc : s.handedBy .timer with
    | none =>
      rw [Machine.timer_idle hc]
      exact ⟨rfl, rfl⟩
    | some c =>
      have hmode : s.controller.panel.commandMode ≠ twiAddressCmd := by
        intro hmode
        rw [Machine.addressArgument, if_pos hmode, hc] at h
        cases h
      rw [Machine.timer_controller hc]
      exact execute_address hmode c

namespace Device

/-- What is known of the device, whatever has happened to it. -/
def Knows (d : Device) : Prop :=
  match d.control with
  | .boot pc => pc.Knows d.panel
  | .running => Addressed d.panel
  | .store _ => Addressed d.panel
  | .command c pc => pc.Knows d.panel ∧ repaired d.panel.eeprom = repaired c
  | .leave c => Addressed d.panel ∧ d.panel.eeprom = repaired c

theorem powerOn_knows (eeprom : UInt8) : (powerOn eeprom).Knows := trivial

theorem interrupt_knows {d : Device} (hcontrol : d.control = .running) (h : Addressed d.panel) (e : Event) :
    (d.interrupt e).Knows := by
  obtain ⟨s, control⟩ := d
  obtain rfl : control = .running := hcontrol
  unfold interrupt
  cases harg : s.addressArgument e with
  | some c => exact h
  | none =>
    obtain ⟨heeprom, htwi⟩ := step_address harg
    show Addressed (s.step e).controller.panel
    refine ⟨?_, ?_⟩
    · rw [heeprom, htwi]
      exact h.same
    · rw [heeprom]
      exact h.valid

theorem statement_knows {d : Device} (h : d.Knows) : d.statement.Knows := by
  obtain ⟨s, control⟩ := d
  cases control with
  | boot pc =>
    have hpc : pc.Knows s.controller.panel := h
    obtain ⟨-, -, hnext, hlast⟩ := setupStep_spec hpc
    simp only [statement, setupStep, Knows, panel, withPanel_panel]
    cases hpc' : (s.controller.panel.setupStep pc).2 with
    | some pc' => exact hnext pc' hpc'
    | none => exact hlast hpc'
  | running => exact h
  | store c => exact ⟨trivial, rfl⟩
  | command c pc =>
    obtain ⟨hpc, hcell⟩ : pc.Knows s.controller.panel ∧ repaired s.controller.panel.eeprom = repaired c := h
    obtain ⟨hsame, -, hnext, hlast⟩ := setupStep_spec hpc
    simp only [statement, setupStep, Knows, panel, withPanel_panel]
    cases hpc' : (s.controller.panel.setupStep pc).2 with
    | some pc' => exact ⟨hnext pc' hpc', hsame.trans hcell⟩
    | none =>
      have haddressed := hlast hpc'
      exact ⟨haddressed, (repaired_of_valid haddressed.valid).symm.trans (hsame.trans hcell)⟩
  | leave c =>
    show Addressed { s.controller.panel with commandMode := 0 }
    exact ⟨h.1.same, h.1.valid⟩

theorem Knows.step {d : Device} (h : d.Knows) (e : DeviceEvent) : (d.step e).Knows := by
  cases e with
  | machine e =>
    simp only [Device.step]
    cases hcontrol : d.control with
    | running =>
      unfold Knows at h
      rw [hcontrol] at h
      exact interrupt_knows hcontrol h e
    | _ => exact h
  | next => exact statement_knows h
  | powerLoss => exact powerOn_knows d.panel.eeprom

theorem Knows.run {d : Device} (h : d.Knows) (events : List DeviceEvent) : (d.run events).Knows := by
  induction events generalizing d with
  | nil => exact h
  | cons e events ih => exact ih (h.step e)

/-! ### Coming up -/

def Booting (d : Device) : Prop := ∃ pc, d.control = .boot pc

/-- `setupTWI` has completed since power came on, and the device is not in it. -/
def SetUp (d : Device) : Prop :=
  match d.control with
  | .running | .store _ | .leave _ => True
  | .boot _ | .command _ _ => False

/-- An address command with argument `c` is under way. -/
def Commanded (d : Device) (c : UInt8) : Prop :=
  match d.control with
  | .store c' | .command c' _ | .leave c' => c' = c
  | .boot _ | .running => False

theorem Knows.addressed {d : Device} (h : d.Knows) (hsetUp : d.SetUp) : Addressed d.panel := by
  obtain ⟨s, control⟩ := d
  cases control with
  | boot | command => cases hsetUp
  | running | store => exact h
  | leave => exact h.1

/-- What a device on its way up comes up on is settled by the cell. -/
theorem booting_step {d : Device} (h : d.Knows) (hboot : d.Booting) (e : DeviceEvent) :
    repaired (d.step e).panel.eeprom = repaired d.panel.eeprom := by
  obtain ⟨s, control⟩ := d
  obtain ⟨pc, rfl⟩ := hboot
  cases e with
  | machine e => rfl
  | next =>
    have hpc : pc.Knows s.controller.panel := h
    exact (setupStep_spec hpc).1
  | powerLoss => rfl

theorem booting_run {d : Device} (h : d.Knows) {events : List DeviceEvent}
    (hboot : ∀ before e after, events = before ++ e :: after → (d.run before).Booting) :
    repaired (d.run events).panel.eeprom = repaired d.panel.eeprom := by
  induction events generalizing d with
  | nil => rfl
  | cons e events ih =>
    have hnow : d.Booting := hboot [] e events rfl
    rw [run_cons, ih (h.step e) fun before e' after heq => ?_, booting_step h hnow]
    exact hboot (e :: before) e' after (by rw [heq]; rfl)

/-- The address a device comes up on. -/
theorem comes_up {d : Device} (h : d.Knows) (hsetUp : ¬ d.Booting) {events : List DeviceEvent}
    (hboot : ∀ before e after, events = before ++ e :: after →
      ((d.step .powerLoss).run before).Booting)
    (hup : ((d.step .powerLoss).run events).SetUp) :
    ((d.step .powerLoss).run events).panel.twiAddress = d.panel.twiAddress ∨
      ∃ c, d.Commanded c ∧ ((d.step .powerLoss).run events).panel.twiAddress = repaired c := by
  have hloss : (d.step .powerLoss).Knows := h.step .powerLoss
  have haddressed := (hloss.run events).addressed hup
  have hcell : ((d.step .powerLoss).run events).panel.twiAddress = repaired d.panel.eeprom := by
    rw [haddressed.same, ← repaired_of_valid haddressed.valid, booting_run hloss hboot]
    rfl
  have hkept : Addressed d.panel → repaired d.panel.eeprom = d.panel.twiAddress := by
    intro hnow
    rw [repaired_of_valid hnow.valid, hnow.same]
  rw [hcell]
  obtain ⟨s, control⟩ := d
  cases control with
  | boot pc => exact absurd ⟨pc, rfl⟩ hsetUp
  | running | store => exact .inl (hkept h)
  | command c pc => exact .inr ⟨c, rfl, h.2⟩
  | leave c => exact .inl (hkept h.1)

/-! ### What changes the address -/

/-- The bytes handed to `updateBufferData` since the power was last lost. -/
def hears (d : Device) (bytes : List UInt8) : DeviceEvent → List UInt8
  | .machine e =>
    match d.control with
    | .running => bytes ++ (d.machine.handedBy e).toList
    | _ => bytes
  | .next => bytes
  | .powerLoss => []

def heard (d : Device) (bytes : List UInt8) : List DeviceEvent → List UInt8
  | [] => bytes
  | e :: events => (d.step e).heard (d.hears bytes e) events

/-- Event `e` hands the argument `c` to an address command. -/
def TakesAddress (d : Device) (e : DeviceEvent) (c : UInt8) : Prop :=
  d.control = .running ∧ e = .machine .timer ∧ d.machine.addressArgument .timer = some c

/-- Without one a device that is set up, or is coming up again, keeps the cell. -/
def Keeps (a : UInt8) (d : Device) : Prop :=
  (d.control = .running ∨ d.Booting) ∧ d.panel.eeprom = a ∧ ValidAddress a

theorem keeps_step {a : UInt8} {d : Device} (h : d.Knows) (hkeeps : Keeps a d) {e : DeviceEvent}
    (hnot : ∀ c, ¬ d.TakesAddress e c) : Keeps a (d.step e) := by
  obtain ⟨hcontrol, rfl, hvalid⟩ := hkeeps
  obtain ⟨s, control⟩ := d
  cases e with
  | powerLoss => exact ⟨.inr ⟨.read, rfl⟩, rfl, hvalid⟩
  | machine e =>
    rcases hcontrol with hrun | ⟨pc, hpc⟩
    · obtain rfl : control = .running := hrun
      have harg : s.addressArgument e = none := by
        cases harg : s.addressArgument e with
        | none => rfl
        | some c =>
          obtain ⟨-, rfl, -, -⟩ := addressArgument_spec harg
          exact absurd ⟨rfl, rfl, harg⟩ (hnot c)
      have hstep : (Device.mk s .running).step (.machine e) = ⟨s.step e, .running⟩ := by
        show interrupt _ e = _
        rw [interrupt, harg]
      rw [hstep]
      exact ⟨.inl rfl, (step_address harg).1, hvalid⟩
    · obtain rfl : control = .boot pc := hpc
      exact ⟨.inr ⟨pc, rfl⟩, rfl, hvalid⟩
  | next =>
    rcases hcontrol with hrun | ⟨pc, hpc⟩
    · obtain rfl : control = .running := hrun
      exact ⟨.inl rfl, rfl, hvalid⟩
    · obtain rfl : control = .boot pc := hpc
      refine ⟨?_, setupStep_valid h hvalid, hvalid⟩
      show (match (s.controller.panel.setupStep pc).2 with
        | some pc' => Control.boot pc'
        | none => Control.running) = _ ∨ ∃ pc', (match (s.controller.panel.setupStep pc).2 with
        | some pc' => Control.boot pc'
        | none => Control.running) = _
      cases (s.controller.panel.setupStep pc).2 with
      | some pc' => exact .inr ⟨pc', rfl⟩
      | none => exact .inl rfl

theorem keeps_run {a : UInt8} {d : Device} (h : d.Knows) (hkeeps : Keeps a d) {events : List DeviceEvent}
    (hnot : ∀ before e after c, events = before ++ e :: after → ¬ (d.run before).TakesAddress e c) :
    Keeps a (d.run events) := by
  induction events generalizing d with
  | nil => exact hkeeps
  | cons e events ih =>
    refine ih (h.step e) (keeps_step h hkeeps fun c => hnot [] e events c rfl) ?_
    exact fun before e' after c heq => hnot (e :: before) e' after c (by rw [heq]; rfl)

end Device

/-! ### What an address command looks like -/

/-- The command mode after a byte. -/
def nextMode (mode c : UInt8) : UInt8 :=
  if mode = 0 ∧ ¬ Displayable c ∧ c ≠ resetCmd then c else 0

theorem execute_commandMode (p : Panel) (c : UInt8) :
    (p.execute c).commandMode = nextMode p.commandMode c := by
  by_cases hmode : p.commandMode = 0
  · by_cases hdata : Displayable c
    · rw [Panel.execute_data hmode hdata, nextMode, if_neg fun h => h.2.1 hdata]
      exact hmode
    · rw [Panel.execute_enter hmode hdata]
      by_cases hreset : c = resetCmd
      · rw [if_pos hreset, nextMode, if_neg fun h => h.2.2 hreset]
        exact hmode
      · rw [if_neg hreset, nextMode, if_pos ⟨hmode, hdata, hreset⟩]
  · rw [Panel.execute_command hmode, nextMode, if_neg fun h => hmode h.1]

/-- The command byte that waits for its argument, or 0. -/
def pendingMode (bytes : List UInt8) : UInt8 := (tokenize bytes).2.getD 0

theorem pendingMode_snoc (bytes : List UInt8) (c : UInt8) :
    pendingMode (bytes ++ [c]) = nextMode (pendingMode bytes) c := by
  have hfeed : ∀ bytes, ((Machine.powerOn 0).controller.panel.feed bytes).commandMode = pendingMode bytes :=
    fun bytes => by rw [feed_tokenize rfl]; rfl
  rw [← hfeed, ← hfeed, Panel.feed_append]
  exact execute_commandMode _ c

namespace Device

/-- The command mode is what the bytes heard leave pending. -/
def Follows (d : Device) (bytes : List UInt8) : Prop :=
  match d.control with
  | .running => d.panel.commandMode = pendingMode bytes
  | .boot _ => d.panel.commandMode = 0 ∧ bytes = []
  | .store _ | .command _ _ | .leave _ => pendingMode bytes = 0

theorem interrupt_follows {s : Machine} {bytes : List UInt8}
    (h : s.controller.panel.commandMode = pendingMode bytes) (e : Event) :
    ((Device.mk s .running).interrupt e).Follows (bytes ++ (s.handedBy e).toList) := by
  unfold interrupt
  cases harg : s.addressArgument e with
  | some c =>
    obtain ⟨hmode, rfl, hc, -⟩ := addressArgument_spec harg
    show pendingMode (bytes ++ (s.handedBy .timer).toList) = 0
    rw [hc, Option.toList_some, pendingMode_snoc, ← h, hmode]
    rfl
  | none =>
    show (s.step e).controller.panel.commandMode = pendingMode (bytes ++ (s.handedBy e).toList)
    cases e with
    | receive received =>
      show _ = pendingMode (bytes ++ [])
      rw [s.receive_controller received, List.append_nil]
      exact h
    | foreground =>
      have hmode : (s.step .foreground).controller.panel.commandMode = s.controller.panel.commandMode := by
        simp only [Machine.step, Machine.foregroundStep]
        split <;> rfl
      show _ = pendingMode (bytes ++ [])
      rw [hmode, List.append_nil]
      exact h
    | timer =>
      cases hc : s.handedBy .timer with
      | none =>
        rw [Machine.timer_idle hc, Option.toList_none, List.append_nil]
        exact h
      | some c =>
        rw [Machine.timer_controller hc, Option.toList_some, pendingMode_snoc, ← h]
        exact execute_commandMode _ c

theorem Follows.step {d : Device} (hknows : d.Knows) {bytes : List UInt8} (h : d.Follows bytes)
    (e : DeviceEvent) : (d.step e).Follows (d.hears bytes e) := by
  obtain ⟨s, control⟩ := d
  cases e with
  | powerLoss => exact ⟨rfl, rfl⟩
  | machine e =>
    cases control with
    | running => exact interrupt_follows h e
    | _ => exact h
  | next =>
    cases control with
    | running => exact h
    | boot pc =>
      obtain ⟨hmode, hbytes⟩ : s.controller.panel.commandMode = 0 ∧ bytes = [] := h
      have hpc : pc.Knows s.controller.panel := hknows
      obtain ⟨-, hkept, -, -⟩ := setupStep_spec hpc
      simp only [Device.step, statement, setupStep, Follows, panel, withPanel_panel, hears]
      cases (s.controller.panel.setupStep pc).2 with
      | some pc' => exact ⟨hkept.trans hmode, hbytes⟩
      | none =>
        rw [hbytes]
        exact hkept.trans hmode
    | store c => exact h
    | command c pc =>
      simp only [Device.step, statement, setupStep, Follows, panel, hears]
      cases (s.controller.panel.setupStep pc).2 <;> exact h
    | leave c =>
      show (0 : UInt8) = pendingMode bytes
      exact Eq.symm h

theorem Follows.run {d : Device} (hknows : d.Knows) {bytes : List UInt8} (h : d.Follows bytes)
    (events : List DeviceEvent) : (d.run events).Follows (d.heard bytes events) := by
  induction events generalizing d bytes with
  | nil => exact h
  | cons e events ih => exact ih (hknows.step e) (h.step hknows e)

/-- The byte before an address argument is 0x80 where a command is expected. -/
theorem takesAddress_pending {d : Device} {bytes : List UInt8} (h : d.Follows bytes) {e : DeviceEvent}
    {c : UInt8} (ht : d.TakesAddress e c) : (tokenize bytes).2 = some twiAddressCmd := by
  obtain ⟨hcontrol, -, harg⟩ := ht
  obtain ⟨s, control⟩ := d
  obtain rfl : control = .running := hcontrol
  obtain ⟨hmode, -⟩ := addressArgument_spec harg
  have hpending : pendingMode bytes = twiAddressCmd := Eq.trans (Eq.symm h) hmode
  rw [pendingMode] at hpending
  cases hlast : (tokenize bytes).2 with
  | none =>
    rw [hlast] at hpending
    exact absurd hpending (by decide)
  | some b =>
    rw [hlast] at hpending
    exact congrArg some hpending

/-! ### The law -/

/-- **The display stays addressable.** Whatever the cell holds at first, whatever is
received and wherever the power is lost, a device that is set up answers on the
address in the cell, which is one the bus can have; only the argument of a 0x80 at
a command position changes the cell of a device that runs; and after a power loss
a device comes up again, on the address it last answered on or, if the power was
lost inside an address command, on its argument if that is valid, and on the
default if not. -/
theorem always_addressable (eeprom : UInt8) (events : List DeviceEvent) :
    (((powerOn eeprom).run events).SetUp →
      ((powerOn eeprom).run events).panel.twiAddress = ((powerOn eeprom).run events).panel.eeprom ∧
        0x01 ≤ ((powerOn eeprom).run events).panel.twiAddress ∧
        ((powerOn eeprom).run events).panel.twiAddress ≤ 0x7F) ∧
      (∀ later, ((powerOn eeprom).run events).control = .running →
        ((powerOn eeprom).run (events ++ later)).panel.eeprom ≠ ((powerOn eeprom).run events).panel.eeprom →
        ∃ before e after c, later = before ++ e :: after ∧
          ((powerOn eeprom).run (events ++ before)).TakesAddress e c ∧
          (tokenize ((powerOn eeprom).heard [] (events ++ before))).2 = some twiAddressCmd) ∧
      (∀ later, ¬ ((powerOn eeprom).run events).Booting →
        (∀ before e after, later = before ++ e :: after →
          ((powerOn eeprom).run (events ++ .powerLoss :: before)).Booting) →
        ((powerOn eeprom).run (events ++ .powerLoss :: later)).SetUp →
        ((powerOn eeprom).run (events ++ .powerLoss :: later)).panel.twiAddress =
            ((powerOn eeprom).run events).panel.twiAddress ∨
          ∃ c, ((powerOn eeprom).run events).Commanded c ∧
            ((powerOn eeprom).run (events ++ .powerLoss :: later)).panel.twiAddress =
              if ValidAddress c then c else 0x61) ∧
      (((powerOn eeprom).run events).step .powerLoss).run (List.replicate 6 .next) =
        ⟨Machine.boot ((powerOn eeprom).run events).panel.eeprom, .running⟩ := by
  have hknows := (powerOn_knows eeprom).run events
  refine ⟨fun hsetUp => ?_, fun later hrunning hchanged => ?_, fun later hsetUp hboot hup => ?_, boots _⟩
  · obtain ⟨hsame, hne, hle⟩ := hknows.addressed hsetUp
    have hpos : ((powerOn eeprom).run events).panel.eeprom.toNat ≠ 0 :=
      fun h => hne (UInt8.toNat_inj.mp h)
    rw [hsame]
    exact ⟨rfl, UInt8.le_iff_toNat_le.mpr (Nat.one_le_iff_ne_zero.mpr hpos), hle⟩
  · have haddressed : Addressed ((powerOn eeprom).run events).panel := by
      refine hknows.addressed ?_
      unfold SetUp
      rw [hrunning]
      trivial
    by_contra hnone
    refine hchanged ?_
    rw [run_append]
    refine (keeps_run hknows ⟨.inl hrunning, rfl, haddressed.valid⟩ fun before e after c heq htakes => ?_).2.1
    rw [← run_append] at htakes
    have hfollows := @Follows.run _ (powerOn_knows eeprom) [] ⟨rfl, rfl⟩ (events ++ before)
    exact hnone ⟨before, e, after, c, heq, htakes, takesAddress_pending hfollows htakes⟩
  · rw [run_append] at hup ⊢
    refine comes_up hknows hsetUp (fun before e after heq => ?_) hup
    have hbooting := hboot before e after heq
    rwa [run_append] at hbooting

/-- An address command with argument 0 on a device that answers on 0x62, cut short after
the cell was written. -/
def cutShort : List DeviceEvent :=
  List.replicate 6 .next ++
    [.machine (.receive [0x80, 0x00]), .machine .timer, .machine .timer, .next]

/-- The device comes up on the default. -/
theorem always_addressable_cutShort :
    ((powerOn 0x62).run cutShort).panel.twiAddress = 0x62 ∧
      ((powerOn 0x62).run cutShort).panel.eeprom = 0 ∧
      (((powerOn 0x62).run (cutShort ++ .powerLoss :: List.replicate 6 .next)).panel.twiAddress = 0x62 ∨
        ∃ c, ((powerOn 0x62).run cutShort).Commanded c ∧
          ((powerOn 0x62).run (cutShort ++ .powerLoss :: List.replicate 6 .next)).panel.twiAddress =
            if ValidAddress c then c else 0x61) := by
  refine ⟨by decide, by decide, ?_⟩
  refine (always_addressable 0x62 cutShort).2.2.1 (List.replicate 6 .next) ?_ ?_ trivial
  · rintro ⟨pc, hpc⟩
    cases hpc
  · intro before e after heq
    obtain ⟨hlength, hbefore, -⟩ := List.append_eq_replicate_iff.mp heq.symm
    rw [List.length_cons] at hlength
    have hlt : before.length < 6 := by omega
    rw [hbefore]
    generalize before.length = k at hlt
    interval_cases k <;> exact ⟨_, rfl⟩

end Device

end Botgeddon.Firmware
