import Botgeddon.Firmware.Overflow
import Botgeddon.Firmware.PowerLoss
import Botgeddon.Firmware.Refresh
import Botgeddon.Host

/-! The host and the big display, on one bus.

The display takes the transactions that go to its own address, works them off between
its refreshes, and shows what the host's latest iteration shows, as long as the host
shows nothing that is a command. Any cut in the host's bytes is made good by the
start-up of the next execution: only a display that waits for an address can be thrown
off by it, and no host byte makes it wait for one. -/
namespace Botgeddon
open Arena Firmware Host ShiftRegister

/-! ### The display on the bus -/

/-- What the controller does of itself. -/
inductive Own where
  | timer
  | foreground

def Own.event : Own → Firmware.Event
  | .timer => .timer
  | .foreground => .foreground

/-- The controller as a slave of the bus. -/
def bigDisplay : Bus.Slave UInt8 (List UInt8) Own Firmware.Event Machine where
  address s := s.controller.panel.twiAddress
  step := Machine.step
  hear := .receive
  own := Own.event

abbrev Schedule := List (Bus.Event UInt8 (List UInt8) Own)

/-- The bytes a schedule brings to an address. -/
theorem received_inputs (a : UInt8) (events : Schedule) :
    received (bigDisplay.inputs a events) = (Bus.sentTo a (Bus.messages events)).flatten := by
  induction events with
  | nil => rfl
  | cons e events ih =>
    have hcons : bigDisplay.inputs a (e :: events) = bigDisplay.input a e ++ bigDisplay.inputs a events := rfl
    rw [hcons, received, List.flatMap_append]
    show received (bigDisplay.input a e) ++ received (bigDisplay.inputs a events) = _
    rw [ih]
    cases e with
    | own e => cases e <;> rfl
    | message target data =>
      simp only [Bus.Slave.input, Bus.messages, Bus.sentTo, List.filterMap_cons]
      split <;> simp [received, Event.received, bigDisplay]

/-! ### Bytes that leave the address alone -/

/-- Nothing has touched the address, and no argument for it is awaited. -/
structure KeepsAddress (p₀ p : Panel) : Prop where
  eeprom : p.eeprom = p₀.eeprom
  twiAddress : p.twiAddress = p₀.twiAddress
  commandMode : p.commandMode ≠ twiAddressCmd

theorem KeepsAddress.execute {p₀ p : Panel} (h : KeepsAddress p₀ p) {c : UInt8} (hc : c ≠ twiAddressCmd) :
    KeepsAddress p₀ (p.execute c) := by
  obtain ⟨heeprom, htwi⟩ := execute_address h.commandMode c
  refine ⟨heeprom.trans h.eeprom, htwi.trans h.twiAddress, ?_⟩
  rw [execute_commandMode, nextMode]
  split
  · exact hc
  · decide

/-- Without the byte of the command there is no command. -/
theorem KeepsAddress.feed {p₀ p : Panel} (h : KeepsAddress p₀ p) {bytes : List UInt8}
    (hbytes : twiAddressCmd ∉ bytes) : KeepsAddress p₀ (p.feed bytes) := by
  induction bytes generalizing p with
  | nil => exact h
  | cons c bytes ih =>
    have hc : c ≠ twiAddressCmd := fun heq => hbytes (heq ▸ List.mem_cons_self)
    exact ih (h.execute hc) fun hmem => hbytes (List.mem_cons_of_mem c hmem)

theorem displayable_ne {c : UInt8} (h : Displayable c) : c ≠ twiAddressCmd := by
  rintro rfl
  exact absurd h (by decide)

theorem sent_keeps {s : SegmentLedState} (h : Plain s) : twiAddressCmd ∉ sent s := by
  simp only [sent, List.mem_cons, List.not_mem_nil, or_false, not_or]
  exact ⟨by decide, by decide, (displayable_ne (h 0)).symm, (displayable_ne (h 1)).symm, (displayable_ne (h 2)).symm⟩

/-- What an execution with safe times sends to the big display does not touch its address. -/
theorem sentBefore_keeps {r : Run} {N : ℕ} (h : ∀ n < N, r.TimesSafe n) :
    twiAddressCmd ∉ Host.startUp.flatten ++ r.sentBefore N := by
  intro hmem
  rcases List.mem_append.mp hmem with hstart | hframes
  · exact absurd hstart (by decide)
  · obtain ⟨n, hn, hsent⟩ := List.mem_flatMap.mp hframes
    exact sent_keeps ((r.plain_iff n).mpr (h n (List.mem_range.mp hn))) hsent

/-! ### The start-up -/

/-- Whatever command was left unfinished, the start-up finishes it and leaves none: its
first byte is the argument of the command, and then its second is a character. -/
theorem feed_startUp {p : Panel} (h : p.commandMode ≠ twiAddressCmd) :
    (p.feed Host.startUp.flatten).commandMode = 0 ∧ (p.feed Host.startUp.flatten).display.decimals = 0 ∧
      (p.feed Host.startUp.flatten).eeprom = p.eeprom ∧ (p.feed Host.startUp.flatten).twiAddress = p.twiAddress := by
  have hkeeps : KeepsAddress p (p.feed Host.startUp.flatten) :=
    KeepsAddress.feed ⟨rfl, rfl, h⟩ (by decide)
  refine ⟨?_, ?_, hkeeps.eeprom, hkeeps.twiAddress⟩
  · show ((((p.execute 0x79).execute 0x00).execute 0x77).execute 0x00).commandMode = 0
    simp only [execute_commandMode]
    by_cases hmode : p.commandMode = 0
    · rw [hmode]
      decide
    · have hargument : nextMode p.commandMode 0x79 = 0 := if_neg fun hnot => hmode hnot.1
      rw [hargument]
      decide
  · show ((((p.execute 0x79).execute 0x00).execute 0x77).execute 0x00).display.decimals = 0
    have hmode : (((p.execute 0x79).execute 0x00).execute 0x77).commandMode = decimalCmd := by
      simp only [execute_commandMode]
      by_cases hmode : p.commandMode = 0
      · rw [hmode]
        decide
      · have hargument : nextMode p.commandMode 0x79 = 0 := if_neg fun hnot => hmode hnot.1
        rw [hargument]
        decide
    rw [Panel.execute_command (by rw [hmode]; decide), Panel.command, if_pos hmode]

/-- **The host may be killed at any byte.** Whatever executions came before, each cut
anywhere, the display agrees with the next one from its first iteration on, and its
address has not been touched. -/
theorem host_restarts {p : Panel} (hp : p.commandMode ≠ twiAddressCmd) {cuts : List (List UInt8)}
    (hcuts : ∀ cut ∈ cuts, ∃ (r : Run) (N : ℕ), (∀ n < N, r.TimesSafe n) ∧ cut <+: Host.startUp.flatten ++ r.sentBefore N)
    {r : Run} {N : ℕ} (hsafe : ∀ n < N, r.TimesSafe n) :
    (∀ n < N, r.Agrees (p.feed (cuts.flatten ++ Host.startUp.flatten)) n) ∧
      (p.feed (cuts.flatten ++ Host.startUp.flatten)).display.decimals = 0 ∧
      ∀ n ≤ N, (r.panel (p.feed (cuts.flatten ++ Host.startUp.flatten)) n).eeprom = p.eeprom ∧
        (r.panel (p.feed (cuts.flatten ++ Host.startUp.flatten)) n).twiAddress = p.twiAddress := by
  have hbefore : twiAddressCmd ∉ cuts.flatten := by
    intro hmem
    obtain ⟨cut, hcut, hin⟩ := List.mem_flatten.mp hmem
    obtain ⟨r', N', hsafe', hwhole⟩ := hcuts cut hcut
    exact sentBefore_keeps hsafe' (hwhole.subset hin)
  have hkeeps : KeepsAddress p (p.feed cuts.flatten) := KeepsAddress.feed ⟨rfl, rfl, hp⟩ hbefore
  obtain ⟨hmode, hdecimals, heeprom, htwi⟩ := feed_startUp hkeeps.commandMode
  rw [← Panel.feed_append] at hmode hdecimals heeprom htwi
  refine ⟨fun n hn => Run.agrees_of_timesSafe hmode hsafe hn, hdecimals, fun n hn => ?_⟩
  have hstart : KeepsAddress p (p.feed (cuts.flatten ++ Host.startUp.flatten)) :=
    ⟨heeprom.trans hkeeps.eeprom, htwi.trans hkeeps.twiAddress, by rw [hmode]; decide⟩
  have hframes : twiAddressCmd ∉ r.sentBefore n := fun hmem =>
    sentBefore_keeps (fun k hk => hsafe k (hk.trans_le hn)) (List.mem_append_right _ hmem)
  have hall := hstart.feed hframes
  rw [Run.feed_sentBefore] at hall
  exact ⟨hall.eeprom, hall.twiAddress⟩

theorem interrupted_timesSafe : ∀ n < 12, Run.interrupted.TimesSafe n := by
  have hover : ∀ n < 12, Run.interrupted.phase n = .Paused →
      SafeMinutes ⌈Run.interrupted.timeRemaining n⌉ := by decide +kernel
  exact fun n hn => ⟨fun _ => .inl (show (48 + (0 : ℤ).tdiv 60) % 256 < 118 by decide), fun hfrom _ => hover n hn hfrom⟩

/-- An execution cut between a cursor command and its argument: the next one's first
byte is taken for the argument. -/
theorem host_restarts_midway :
    Run.interrupted.Agrees
      (setUp.controller.panel.feed ([[0x79, 0x00, 0x77, 0x00, 0x79]].flatten ++ Host.startUp.flatten)) 11 := by
  have hcuts : ∀ cut ∈ [[0x79, 0x00, 0x77, 0x00, 0x79]], ∃ (r : Run) (N : ℕ), (∀ n < N, r.TimesSafe n) ∧
      cut <+: Host.startUp.flatten ++ r.sentBefore N := by
    intro cut hcut
    obtain rfl := List.mem_singleton.mp hcut
    refine ⟨Run.interrupted, 1, fun n hn => interrupted_timesSafe n (by omega), ?_⟩
    exact ⟨[0x00] ++ (sent (Run.interrupted.shown 0)).drop 2, rfl⟩
  exact (host_restarts (by decide) hcuts interrupted_timesSafe).1 11 (by decide)

/-! ### Reading the display -/

/-- The digit whose segments the eight lines of a position are, if it is one. -/
def readDigit (face : List Bool) : Option ℕ := (List.range 10).find? fun d => lines (pattern (digit d)) = face

/-- The seconds a spectator reads off the outputs of the drivers: the units are shifted
out first, the minutes last. -/
def readClock (outputs : List Bool) : Option ℕ :=
  (readDigit (outputs.drop 16)).bind fun minutes =>
    (readDigit ((outputs.drop 8).take 8)).bind fun tens =>
      (readDigit (outputs.take 8)).map fun units => 60 * minutes + 10 * tens + units

/-- No two digits look alike. -/
theorem readDigit_lines {d : ℕ} (h : d < 10) : readDigit (lines (pattern (digit d))) = some d := by
  interval_cases d <;> decide +kernel

/-- What spells a time is read as that time. -/
theorem readClock_spells {s : SegmentLedState} {secs : ℤ} (h : Spells s secs) {d : Display}
    (hd : d.digits = #v[s.char 0, s.char 1, s.char 2]) : readClock (refreshBits d) = some secs.toNat := by
  obtain ⟨d0, d1, d2, h0, h1, h2, hsecs, hs0, hs1, hs2⟩ := h
  have hbits : refreshBits d =
      lines (pattern (digit d2)) ++ (lines (pattern (digit d1)) ++ lines (pattern (digit d0))) := by
    rw [refreshBits, hd, hs0, hs1, hs2, List.append_assoc]
    rfl
  have hlength : ∀ c, (lines (pattern c)).length = 8 := fun c => rfl
  have hunits : (refreshBits d).take 8 = lines (pattern (digit d2)) := by
    rw [hbits, List.take_left' (hlength _)]
  have hrest : (refreshBits d).drop 8 = lines (pattern (digit d1)) ++ lines (pattern (digit d0)) := by
    rw [hbits, List.drop_left' (hlength _)]
  have hminutes : (refreshBits d).drop 16 = lines (pattern (digit d0)) := by
    rw [show 16 = 8 + 8 from rfl, ← List.drop_drop, hrest, List.drop_left' (hlength _)]
  rw [readClock, hminutes, hrest, List.take_left' (hlength _), hunits, readDigit_lines h0,
    readDigit_lines (by omega), readDigit_lines h2]
  show some (60 * d0 + 10 * d1 + d2) = some secs.toNat
  exact congrArg some (by omega)

/-! ### From the referee's clock to the audience -/

/-- The outputs of the drivers after an uninterrupted call of `displaySegments`. -/
def latched (s : Machine) (w : Wires) (reg : Register) : List Bool :=
  (reg.run (w.edges (displaySegments s.controller.panel.display))).outputs

/-- The display was at its address before the execution, and has been sent all of it, in
whatever order with its own events. -/
structure Sent (x : Execution) (fuel : ℕ) (s : Machine) (events : Schedule) : Prop where
  configured : x.Configured
  started : Started s
  commandMode : s.controller.panel.commandMode ≠ twiAddressCmd
  address : s.controller.panel.twiAddress = bigSegmentLedI2cAddress
  sent : Bus.messages events = transactions (x.main fuel).1

/-- And it has lost nothing of it and has nothing pending. -/
structure Delivered (x : Execution) (fuel : ℕ) (s : Machine) (events : Schedule) : Prop
    extends Sent x fuel s events where
  room : NeverOverflows (bigDisplay.inputs bigSegmentLedI2cAddress events)
  drained : (bigDisplay.run s events).controller.buffer.head = (bigDisplay.run s events).controller.buffer.tail

section Delivery

variable {x : Execution} {fuel : ℕ} {s : Machine} {events : Schedule}

theorem Sent.received (h : Sent x fuel s events) :
    Firmware.received (bigDisplay.inputs bigSegmentLedI2cAddress events) =
      Host.startUp.flatten ++ x.run.sentBefore (x.rounds fuel) := by
  rw [received_inputs, h.sent, Execution.sentTo_big h.configured]

/-- No byte of the execution makes the display move. -/
theorem Sent.stays (h : Sent x fuel s events) (hsafe : ∀ n < x.rounds fuel, x.run.TimesSafe n)
    {before : Schedule} (hbefore : before <+: events) :
    (s.run (bigDisplay.inputs bigSegmentLedI2cAddress before)).controller.panel.twiAddress =
      bigSegmentLedI2cAddress := by
  obtain ⟨rest, rfl⟩ := hbefore
  obtain ⟨hrun, hhanded⟩ := h.started.refines.run (bigDisplay.inputs bigSegmentLedI2cAddress before)
  have hall := h.received
  rw [Bus.Slave.inputs_append, Firmware.received, List.flatMap_append] at hall
  have hkeeps : KeepsAddress s.controller.panel (s.controller.panel.feed
      (s.handed (bigDisplay.inputs bigSegmentLedI2cAddress before))) := by
    refine KeepsAddress.feed ⟨rfl, rfl, h.commandMode⟩ fun hmem => ?_
    have hreceived := (handed_sublist h.started _).subset hmem
    have hsent : twiAddressCmd ∈ Host.startUp.flatten ++ x.run.sentBefore (x.rounds fuel) :=
      hall ▸ List.mem_append_left _ hreceived
    exact sentBefore_keeps hsafe hsent
  have hpanel := hrun.panel
  rw [hhanded] at hpanel
  rw [hpanel]
  exact hkeeps.twiAddress.trans h.address

/-- The display is driven by what the host sends it. -/
theorem Sent.run_eq (h : Sent x fuel s events) (hsafe : ∀ n < x.rounds fuel, x.run.TimesSafe n) :
    bigDisplay.run s events = s.run (bigDisplay.inputs bigSegmentLedI2cAddress events) :=
  Bus.Slave.run_at fun _ hbefore => h.stays hsafe hbefore

theorem Delivered.panel_eq (h : Delivered x fuel s events) (hsafe : ∀ n < x.rounds fuel, x.run.TimesSafe n) :
    (bigDisplay.run s events).controller.panel =
      x.run.panel (s.controller.panel.feed Host.startUp.flatten) (x.rounds fuel) := by
  have hdrained := h.drained
  rw [h.run_eq hsafe] at hdrained ⊢
  rw [run_drained h.started h.room hdrained, h.received]
  show s.controller.panel.feed _ = _
  rw [Panel.feed_append, Run.feed_sentBefore]

/-- The display holds what the last iteration shows. -/
theorem Delivered.digits (h : Delivered x fuel s events) {N : ℕ} (hN : x.rounds fuel = N + 1)
    (hsafe : ∀ n < N + 1, x.run.TimesSafe n) :
    (bigDisplay.run s events).controller.panel.display.digits =
      #v[(x.run.shown N).char 0, (x.run.shown N).char 1, (x.run.shown N).char 2] := by
  obtain ⟨hmode, -, -, -⟩ := feed_startUp h.commandMode
  have hagrees : x.run.Agrees (s.controller.panel.feed Host.startUp.flatten) N :=
    Run.agrees_of_timesSafe hmode hsafe (Nat.lt_succ_self N)
  rw [h.panel_eq (hN ▸ hsafe), hN]
  exact hagrees.digits

/-- And the drivers put it out. -/
theorem latched_eq (s : Machine) (w : Wires) {reg : Register} (hreg : reg.stages.length = 24) :
    latched s w reg = refreshBits s.controller.panel.display := by
  rw [latched, displaySegments_eq]
  exact outputs_refresh w hreg

end Delivery

/-- **What the audience sees is what the referee's clock says.** After any number of
iterations, the drivers put out the characters the last one shows, with the display
still at its address; and when that shows a timer, the seconds read off the outputs are
the seconds left, rounded up. -/
theorem audience_clock {x : Execution} {fuel N : ℕ} {s : Machine} {events : Schedule}
    (h : Delivered x fuel s events) (hN : x.rounds fuel = N + 1) (hsafe : ∀ n < N + 1, x.run.TimesSafe n)
    (w : Wires) {reg : Register} (hreg : reg.stages.length = 24) :
    (bigDisplay.run s events).controller.panel.twiAddress = bigSegmentLedI2cAddress ∧
      latched (bigDisplay.run s events) w reg =
        lines (pattern ((x.run.shown N).char 2)) ++ lines (pattern ((x.run.shown N).char 1)) ++
          lines (pattern ((x.run.shown N).char 0)) ∧
      (x.run.Timed N → ¬ Run.PausesInTime (x.run.input N) (x.run.state N).state →
        readClock (latched (bigDisplay.run s events) w reg) = some ⌈x.run.timeLeft N⌉.toNat) := by
  have hsafe' : ∀ n < x.rounds fuel, x.run.TimesSafe n := hN ▸ hsafe
  have hdigits := h.digits hN hsafe
  rw [latched_eq _ w hreg]
  refine ⟨?_, ?_, fun htimed hpauses => ?_⟩
  · rw [h.run_eq hsafe']
    exact h.stays hsafe' (List.prefix_refl events)
  · rw [refreshBits, hdigits]
    rfl
  · exact readClock_spells ((x.run.showsTimer_iff N).mpr hpauses htimed).1 hdigits

/-! ### A display that keeps up -/

/-- The timer of the display fires four times after every message. -/
def attended (messages : List (UInt8 × List UInt8)) : Schedule := Bus.spread (List.replicate 4 .timer) messages

/-- No transaction of the host has more than four bytes. -/
theorem transactions_short {x : Execution} (h : x.Configured) (fuel : ℕ) :
    ∀ m ∈ transactions (x.main fuel).1, m.2.length ≤ 4 := by
  intro m hm
  have hstart : ∀ data ∈ Host.startUp, data.length ≤ 4 := by decide
  have hsmall : ∀ s : SegmentLedState, ∀ data ∈ smallFrame s, data.length ≤ 4 := by
    intro s data hdata
    simp only [smallFrame, List.mem_cons, List.not_mem_nil, or_false] at hdata
    rcases hdata with rfl | rfl | rfl <;> simp
  have hbig : ∀ s : SegmentLedState, ∀ data ∈ bigFrame s, data.length ≤ 4 := by
    intro s data hdata
    simp only [bigFrame, List.mem_cons, List.not_mem_nil, or_false] at hdata
    rcases hdata with rfl | rfl <;> simp
  rw [Execution.transactions_main h] at hm
  simp only [List.mem_append, List.mem_flatMap, List.mem_map, roundMessages] at hm
  rcases hm with ((⟨data, hdata, rfl⟩ | ⟨data, hdata, rfl⟩) | ⟨data, hdata, rfl⟩) |
    ⟨n, -, (⟨data, hdata, rfl⟩ | ⟨data, hdata, rfl⟩) | ⟨data, hdata, rfl⟩⟩
  · exact hstart data hdata
  · exact hstart data hdata
  · exact hstart data hdata
  · exact hsmall _ data hdata
  · exact hsmall _ data hdata
  · exact hbig _ data hdata

/-- What one message and its interrupts are to the queue. -/
theorem ops_attended (a : UInt8) (messages : List (UInt8 × List UInt8)) :
    ops (bigDisplay.inputs a (attended messages)) = (messages.map fun m =>
      (if m.1 = a then m.2.map Fifo.Op.arrive else []) ++ List.replicate 4 .serve).flatten := by
  induction messages with
  | nil => rfl
  | cons m messages ih =>
    rw [List.map_cons, List.flatten_cons, ← ih]
    show ops (bigDisplay.inputs a ((.message m.1 m.2 :: (List.replicate 4 Own.timer).map .own) ++ attended messages)) = _
    rw [Bus.Slave.inputs_append, ops, List.flatMap_append]
    refine congrArg (· ++ _) ?_
    show ((if m.1 = a then [Firmware.Event.receive m.2] else []) ++ List.replicate 4 Firmware.Event.timer).flatMap
      Firmware.Event.ops = _
    split
    · simp [Firmware.Event.ops]
    · simp [Firmware.Event.ops]

/-- A short message is worked off by its interrupts. -/
theorem message_served (a : UInt8) {m : UInt8 × List UInt8} (hm : m.2.length ≤ 4) {f : Fifo UInt8}
    (hf : f.queue = []) :
    f.Lossless capacity ((if m.1 = a then m.2.map Fifo.Op.arrive else []) ++ List.replicate 4 .serve) ∧
      (f.run capacity ((if m.1 = a then m.2.map Fifo.Op.arrive else []) ++ List.replicate 4 .serve)).queue = [] := by
  have harrivals : Fifo.arrivals (m.2.map Fifo.Op.arrive) = m.2 := (Event.receive m.2).arrivals_ops
  by_cases ha : m.1 = a
  · rw [if_pos ha]
    refine Fifo.burst_served hf (served_map_arrive m.2) ?_ (by decide)
    rwa [Fifo.arrived, harrivals]
  · rw [if_neg ha]
    exact Fifo.burst_served hf rfl (Nat.zero_le 4) (by decide)

/-- Such a display loses nothing, and has nothing left to do at the end. -/
theorem delivered_attended {x : Execution} {fuel : ℕ} {s : Machine} (hx : x.Configured) (hs : Started s)
    (hmode : s.controller.panel.commandMode ≠ twiAddressCmd)
    (haddress : s.controller.panel.twiAddress = bigSegmentLedI2cAddress)
    (hsafe : ∀ n < x.rounds fuel, x.run.TimesSafe n) :
    Delivered x fuel s (attended (transactions (x.main fuel).1)) := by
  have hsent : Sent x fuel s (attended (transactions (x.main fuel).1)) :=
    ⟨hx, hs, hmode, haddress, Bus.messages_spread _ _⟩
  have hserved : NeverOverflows (bigDisplay.inputs bigSegmentLedI2cAddress (attended (transactions (x.main fuel).1))) ∧
      (queueAfter (bigDisplay.inputs bigSegmentLedI2cAddress (attended (transactions (x.main fuel).1)))).queue = [] := by
    rw [NeverOverflows, queueAfter, ops_attended]
    refine Fifo.bursts_served (fun w hw f hf => ?_) rfl
    obtain ⟨m, hm, rfl⟩ := List.mem_map.mp hw
    exact message_served _ (transactions_short hx fuel m hm) hf
  refine ⟨hsent, hserved.1, ?_⟩
  rw [hsent.run_eq hsafe]
  exact (hs.refines.run _).1.queue.empty_iff.mpr hserved.2

/-- The interrupted match, with all pins in order and no signal. -/
def interruptedExecution : Execution :=
  ⟨⟨Run.interrupted, fun _ _ => .origin⟩, fun _ => true, fun _ => false, Vector.replicate _ 0⟩

theorem interrupted_delivered :
    Delivered interruptedExecution 9 setUp (attended (transactions (interruptedExecution.main 9).1)) :=
  delivered_attended rfl setUp_started (by decide) (by decide) fun n hn => interrupted_timesSafe n (hn.trans (by decide))

/-- After its pause the audience reads 1:56. -/
theorem audience_clock_interrupted :
    readClock (latched (bigDisplay.run setUp (attended (transactions (interruptedExecution.main 9).1)))
      ⟨true, true, true⟩ ⟨List.replicate 24 true, []⟩) = some 116 := by
  have hsafe : ∀ n < 9, Run.interrupted.TimesSafe n := fun n hn => interrupted_timesSafe n (by omega)
  have hleft : Run.interrupted.timeLeft 8 = 116 := by decide +kernel
  have htimed : Run.interrupted.Timed 8 := .inr ⟨by decide +kernel, by rw [hleft]; norm_num⟩
  have hpauses : ¬ Run.PausesInTime (Run.interrupted.input 8) (Run.interrupted.state 8).state := fun h =>
    absurd ((Run.pausesInTime_iff Run.interrupted 8).mp h).1.1 (by decide +kernel)
  have hclock := (audience_clock interrupted_delivered rfl hsafe ⟨true, true, true⟩
    (show (Register.mk (List.replicate 24 true) []).stages.length = 24 from rfl)).2.2 htimed hpauses
  rw [hclock]
  show some ⌈Run.interrupted.timeLeft 8⌉.toNat = some 116
  rw [hleft, Int.ceil_ofNat]
  rfl

end Botgeddon
