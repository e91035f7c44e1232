import Botgeddon.Firmware.Frames

/-! Which frame a digit belongs to.

`displaySegments` reads the digits one at a time, the last first, and the timer
interrupt stores a frame one byte at a time in between, so that one call can latch
digits of several frames. Each digit has the frame to itself that last reached it:
`version` is the number of that frame, and a call whose first and last read agree
on it shows one frame. -/
namespace Botgeddon.Firmware

/-- What `setup` leaves in the digits. -/
def startUp : Frame := ⟨0x31, 0x32, 0x33⟩

/-- The picture of frame number `v`, counted from 1; number 0 is what `setup` leaves. -/
def picture (frames : List Frame) (v : ℕ) : Frame := (startUp :: frames).getD v startUp

/-- The number of the frame that was the last to reach digit `i` when `n` bytes have
been handed over. -/
def version (i n : ℕ) : ℕ := (n + 2 - i) / 5

/-! ### The reads -/

/-- A read of digit `digit` with result `value`, when `after` bytes have been handed over. -/
structure Read where
  digit : ℕ
  value : UInt8
  after : ℕ

/-- The digit and what the foreground reads from it. -/
def Machine.readBy (s : Machine) : Event → Option (ℕ × UInt8)
  | .foreground =>
    match s.foreground with
    | .read x => some (2 - x, s.controller.panel.display.digits[2 - x]!)
    | _ => none
  | _ => none

/-- The reads in the course of the events, the first of which comes after `n` bytes. -/
def Machine.reads (s : Machine) (n : ℕ) : List Event → List Read
  | [] => []
  | e :: events =>
    ((s.readBy e).map fun (digit, value) => ⟨digit, value, n⟩).toList ++
      (s.step e).reads (n + (s.handedBy e).toList.length) events

/-! ### A byte of a frame -/

/-- Where in a frame the panel is after `n` bytes of frames. -/
structure InStep (n : ℕ) (p : Panel) : Prop where
  commandMode : p.commandMode = if n % 5 = 1 then cursorCmd else 0
  cursor : 2 ≤ n % 5 → p.display.cursor = n % 5 - 2

theorem getElem?_bytes (frames : List Frame) (n : ℕ) :
    (frames.flatMap Frame.bytes)[n]? = frames[n / 5]?.bind fun f => f.bytes[n % 5]? := by
  induction frames generalizing n with
  | nil => rfl
  | cons f frames ih =>
    rw [List.flatMap_cons]
    have hlength : f.bytes.length = 5 := rfl
    by_cases hn : n < 5
    · rw [List.getElem?_append_left (by omega), Nat.div_eq_of_lt hn, Nat.mod_eq_of_lt hn]
      rfl
    · obtain ⟨m, rfl⟩ : ∃ m, n = m + 5 := ⟨n - 5, by omega⟩
      rw [List.getElem?_append_right (by omega), hlength, Nat.add_sub_cancel, ih,
        Nat.add_div_right m (by decide), Nat.add_mod_right]
      rfl

/-- The first byte of a frame is the cursor command. -/
theorem InStep.enter {n : ℕ} {p : Panel} (h : InStep n p) (hn : n % 5 = 0) :
    p.execute cursorCmd = { p with commandMode := cursorCmd } := by
  have hmode : p.commandMode = 0 := by rw [h.commandMode, if_neg (by omega)]
  rw [Panel.execute_enter hmode (by decide), if_neg (by decide)]

/-- The second is its argument. -/
theorem InStep.home {n : ℕ} {p : Panel} (h : InStep n p) (hn : n % 5 = 1) :
    p.execute 0 = { p with display := { p.display with cursor := 0 }, commandMode := 0 } := by
  have hmode : p.commandMode = cursorCmd := by rw [h.commandMode, if_pos hn]
  obtain ⟨display, commandMode, eeprom, twiAddress⟩ := p
  obtain rfl : commandMode = cursorCmd := hmode
  rfl

/-- The others are characters, and go into their digits. -/
theorem InStep.store {n i : ℕ} {p : Panel} (h : InStep n p) (hi : i < 3) (hn : n % 5 = i + 2) {c : UInt8}
    (hc : Displayable c) :
    p.execute c = { p with display := ⟨p.display.digits.set i c, p.display.decimals, (i + 1) % 3⟩ } := by
  have hmode : p.commandMode = 0 := by rw [h.commandMode, if_neg (by omega)]
  have hcursor : p.display.cursor = i := by rw [h.cursor (by omega), hn, Nat.add_sub_cancel]
  subst hcursor
  rw [Panel.execute_data hmode hc, Display.store_eq hi]

theorem Frame.character {f : Frame} (hf : f.Shown) {i : ℕ} (hi : i < 3) {c : UInt8}
    (hc : f.bytes[i + 2]? = some c) : c = f.digits[i]! ∧ Displayable c := by
  have hi' : i = 0 ∨ i = 1 ∨ i = 2 := by omega
  rcases hi' with rfl | rfl | rfl <;> obtain rfl := Option.some.inj hc
  · exact ⟨rfl, hf.s0⟩
  · exact ⟨rfl, hf.s1⟩
  · exact ⟨rfl, hf.s2⟩

theorem byte_cases (n : ℕ) : n % 5 = 0 ∨ n % 5 = 1 ∨ ∃ i < 3, n % 5 = i + 2 := by
  have hlt : n % 5 < 5 := Nat.mod_lt n (by decide)
  rcases Nat.lt_or_ge (n % 5) 2 with hsmall | hlarge
  · omega
  · exact .inr (.inr ⟨n % 5 - 2, by omega, by omega⟩)

/-- A byte of a frame keeps the panel in step, and is stored if it is a character. -/
theorem InStep.execute {n : ℕ} {p : Panel} (h : InStep n p) {f : Frame} (hf : f.Shown) {c : UInt8}
    (hc : f.bytes[n % 5]? = some c) :
    InStep (n + 1) (p.execute c) ∧ ∀ i < 3, (p.execute c).display.digits[i]! =
      if n % 5 = i + 2 then f.digits[i]! else p.display.digits[i]! := by
  rcases byte_cases n with hn | hn | ⟨j, hj, hn⟩ <;> rw [hn] at hc
  · obtain rfl : cursorCmd = c := Option.some.inj hc
    rw [h.enter hn]
    refine ⟨⟨?_, fun hge => by omega⟩, fun i _ => ?_⟩
    · rw [if_pos (by omega)]
    · rw [if_neg (by omega)]
  · obtain rfl : 0 = c := Option.some.inj hc
    rw [h.home hn]
    refine ⟨⟨?_, fun _ => ?_⟩, fun i _ => ?_⟩
    · rw [if_neg (by omega)]
    · show 0 = (n + 1) % 5 - 2
      omega
    · rw [if_neg (by omega)]
  · obtain ⟨rfl, hshown⟩ := Frame.character hf hj hc
    rw [h.store hj hn hshown]
    refine ⟨⟨?_, fun hge => ?_⟩, fun i hi => ?_⟩
    · show p.commandMode = _
      rw [h.commandMode, if_neg (by omega), if_neg (by omega)]
    · show (j + 1) % 3 = (n + 1) % 5 - 2
      omega
    · show (p.display.digits.set j f.digits[j]!)[i]! = _
      rw [getElem!_set _ hi hj, hn]
      by_cases heq : i = j
      · rw [if_pos heq, if_pos (by omega), heq]
      · rw [if_neg heq, if_neg (by omega)]

/-! ### What a digit holds -/

/-- A law about the byte `c` in digit `i` after `n` bytes of frames: it holds of the
character a frame stores, and goes on holding until the next. -/
structure Lawful (frames : List Frame) (law : ℕ → ℕ → UInt8 → Prop) : Prop where
  keep : ∀ i < 3, ∀ n c, law i n c → n % 5 ≠ i + 2 → law i (n + 1) c
  store : ∀ i < 3, ∀ n f, n % 5 = i + 2 → frames[n / 5]? = some f → law i (n + 1) f.digits[i]!

/-- The digit has been assigned in `setup`. -/
def Foreground.Assigned : Foreground → ℕ → Prop
  | .setup j, i => i < j
  | _, _ => True

/-- The law holds of every digit that has been assigned, and of what is left to assign. -/
structure Obeys (law : ℕ → ℕ → UInt8 → Prop) (n : ℕ) (s : Machine) : Prop where
  inStep : InStep n s.controller.panel
  digits : ∀ i < 3, s.foreground.Assigned i → law i n s.controller.panel.display.digits[i]!
  setup : ¬ s.foreground.InLoop → ∀ i < 3, ∀ n, law i n startUp.digits[i]!

/-- The rest of the bytes of the frames, when `n` have been handed over. -/
def rest (frames : List Frame) (n : ℕ) : List UInt8 := (frames.flatMap Frame.bytes).drop n

/-- The next byte is one of a frame. -/
theorem rest_head {frames : List Frame} {n : ℕ} {c : UInt8} (h : [c] <+: rest frames n) :
    ∃ f, frames[n / 5]? = some f ∧ f.bytes[n % 5]? = some c := by
  obtain ⟨later, hlater⟩ := h
  have hhead : (rest frames n)[0]? = some c := by rw [← hlater]; rfl
  rw [rest, List.getElem?_drop, Nat.add_zero, getElem?_bytes] at hhead
  exact Option.bind_eq_some_iff.mp hhead

theorem rest_append {frames : List Frame} {n : ℕ} {bytes bytes' : List UInt8}
    (h : bytes ++ bytes' <+: rest frames n) : bytes' <+: rest frames (n + bytes.length) := by
  obtain ⟨later, hlater⟩ := h
  refine ⟨later, ?_⟩
  have hdrop := congrArg (List.drop bytes.length) hlater
  rwa [List.append_assoc, List.drop_left, rest, List.drop_drop] at hdrop

theorem foregroundStep_obeys {law : ℕ → ℕ → UInt8 → Prop} {n : ℕ} {s : Machine} (h : Obeys law n s) :
    Obeys law n (s.step .foreground) := by
  obtain ⟨⟨buffer, wire, panel⟩, foreground, posted⟩ := s
  cases foreground with
  | setup j =>
    have hassigned : ∀ i, Foreground.Assigned (if j < 2 then .setup (j + 1) else .read 0) i → i < 3 → i ≤ j := by
      intro i hi hlt
      split at hi
      · exact Nat.lt_succ_iff.mp hi
      · omega
    refine ⟨⟨h.inStep.commandMode, h.inStep.cursor⟩, fun i hi hnext => ?_, fun _ => h.setup id⟩
    show law i n (panel.display.digits.setIfInBounds j (0x31 + UInt8.ofNat j))[i]!
    rw [getElem!_pos _ i hi, Vector.getElem_setIfInBounds]
    rcases Nat.lt_or_eq_of_le (hassigned i hnext hi) with hlt | rfl
    · rw [if_neg (by omega), ← getElem!_pos]
      exact h.digits i hi hlt
    · have hstart : startUp.digits[i]! = 0x31 + UInt8.ofNat i := by
        have hi' : i = 0 ∨ i = 1 ∨ i = 2 := by omega
        rcases hi' with rfl | rfl | rfl <;> rfl
      rw [if_pos rfl, ← hstart]
      exact h.setup id i hi n
  | read x => exact ⟨h.inStep, h.digits, fun hout => absurd trivial hout⟩
  | post x segments =>
    refine ⟨h.inStep, fun i hi _ => h.digits i hi trivial, fun hout => ?_⟩
    refine absurd ?_ hout
    show Foreground.InLoop (if x < 2 then _ else _)
    split <;> trivial

theorem Obeys.step {frames : List Frame} {law : ℕ → ℕ → UInt8 → Prop} (hlaw : Lawful frames law)
    (hframes : ∀ f ∈ frames, f.Shown) {n : ℕ} {s : Machine} (h : Obeys law n s) {e : Event}
    (hbyte : (s.handedBy e).toList <+: rest frames n) :
    Obeys law (n + (s.handedBy e).toList.length) (s.step e) := by
  cases e with
  | receive bytes =>
    have hcontroller := s.receive_controller bytes
    refine ⟨?_, ?_, h.setup⟩ <;> rw [hcontroller]
    · exact h.inStep
    · exact h.digits
  | foreground => exact foregroundStep_obeys h
  | timer =>
    cases hc : s.handedBy .timer with
    | none =>
      rw [Machine.timer_idle hc]
      exact h
    | some c =>
      rw [hc] at hbyte
      obtain ⟨f, hf, hchar⟩ := rest_head hbyte
      obtain ⟨hin, hdigits⟩ := h.inStep.execute (hframes f (List.mem_of_getElem? hf)) hchar
      have hcontroller := Machine.timer_controller hc
      refine ⟨?_, fun i hi hassigned => ?_, h.setup⟩ <;> rw [hcontroller]
      · exact hin
      · show law i (n + 1) (s.controller.panel.execute c).display.digits[i]!
        rw [hdigits i hi]
        split
        case isTrue hn => exact hlaw.store i hi n f hn hf
        case isFalse hn => exact hlaw.keep i hi n _ (h.digits i hi hassigned) hn

/-- A read happens in the loop, and is of one of the digits. -/
theorem readBy_spec {s : Machine} {e : Event} {digit : ℕ} {value : UInt8} (h : s.readBy e = some (digit, value)) :
    ∃ x, e = .foreground ∧ s.foreground = .read x ∧ digit = 2 - x ∧
      value = s.controller.panel.display.digits[digit]! := by
  cases e with
  | receive | timer => cases h
  | foreground =>
    simp only [Machine.readBy] at h
    split at h
    case h_1 x hx =>
      obtain ⟨rfl, rfl⟩ := Prod.mk.inj (Option.some.inj h)
      exact ⟨x, rfl, hx, rfl, rfl⟩
    case h_2 => cases h

theorem mem_reads_cons {s : Machine} {n : ℕ} {e : Event} {events : List Event} {r : Read}
    (h : r ∈ s.reads n (e :: events)) :
    (s.readBy e = some (r.digit, r.value) ∧ r.after = n) ∨
      r ∈ (s.step e).reads (n + (s.handedBy e).toList.length) events := by
  rcases List.mem_append.mp h with hnow | hlater
  · obtain ⟨⟨digit, value⟩, hread, rfl⟩ := Option.map_eq_some_iff.mp (Option.mem_toList.mp hnow)
    exact .inl ⟨hread, rfl⟩
  · exact .inr hlater

/-- Every read obeys the law, with the number of bytes handed over by then. -/
theorem Obeys.reads {frames : List Frame} {law : ℕ → ℕ → UInt8 → Prop} (hlaw : Lawful frames law)
    (hframes : ∀ f ∈ frames, f.Shown) {n : ℕ} {s : Machine} (h : Obeys law n s) {events : List Event}
    (hhanded : s.handed events <+: rest frames n) : ∀ r ∈ s.reads n events, law r.digit r.after r.value := by
  induction events generalizing n s with
  | nil =>
    intro r hr
    cases hr
  | cons e events ih =>
    intro r hr
    rcases mem_reads_cons hr with ⟨hread, rfl⟩ | hlater
    · obtain ⟨x, -, hforeground, hdigit, hvalue⟩ := readBy_spec hread
      rw [hvalue]
      refine h.digits r.digit (by omega) ?_
      rw [hforeground]
      trivial
    · exact ih (h.step hlaw hframes ((List.prefix_append _ _).trans hhanded)) (rest_append hhanded) r hlater

/-! ### The order of the reads -/

/-- The round the next read belongs to. -/
def Foreground.nextRead : Foreground → ℕ
  | .setup _ => 0
  | .read x => x
  | .post x _ => if x < 2 then x + 1 else 0

theorem nextRead_step (s : Machine) (h : s.foreground.nextRead < 3) (e : Event) :
    (s.step e).foreground.nextRead =
      (s.foreground.nextRead + ((s.readBy e).map Prod.fst).toList.length) % 3 := by
  obtain ⟨controller, foreground, posted⟩ := s
  have hsame : foreground.nextRead = foreground.nextRead % 3 := (Nat.mod_eq_of_lt h).symm
  cases e with
  | receive | timer => exact hsame
  | foreground =>
    cases foreground with
    | setup i =>
      show Foreground.nextRead (if i < 2 then _ else _) = 0
      split <;> rfl
    | read x =>
      have hx : x < 3 := h
      show (if x < 2 then x + 1 else 0) = (x + 1) % 3
      split <;> omega
    | post x segments =>
      show Foreground.nextRead (if x < 2 then _ else _) = (if x < 2 then x + 1 else 0) % 3
      split
      case isTrue hx =>
        have hnext : x + 1 < 3 := Nat.add_lt_add_right hx 1
        exact (Nat.mod_eq_of_lt hnext).symm
      case isFalse => rfl

/-- The digits are read in turn, the last first. -/
theorem reads_digit {s : Machine} (h : s.foreground.nextRead < 3) {n : ℕ} {events : List Event} {k : ℕ} {r : Read}
    (hr : (s.reads n events)[k]? = some r) : r.digit = 2 - (s.foreground.nextRead + k) % 3 := by
  induction events generalizing s n k with
  | nil => cases hr
  | cons e events ih =>
    have hstep := nextRead_step s h e
    have hlt : (s.step e).foreground.nextRead < 3 := by
      rw [hstep]
      exact Nat.mod_lt _ (by decide)
    cases hread : s.readBy e with
    | none =>
      rw [Machine.reads, hread] at hr
      rw [ih hlt hr, hstep, hread, Nat.mod_add_mod]
      rfl
    | some read =>
      rw [Machine.reads, hread] at hr
      cases k with
      | zero =>
        obtain rfl := Option.some.inj hr
        obtain ⟨x, -, hforeground, hdigit, -⟩ := readBy_spec hread
        rw [hforeground] at h ⊢
        exact hdigit.trans (congrArg (2 - ·) (Nat.mod_eq_of_lt h).symm)
      | succ k =>
        rw [ih hlt hr, hstep, hread, Nat.mod_add_mod, Nat.add_assoc]
        show 2 - (_ + (1 + k)) % 3 = _
        rw [Nat.add_comm 1 k]

theorem reads_after {s : Machine} {n : ℕ} {events : List Event} {r : Read} (hr : r ∈ s.reads n events) :
    n ≤ r.after := by
  induction events generalizing s n with
  | nil => cases hr
  | cons e events ih =>
    rcases mem_reads_cons hr with ⟨-, rfl⟩ | hlater
    · exact le_refl _
    · exact (Nat.le_add_right _ _).trans (ih hlater)

/-- Later reads come after no fewer bytes. -/
theorem reads_pairwise (s : Machine) (n : ℕ) (events : List Event) :
    (s.reads n events).Pairwise fun r r' => r.after ≤ r'.after := by
  induction events generalizing s n with
  | nil => exact .nil
  | cons e events ih =>
    rw [Machine.reads, List.pairwise_append]
    refine ⟨?_, ih _ _, fun r hr r' hr' => ?_⟩
    · cases s.readBy e with
      | none => exact .nil
      | some read => exact List.pairwise_singleton _ _
    · obtain ⟨read, -, rfl⟩ := Option.map_eq_some_iff.mp (Option.mem_toList.mp hr)
      exact (Nat.le_add_right _ _).trans (reads_after hr')

/-- Read and not yet posted. -/
def Foreground.unposted : Foreground → List UInt8
  | .post _ segments => [segmentsOf segments]
  | _ => []

/-- What is posted is what was read. -/
theorem posted_reads (s : Machine) (n : ℕ) (events : List Event) :
    (s.run events).posted ++ (s.run events).foreground.unposted =
      s.posted ++ s.foreground.unposted ++ (s.reads n events).map fun r => segmentsOf r.value := by
  induction events generalizing s n with
  | nil => exact (List.append_nil _).symm
  | cons e events ih =>
    have hstep : (s.step e).posted ++ (s.step e).foreground.unposted =
        s.posted ++ s.foreground.unposted ++
          ((s.readBy e).map fun (_, value) => segmentsOf value).toList := by
      obtain ⟨controller, foreground, posted⟩ := s
      cases e with
      | receive | timer => exact (List.append_nil _).symm
      | foreground =>
        cases foreground with
        | setup i =>
          show posted ++ Foreground.unposted (if i < 2 then _ else _) = posted ++ [] ++ []
          split <;> exact (List.append_nil _).symm
        | read x =>
          show posted ++ [segmentsOf _] = posted ++ [] ++ [segmentsOf _]
          rw [List.append_nil, getElem!_pos]
        | post x segments =>
          show posted ++ [segmentsOf segments] ++ Foreground.unposted (if x < 2 then _ else _) = _ ++ []
          split <;> rfl
    rw [Machine.run_cons, ih, hstep, Machine.reads, List.map_append, ← List.append_assoc]
    cases s.readBy e <;> rfl

/-! ### The law -/

/-- A run begins here: no byte of a frame has been handed over, the next read is the
first of a call, and what `setup` has assigned is as it left it. -/
structure Fresh (s : Machine) : Prop where
  commandMode : s.controller.panel.commandMode = 0
  nextRead : s.foreground.nextRead = 0
  digits : ∀ i < 3, s.foreground.Assigned i → s.controller.panel.display.digits[i]! = startUp.digits[i]!

theorem boot_fresh (eeprom : UInt8) : Fresh (Machine.boot eeprom) := by
  refine ⟨?_, rfl, fun i _ hassigned => absurd hassigned (Nat.not_lt_zero i)⟩
  show (Panel.setupTWI _).commandMode = 0
  unfold Panel.setupTWI
  split <;> rfl

/-- The character of the last frame to reach the digit. -/
def Latest (frames : List Frame) (i n : ℕ) (c : UInt8) : Prop :=
  c = (picture frames (version i n)).digits[i]!

theorem latest_lawful (frames : List Frame) : Lawful frames (Latest frames) := by
  refine ⟨fun i hi n c hc hn => ?_, fun i hi n f hn hf => ?_⟩
  · have hsame : version i (n + 1) = version i n := by
      unfold version
      omega
    rw [Latest, hsame]
    exact hc
  · have hnext : version i (n + 1) = n / 5 + 1 := by
      unfold version
      omega
    rw [Latest, hnext, picture, List.getD_cons_succ, List.getD_eq_getElem?_getD, hf, Option.getD_some]

theorem latest_or_startUp_lawful (frames : List Frame) :
    Lawful frames fun i n c => c = startUp.digits[i]! ∨ Latest frames i n c := by
  obtain ⟨hkeep, hstore⟩ := latest_lawful frames
  exact ⟨fun i hi n c hc hn => hc.imp id fun h => hkeep i hi n c h hn,
    fun i hi n f hn hf => .inr (hstore i hi n f hn hf)⟩

/-- The first three reads of a call are of the digits 2, 1 and 0, in this order. -/
theorem reads_call {s : Machine} (h : s.foreground.nextRead = 0) {events : List Event} {k : ℕ} {r₂ r₁ r₀ : Read}
    (h₂ : (s.reads 0 events)[3 * k]? = some r₂) (h₁ : (s.reads 0 events)[3 * k + 1]? = some r₁)
    (h₀ : (s.reads 0 events)[3 * k + 2]? = some r₀) :
    r₂.digit = 2 ∧ r₁.digit = 1 ∧ r₀.digit = 0 ∧ r₂.after ≤ r₁.after ∧ r₁.after ≤ r₀.after := by
  have hround : s.foreground.nextRead < 3 := by
    rw [h]
    decide
  have hdigit : ∀ {i j : ℕ} {r : Read}, (s.reads 0 events)[j]? = some r → j % 3 = i → r.digit = 2 - i := by
    intro i j r hr hj
    rw [reads_digit hround hr, h, Nat.zero_add, hj]
  have hordered : ∀ {j : ℕ} {r r' : Read}, (s.reads 0 events)[j]? = some r →
      (s.reads 0 events)[j + 1]? = some r' → r.after ≤ r'.after := by
    intro j r r' hr hr'
    obtain ⟨hj, rfl⟩ := List.getElem?_eq_some_iff.mp hr
    obtain ⟨hj', rfl⟩ := List.getElem?_eq_some_iff.mp hr'
    exact List.pairwise_iff_getElem.mp (reads_pairwise s 0 events) j (j + 1) hj hj' (Nat.lt_succ_self j)
  refine ⟨hdigit h₂ (Nat.mul_mod_right 3 k), @hdigit 1 _ _ h₁ (by omega), @hdigit 2 _ _ h₀ (by omega),
    hordered h₂ h₁, hordered h₁ h₀⟩

theorem Fresh.inStep {s : Machine} (h : Fresh s) : InStep 0 s.controller.panel :=
  ⟨h.commandMode, fun hge => absurd hge (by decide)⟩

/-- From power-on on, a digit is what `setup` wrote or what a frame stored. -/
theorem Fresh.obeys {s : Machine} (h : Fresh s) (frames : List Frame) :
    Obeys (fun i n c => c = startUp.digits[i]! ∨ Latest frames i n c) 0 s :=
  ⟨h.inStep, fun i hi hassigned => .inl (h.digits i hi hassigned), fun _ _ _ _ => .inl rfl⟩

/-- Once `setup` is over, it is what the last frame to reach it stored. -/
theorem Fresh.obeys_latest {s : Machine} (h : Fresh s) (hloop : s.foreground.InLoop) (frames : List Frame) :
    Obeys (Latest frames) 0 s := by
  refine ⟨h.inStep, fun i hi hassigned => ?_, fun hnot => absurd hloop hnot⟩
  have hzero : version i 0 = 0 := by
    unfold version
    omega
  rw [Latest, hzero]
  exact h.digits i hi hassigned

/-- If the first and the last digit are of one frame when they are read, so is the
digit read in between. -/
theorem one_frame {frames : List Frame} {n₂ n₁ n₀ : ℕ} {c₂ c₁ c₀ : UInt8} (hle₁ : n₂ ≤ n₁) (hle₀ : n₁ ≤ n₀)
    (h₂ : Latest frames 2 n₂ c₂) (h₁ : Latest frames 1 n₁ c₁) (h₀ : Latest frames 0 n₀ c₀)
    (hsame : version 0 n₀ = version 2 n₂) : #v[c₀, c₁, c₂] = (picture frames (version 2 n₂)).digits := by
  have hbetween : version 1 n₁ = version 2 n₂ := by
    unfold version at hsame ⊢
    omega
  rw [Latest] at h₂ h₁ h₀
  rw [hbetween] at h₁
  rw [hsame] at h₀
  rw [h₂, h₁, h₀]
  rfl

/-- **A digit belongs to one frame, a call to as many as it reads.** However the bytes of
complete frames are handed over between the reads of a call, it reads the digits last
to first, and each holds the character of the last frame to have reached it, or what
`setup` left there; and the three are one frame, once `setup` is over, if the first
digit when it is read and the last digit when it is read belong to the same frame. -/
theorem digits_of_frames {s : Machine} (hs : Fresh s) {frames : List Frame} (hframes : ∀ f ∈ frames, f.Shown)
    {events : List Event} (hhanded : s.handed events <+: frames.flatMap Frame.bytes) {k : ℕ} {r₂ r₁ r₀ : Read}
    (h₂ : (s.reads 0 events)[3 * k]? = some r₂) (h₁ : (s.reads 0 events)[3 * k + 1]? = some r₁)
    (h₀ : (s.reads 0 events)[3 * k + 2]? = some r₀) :
    r₂.digit = 2 ∧ r₁.digit = 1 ∧ r₀.digit = 0 ∧ r₂.after ≤ r₁.after ∧ r₁.after ≤ r₀.after ∧
      (∀ r ∈ [r₂, r₁, r₀], r.value = startUp.digits[r.digit]! ∨ Latest frames r.digit r.after r.value) ∧
      (s.foreground.InLoop →
        (∀ r ∈ [r₂, r₁, r₀], Latest frames r.digit r.after r.value) ∧
        (version 0 r₀.after = version 2 r₂.after →
          #v[r₀.value, r₁.value, r₂.value] = (picture frames (version 2 r₂.after)).digits)) := by
  obtain ⟨hd₂, hd₁, hd₀, hle₁, hle₀⟩ := reads_call hs.nextRead h₂ h₁ h₀
  have hmem : ∀ r ∈ [r₂, r₁, r₀], r ∈ s.reads 0 events := by
    intro r hr
    simp only [List.mem_cons, List.not_mem_nil, or_false] at hr
    rcases hr with rfl | rfl | rfl <;> exact List.mem_of_getElem? ‹_›
  refine ⟨hd₂, hd₁, hd₀, hle₁, hle₀, fun r hr => ?_, fun hloop => ?_⟩
  · exact (hs.obeys frames).reads (latest_or_startUp_lawful frames) hframes hhanded r (hmem r hr)
  · have hlatest : ∀ r ∈ [r₂, r₁, r₀], Latest frames r.digit r.after r.value := fun r hr =>
      (hs.obeys_latest hloop frames).reads (latest_lawful frames) hframes hhanded r (hmem r hr)
    refine ⟨hlatest, fun hsame => ?_⟩
    have hv₂ := hlatest r₂ (by simp)
    have hv₁ := hlatest r₁ (by simp)
    have hv₀ := hlatest r₀ (by simp)
    rw [hd₂] at hv₂
    rw [hd₁] at hv₁
    rw [hd₀] at hv₀
    exact one_frame hle₁ hle₀ hv₂ hv₁ hv₀ hsame

/-- "456" is on the display, and "789" arrives while a call is under way. -/
def overtaken : List Event :=
  [.receive [0x79, 0, 0x34, 0x35, 0x36], .timer, .timer, .timer, .timer, .timer,
    .receive [0x79, 0, 0x37, 0x38, 0x39], .foreground, .foreground, .timer, .timer, .timer, .timer,
    .timer, .foreground, .foreground, .foreground, .foreground]

/-- Of "789" only the first character is there when a call begins. -/
def halfway : List Event :=
  [.receive [0x79, 0, 0x34, 0x35, 0x36], .timer, .timer, .timer, .timer, .timer,
    .receive [0x79, 0, 0x37, 0x38, 0x39], .timer, .timer, .timer, .foreground, .foreground,
    .foreground, .foreground, .foreground, .foreground, .timer, .timer]

theorem setUp_fresh : Fresh setUp :=
  ⟨by decide, rfl, fun i hi _ => (by decide : ∀ i < 3, _ = startUp.digits[i]!) i hi⟩

/-- The '6' is read before "789" arrives, the '8' and the '7' after it. -/
theorem digits_of_frames_overtaken :
    Latest [⟨0x34, 0x35, 0x36⟩, ⟨0x37, 0x38, 0x39⟩] 2 5 0x36 ∧
      Latest [⟨0x34, 0x35, 0x36⟩, ⟨0x37, 0x38, 0x39⟩] 1 10 0x38 ∧
      Latest [⟨0x34, 0x35, 0x36⟩, ⟨0x37, 0x38, 0x39⟩] 0 10 0x37 := by
  have hshown : ∀ f ∈ [Frame.mk 0x34 0x35 0x36, ⟨0x37, 0x38, 0x39⟩], f.Shown := by
    intro f hf
    simp only [List.mem_cons, List.not_mem_nil, or_false] at hf
    rcases hf with rfl | rfl <;> exact ⟨.inl (by decide), .inl (by decide), .inl (by decide)⟩
  have hhanded : setUp.handed overtaken <+: [Frame.mk 0x34 0x35 0x36, ⟨0x37, 0x38, 0x39⟩].flatMap Frame.bytes := by
    decide +kernel
  obtain ⟨-, -, -, -, -, -, hloop⟩ :=
    @digits_of_frames setUp setUp_fresh _ hshown overtaken hhanded 0 ⟨2, 0x36, 5⟩ ⟨1, 0x38, 10⟩ ⟨0, 0x37, 10⟩
      rfl rfl rfl
  have hlatest := (hloop trivial).1
  simp only [List.forall_mem_cons] at hlatest
  obtain ⟨htwo, hone, hzero, -⟩ := hlatest
  exact ⟨htwo, hone, hzero⟩

/-- Both calls latch digits of two frames, "786" and "756". -/
theorem torn_frames :
    setUp.handed overtaken = [⟨0x34, 0x35, 0x36⟩, ⟨0x37, 0x38, 0x39⟩].flatMap Frame.bytes ∧
      setUp.handed halfway = [⟨0x34, 0x35, 0x36⟩, ⟨0x37, 0x38, 0x39⟩].flatMap Frame.bytes ∧
      ((setUp.reads 0 overtaken).map Read.value).reverse = [0x37, 0x38, 0x36] ∧
      ((setUp.reads 0 halfway).map Read.value).reverse = [0x37, 0x35, 0x36] ∧
      ∀ f ∈ [startUp, ⟨0x34, 0x35, 0x36⟩, ⟨0x37, 0x38, 0x39⟩],
        f.digits ≠ #v[0x37, 0x38, 0x36] ∧ f.digits ≠ #v[0x37, 0x35, 0x36] := by
  decide +kernel

/-- Frames that never find the buffer full are handed over as they were sent. -/
theorem handed_frames {s : Machine} (h : Started s) {events : List Event} (hroom : NeverOverflows events)
    {frames : List Frame} (hsent : received events <+: frames.flatMap Frame.bytes) :
    s.handed events <+: frames.flatMap Frame.bytes := by
  obtain ⟨-, hhanded⟩ := h.refines.run events
  have hserved : s.handed events = (queueAfter events).handed := hhanded.symm
  have hall : (queueAfter events).accepted = received events :=
    (Fifo.accepted_eq hroom).trans (arrivals_flatMap events)
  have hprefix : s.handed events <+: received events := by
    rw [hserved, ← hall]
    exact List.prefix_append _ _
  exact hprefix.trans hsent

end Botgeddon.Firmware
