import Botgeddon.Installation

/-! The big display without a controller of its own, and its preview.

`LargeDigitDriver` clocks the segments out from the host, from a copy of the controller's
table, and the preview of the test program draws them from the same copy. A call pulls the
latch down before the first bit, so that a picture is never shown in part. The preview
draws what the controller's drivers light, except that it leaves a byte from 128 on blank
where the controller takes its bits for segments. -/
namespace Botgeddon
open Arena ShiftRegister

namespace Arena.SegmentLedState

/-- The host's copy of `characterArray`. -/
def characterArray : Array UInt8 := #[
  0x7e, 0x30, 0x6d, 0x79, 0x33, 0x5b, 0x5f, 0x70, 0x7f, 0x7b, 0x77, 0x1f, 0x4e, 0x3d, 0x4f, 0x47,
  0x00, 0x00, 0x00, 0x00, 0x00, 0x00, 0x00, 0x00, 0x00, 0x00, 0x00, 0x00, 0x00, 0x00, 0x00, 0x00,
  0x00, 0x00, 0x22, 0x00, 0x00, 0x00, 0x00, 0x20, 0x4e, 0x78, 0x00, 0x00, 0x04, 0x01, 0x00, 0x00,
  0x7e, 0x30, 0x6d, 0x79, 0x33, 0x5b, 0x5f, 0x70, 0x7f, 0x7b, 0x00, 0x00, 0x00, 0x00, 0x00, 0x00,
  0x00, 0x77, 0x1f, 0x4e, 0x3d, 0x4f, 0x47, 0x5e, 0x37, 0x30, 0x38, 0x00, 0x0e, 0x00, 0x15, 0x7e,
  0x67, 0x73, 0x05, 0x5b, 0x0f, 0x3e, 0x00, 0x00, 0x00, 0x3b, 0x00, 0x4e, 0x00, 0x78, 0x00, 0x08,
  0x02, 0x77, 0x1f, 0x0d, 0x3d, 0x6f, 0x47, 0x5e, 0x17, 0x10, 0x38, 0x00, 0x30, 0x00, 0x15, 0x1d,
  0x67, 0x73, 0x05, 0x5b, 0x0f, 0x1c, 0x00, 0x00, 0x00, 0x00, 0x00, 0x00, 0x00, 0x00, 0x00, 0x00]

def getSegmentDigits (digit : UInt8) : UInt8 := if digit < 128 then characterArray[digit.toNat]! else 0

end Arena.SegmentLedState

namespace LargeDigitDriver
open SegmentLedState

/-! ### The driver -/

/-- The constructor pulls all pins down. -/
def new : List Write := [⟨.clock, false⟩, ⟨.data, false⟩, ⟨.latch, false⟩]

/-- One of the three loops of `UpdateLeds`, from the highest bit down. -/
def postSegment (seg : UInt8) : List Write :=
  (List.range 8).flatMap fun x => clockOut ((seg >>> UInt8.ofNat (7 - x)) &&& 0x01 ≠ 0)

def updateLeds (state : SegmentLedState) : List Write :=
  ⟨.latch, false⟩ :: (postSegment (getSegmentDigits (state.char 2)) ++
    postSegment (getSegmentDigits (state.char 1)) ++ postSegment (getSegmentDigits (state.char 0))) ++
    [⟨.latch, true⟩]

/-- The state is kept for a thread that is never started. -/
def updateSegments (state : SegmentLedState) : List Write := updateLeds state

/-! ### What it shows -/

/-- The lines of a digit in the order this driver shifts them out. -/
def lines (pattern : UInt8) : List Bool := (List.range 8).map fun x => pattern.toNat.testBit (7 - x)

/-- The lines of the three digits, the last digit first. -/
def picture (state : SegmentLedState) : List Bool :=
  lines (getSegmentDigits (state.char 2)) ++ lines (getSegmentDigits (state.char 1)) ++
    lines (getSegmentDigits (state.char 0))

theorem shifted_eq_testBit (seg : UInt8) {x : ℕ} (hx : x < 8) :
    decide ((seg >>> UInt8.ofNat (7 - x)) &&& 0x01 ≠ 0) = seg.toNat.testBit (7 - x) := by
  have hall : ∀ n < 256, ∀ x < 8, decide ((UInt8.ofNat n >>> UInt8.ofNat (7 - x)) &&& 0x01 ≠ 0) =
      n.testBit (7 - x) := by decide +kernel
  have hseg := hall seg.toNat seg.toNat_lt x hx
  rwa [UInt8.ofNat_toNat] at hseg

theorem postSegment_eq (seg : UInt8) : postSegment seg = (lines seg).flatMap clockOut := by
  rw [postSegment, lines, List.flatMap_map]
  exact List.flatMap_congr fun x hx => by rw [shifted_eq_testBit seg (List.mem_range.mp hx)]

theorem updateSegments_eq (state : SegmentLedState) : updateSegments state = frame (picture state) := by
  rw [updateSegments, updateLeds, frame, picture, List.flatMap_append, List.flatMap_append]
  simp only [postSegment_eq]

theorem length_picture (state : SegmentLedState) : (picture state).length = 24 := by
  simp [picture, lines]

/-- **A picture is never shown in part.** Whatever the pins and the register were, however
many states are shown and wherever the driver is stopped, the outputs are the picture of
the last state whose call came to its end, or what they were before the first; and the
data pin moves only while the clock is low. -/
theorem always_whole (w : Wires) {reg : Register} (h : reg.stages.length = 24) (states : List SegmentLedState) :
    w.Stable (new ++ states.flatMap updateSegments) ∧
      ∀ cut, cut <+: new ++ states.flatMap updateSegments →
        (reg.outputs :: states.map picture)[cut.count ⟨.latch, true⟩]? = some (reg.run (w.edges cut)).outputs := by
  have hframes : states.flatMap updateSegments = (states.map picture).flatMap frame := by
    rw [List.flatMap_map]
    exact List.flatMap_congr fun state _ => updateSegments_eq state
  have hnew : w.Stable new := ⟨by simp, fun _ => rfl, by simp, trivial⟩
  have hquiet : ∀ cut, cut <+: new → ⟨.latch, true⟩ ∉ cut := fun cut hcut hmem => by
    have hin := hcut.subset hmem
    simp [new] at hin
  rw [hframes]
  refine ⟨Wires.stable_append hnew (stable_frames _ _), ?_⟩
  rintro cut ⟨rest, hcut⟩
  rcases List.append_eq_append_iff.mp hcut with ⟨left, hstart, -⟩ | ⟨cut', rfl, hrest⟩
  · have hnone := hquiet cut ⟨left, hstart.symm⟩
    rw [List.count_eq_zero_of_not_mem hnone, Register.outputs_quiet hnone]
    rfl
  · have hnone := hquiet new (List.prefix_refl new)
    have hlength := Register.run_length (show 0 < reg.stages.length by omega) (w.edges new)
    have hshown := @frames_cut (new.foldl Wires.write w) (reg.run (w.edges new)) (states.map picture)
      (by omega) (fun bits hbits => ?_) cut' ⟨rest, hrest.symm⟩
    · rw [Register.outputs_quiet hnone] at hshown
      rw [List.count_append, List.count_eq_zero_of_not_mem hnone, Nat.zero_add, Wires.edges_append,
        Register.run_append]
      exact hshown
    · obtain ⟨state, -, rfl⟩ := List.mem_map.mp hbits
      rw [length_picture, hlength, h]

/-- Stopped between the last bit of "0:42" and its latch, after "1:00". -/
theorem always_whole_stopped :
    (Register.run ⟨List.replicate 24 false, []⟩ ((Wires.mk false false false).edges
      (new ++ updateSegments (timerSegments 60) ++ (updateSegments (timerSegments 42)).dropLast))).outputs =
      picture (timerSegments 60) := by
  have hwhole := (always_whole ⟨false, false, false⟩ (show (Register.mk (List.replicate 24 false) []).stages.length = 24
    from rfl) [timerSegments 60, timerSegments 42]).2
    (new ++ updateSegments (timerSegments 60) ++ (updateSegments (timerSegments 42)).dropLast) ⟨[⟨.latch, true⟩], by decide +kernel⟩
  have hcount : (new ++ updateSegments (timerSegments 60) ++ (updateSegments (timerSegments 42)).dropLast).count
      ⟨.latch, true⟩ = 1 := by decide +kernel
  rw [hcount] at hwhole
  exact (Option.some.inj hwhole).symm

end LargeDigitDriver

/-! ### The preview -/

inductive Segment where
  | a
  | b
  | c
  | d
  | e
  | f
  | g
deriving DecidableEq

/-- Where the preview draws a segment, from the top left down. -/
def Segment.stroke : Segment → (ℚ × ℚ) × (ℚ × ℚ)
  | .a => ((1 / 10, 1 / 10), (9 / 10, 1 / 10))
  | .f => ((1 / 10, 1 / 10), (1 / 10, 5 / 10))
  | .g => ((1 / 10, 5 / 10), (9 / 10, 5 / 10))
  | .e => ((1 / 10, 5 / 10), (1 / 10, 9 / 10))
  | .d => ((1 / 10, 9 / 10), (9 / 10, 9 / 10))
  | .c => ((9 / 10, 5 / 10), (9 / 10, 9 / 10))
  | .b => ((9 / 10, 1 / 10), (9 / 10, 5 / 10))

/-- The tests of `draw_segment`, in order. -/
def segmentTests : List (UInt8 × Segment) :=
  [((1 : UInt8) <<< 6, .a), ((1 : UInt8) <<< 1, .f), ((1 : UInt8) <<< 0, .g), ((1 : UInt8) <<< 2, .e),
    ((1 : UInt8) <<< 3, .d), ((1 : UInt8) <<< 4, .c), ((1 : UInt8) <<< 5, .b)]

/-- The segments `draw_segment` draws. -/
def drawnSegments (segment : UInt8) : List Segment :=
  let led := SegmentLedState.getSegmentDigits segment
  segmentTests.filterMap fun t => if led &&& t.1 ≠ 0 then some t.2 else none

/-- The pairs of vertices it makes lines of. -/
def drawSegment (segment : UInt8) : List ((ℚ × ℚ) × (ℚ × ℚ)) := (drawnSegments segment).map Segment.stroke

/-! ### What is lit -/

/-- The segments that are lit by lines wired in this order. -/
def litBy (order : List (Option Segment)) (lines : List Bool) : List Segment :=
  (order.zip lines).filterMap fun p => if p.2 then p.1 else none

/-- The order the controller shifts the segments out in: DP B C D E G F A. -/
def controllerOrder : List (Option Segment) :=
  [none, some .b, some .c, some .d, some .e, some .g, some .f, some .a]

/-- What a digit of the display shows. -/
def onDisplay (c : UInt8) : List Segment := litBy controllerOrder (Firmware.lines (Firmware.pattern c))

/-- No two segments are drawn alike. -/
theorem stroke_injective : Function.Injective Segment.stroke := by
  have hall : ∀ s ∈ segmentTests.map Prod.snd, ∀ t ∈ segmentTests.map Prod.snd, s.stroke = t.stroke → s = t := by
    decide +kernel
  exact fun s t => hall s (by cases s <;> decide) t (by cases t <;> decide)

theorem mem_drawSegment_iff (c : UInt8) (s : Segment) : s.stroke ∈ drawSegment c ↔ s ∈ drawnSegments c :=
  List.mem_map_of_injective stroke_injective

/-- The preview draws a byte as the display shows it, if the byte is not raw or has no
segments. -/
theorem drawn_iff (c : UInt8) : (∀ s : Segment, s.stroke ∈ drawSegment c ↔ s ∈ onDisplay c) ↔ c < 128 ∨ c = 0x80 := by
  have hall : ∀ n < 256, (∀ s ∈ segmentTests.map Prod.snd,
      (s ∈ drawnSegments (UInt8.ofNat n) ↔ s ∈ onDisplay (UInt8.ofNat n))) ↔
        UInt8.ofNat n < 128 ∨ UInt8.ofNat n = 0x80 := by decide +kernel
  have hc := hall c.toNat c.toNat_lt
  rw [UInt8.ofNat_toNat] at hc
  rw [← hc]
  simp only [mem_drawSegment_iff]
  exact ⟨fun h s _ => h s, fun h s => h s (by cases s <;> decide)⟩

/-! ### The displays agree -/

/-- The eight outputs of digit `i`. -/
def digitOutputs (outputs : List Bool) (i : ℕ) : List Bool := (outputs.drop (8 * (2 - i))).take 8

theorem digitOutputs_refreshBits (d : Firmware.Display) (i : Fin 3) :
    digitOutputs (Firmware.refreshBits d) i = Firmware.lines (Firmware.pattern d.digits[i]) := by
  match i with
  | 0 | 1 | 2 => rfl

/-- **The preview draws what the audience sees.** After any number of iterations, for every
digit, the strokes the test program draws for what the host shows are the segments that
the drivers of the big display put out. -/
theorem preview_faithful {x : Host.Execution} {fuel N : ℕ} {s : Firmware.Machine} {events : Schedule}
    (h : Delivered x fuel s events) (hN : x.rounds fuel = N + 1) (hsafe : ∀ n < N + 1, x.run.TimesSafe n)
    (w : Wires) {reg : Register} (hreg : reg.stages.length = 24) (i : Fin 3) (segment : Segment) :
    segment.stroke ∈ drawSegment ((x.run.shown N).char i) ↔
      segment ∈ litBy controllerOrder (digitOutputs (latched (bigDisplay.run s events) w reg) i) := by
  have hplain := (x.run.plain_iff N).mpr (hsafe N (Nat.lt_succ_self N)) i
  have hlow : (x.run.shown N).char i < 128 := by
    rw [displayable_iff] at hplain
    rw [UInt8.lt_iff_toNat_lt, show (128 : UInt8).toNat = 128 from rfl]
    omega
  have hdigit : (bigDisplay.run s events).controller.panel.display.digits[i] = (x.run.shown N).char i := by
    rw [h.digits hN hsafe]
    match i with
    | 0 | 1 | 2 => rfl
  rw [latched_eq _ w hreg, digitOutputs_refreshBits, hdigit]
  exact (drawn_iff _).mpr (.inl hlow) segment

/-- The outputs of the first digit, after the pause of the interrupted match. -/
def minuteOutputs : List Bool :=
  digitOutputs (latched (bigDisplay.run Firmware.setUp (attended (Host.transactions (interruptedExecution.main 9).1)))
    ⟨true, true, true⟩ ⟨List.replicate 24 true, []⟩) 0

/-- The minute of 1:56 is drawn as B and C, and so it is lit. -/
theorem preview_faithful_interrupted :
    Segment.b ∈ litBy controllerOrder minuteOutputs ∧ Segment.c ∈ litBy controllerOrder minuteOutputs ∧
      Segment.a ∉ litBy controllerOrder minuteOutputs := by
  have hfaithful := preview_faithful interrupted_delivered rfl (fun n hn => interrupted_timesSafe n (by omega))
    ⟨true, true, true⟩ (show (Register.mk (List.replicate 24 true) []).stages.length = 24 from rfl) 0
  have hminute : (interruptedExecution.run.shown 8).char 0 = digit 1 := by decide +kernel
  have hdrawn : drawnSegments (digit 1) = [.c, .b] := by decide +kernel
  have hlit : ∀ segment : Segment, segment ∈ [Segment.c, .b] ↔ segment ∈ litBy controllerOrder minuteOutputs := by
    intro segment
    rw [← hdrawn, ← hminute, ← mem_drawSegment_iff]
    exact hfaithful segment
  exact ⟨(hlit .b).mp (by decide), (hlit .c).mp (by decide), fun ha => absurd ((hlit .a).mpr ha) (by decide)⟩

end Botgeddon
