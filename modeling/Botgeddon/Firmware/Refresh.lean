import Botgeddon.Lib.ShiftRegister
import Botgeddon.Firmware.Machine

/-! What the display drivers are told.

`displaySegments` clocks the segments of the three digits out, the last digit
first, and pulses the latch. The pins are hand-driven in the order the segments
are wired, which is not the order of the bits in the table. -/
namespace Botgeddon.Firmware
open ShiftRegister

/-! ### The pins -/

def segA : UInt8 := (1 : UInt8) <<< 6
def segB : UInt8 := (1 : UInt8) <<< 5
def segC : UInt8 := (1 : UInt8) <<< 4
def segD : UInt8 := (1 : UInt8) <<< 3
def segE : UInt8 := (1 : UInt8) <<< 2
def segF : UInt8 := (1 : UInt8) <<< 1
def segG : UInt8 := (1 : UInt8) <<< 0
def segDP : UInt8 := (1 : UInt8) <<< 7

/-- `digitalWrite` takes every value but 0 for `HIGH`. -/
def high (segments mask : UInt8) : Bool := segments &&& mask ≠ 0

/-- Three writes for each segment, in the order DP B C D E G F A. -/
def postSegment (segments : UInt8) : List Write :=
  [segDP, segB, segC, segD, segE, segG, segF, segA].flatMap fun mask => clockOut (high segments mask)

/-- The writes of an uninterrupted call. -/
def displaySegments (d : Display) : List Write :=
  ((List.range 3).flatMap fun x => postSegment (segmentsOf d.digits[2 - x]!)) ++ pulse

/-! ### The lines -/

/-- The segments a stored byte stands for, A to G from bit 6 down: its own low bits
if it is raw, and the character's otherwise. -/
def pattern (c : UInt8) : UInt8 :=
  if c.toNat.testBit 7 then c &&& 0x7f else characterArray[c.toNat]!

/-- The eight lines of a digit in the order they are shifted out. -/
def lines (pattern : UInt8) : List Bool :=
  [false, pattern.toNat.testBit 5, pattern.toNat.testBit 4, pattern.toNat.testBit 3,
    pattern.toNat.testBit 2, pattern.toNat.testBit 0, pattern.toNat.testBit 1, pattern.toNat.testBit 6]

theorem segmentsOf_eq_pattern (c : UInt8) : segmentsOf c = pattern c := by
  have hall : ∀ n < 256, (UInt8.ofNat n &&& 0x80 ≠ 0 ↔ n.testBit 7 = true) := by decide +kernel
  have hraw := hall c.toNat c.toNat_lt
  rw [UInt8.ofNat_toNat] at hraw
  rw [segmentsOf, lookup, pattern]
  by_cases hbit : c.toNat.testBit 7 = true
  · rw [if_pos (hraw.mpr hbit), if_pos hbit]
  · rw [if_neg (fun h => hbit (hraw.mp h)), if_neg hbit]

/-- No pattern has bit 7. -/
theorem pattern_lt (c : UInt8) : (pattern c).toNat < 128 := by
  have hall : ∀ n < 256, (pattern (UInt8.ofNat n)).toNat < 128 := by decide +kernel
  have hc := hall c.toNat c.toNat_lt
  rwa [UInt8.ofNat_toNat] at hc

theorem highs_eq_lines {segments : UInt8} (h : segments.toNat < 128) :
    [segDP, segB, segC, segD, segE, segG, segF, segA].map (high segments) = lines segments := by
  have hall : ∀ n < 128, [segDP, segB, segC, segD, segE, segG, segF, segA].map (high (UInt8.ofNat n)) =
      lines (UInt8.ofNat n) := by decide +kernel
  have hsegments := hall segments.toNat h
  rwa [UInt8.ofNat_toNat] at hsegments

theorem postSegment_eq {segments : UInt8} (h : segments.toNat < 128) :
    postSegment segments = (lines segments).flatMap clockOut := by
  rw [postSegment, ← highs_eq_lines h, List.flatMap_map]

/-- The bits of the three digits, as the drivers get them. -/
def refreshBits (d : Display) : List Bool :=
  lines (pattern d.digits[2]!) ++ lines (pattern d.digits[1]!) ++ lines (pattern d.digits[0]!)

theorem displaySegments_eq (d : Display) : displaySegments d = refresh (refreshBits d) := by
  have hposts : ((List.range 3).flatMap fun x => postSegment (segmentsOf d.digits[2 - x]!)) =
      postSegment (segmentsOf d.digits[2]!) ++ postSegment (segmentsOf d.digits[1]!) ++
        postSegment (segmentsOf d.digits[0]!) := by
    simp [List.range_succ]
  rw [displaySegments, hposts, refresh, refreshBits, List.flatMap_append, List.flatMap_append]
  simp only [segmentsOf_eq_pattern, postSegment_eq (pattern_lt _)]

/-- **What is latched is what is stored.** Whatever the pins were left at and the
register holds, a call that is not interrupted makes 24 rising edges of the clock,
each with the data pin unmoved since the clock went down, and then one of the latch;
and the outputs are the lines of the three digits, the last digit first. -/
theorem latched_is_stored (s : Machine) (w : Wires) (r : Register) (h : r.stages.length = 24) :
    w.edges (displaySegments s.controller.panel.display) =
        (refreshBits s.controller.panel.display).map .clock ++ [.latch] ∧
      (refreshBits s.controller.panel.display).length = 24 ∧
      w.Stable (displaySegments s.controller.panel.display) ∧
      (r.run (w.edges (displaySegments s.controller.panel.display))).outputs =
        lines (pattern s.controller.panel.display.digits[2]!) ++
          lines (pattern s.controller.panel.display.digits[1]!) ++
          lines (pattern s.controller.panel.display.digits[0]!) := by
  rw [displaySegments_eq]
  exact ⟨edges_refresh w _, rfl, stable_refresh w _, outputs_refresh w h⟩

/-- The start-up digits on a register that was all lit, with the pins left high. -/
theorem latched_is_stored_boot :
    (Register.run ⟨List.replicate 24 true, []⟩
      ((Wires.mk true true true).edges (displaySegments ⟨#v[0x31, 0x32, 0x33], 0, 0⟩))).outputs =
      lines 0x79 ++ lines 0x6d ++ lines 0x30 :=
  (latched_is_stored ⟨⟨⟨Vector.replicate bufferSize 0, 0, 0⟩, [], ⟨⟨#v[0x31, 0x32, 0x33], 0, 0⟩, 0, 0x61, 0x61⟩⟩,
    .read 0, []⟩ ⟨true, true, true⟩ ⟨List.replicate 24 true, []⟩ rfl).2.2.2

/-- A round of the foreground that is not interrupted posts the same three patterns. -/
theorem posted_round {s : Machine} (h : s.foreground = .read 0) :
    (s.run (List.replicate 6 .foreground)).posted = s.posted ++
        [pattern s.controller.panel.display.digits[2]!, pattern s.controller.panel.display.digits[1]!,
          pattern s.controller.panel.display.digits[0]!] ∧
      (s.run (List.replicate 6 .foreground)).foreground = .read 0 := by
  obtain ⟨controller, foreground, posted⟩ := s
  obtain rfl : foreground = .read 0 := h
  simp only [← segmentsOf_eq_pattern]
  refine ⟨?_, rfl⟩
  show posted ++ [_] ++ [_] ++ [_] = _
  rw [List.append_assoc, List.append_assoc]
  rfl

end Botgeddon.Firmware
