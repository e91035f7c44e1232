import Botgeddon.Lib.Backlog
import Botgeddon.Firmware.ReceiveQueue

/-! When the receive buffer is large enough.

A timer interrupt works off one byte, and one that finds the buffer empty is of no
use to the bytes that come after it. So whether bytes are lost is not a matter of
rates over a whole run but of every stretch of it. -/
namespace Botgeddon.Firmware
open Fifo

def Event.isTimer : Event → Bool
  | .timer => true
  | _ => false

/-- How many timer interrupts fire. -/
def timers (events : List Event) : ℕ := events.countP Event.isTimer

theorem arrived_ops (events : List Event) : arrived (ops events) = (received events).length := by
  rw [← arrivals_flatMap]
  rfl

theorem served_map_arrive (bytes : List UInt8) : served (bytes.map Op.arrive) = 0 := by
  induction bytes with
  | nil => rfl
  | cons c bytes ih => rw [List.map_cons, served_arrive, ih]

theorem served_ops (events : List Event) : served (ops events) = timers events := by
  induction events with
  | nil => rfl
  | cons e events ih =>
    rw [ops, List.flatMap_cons, served_append]
    show served e.ops + served (ops events) = _
    rw [ih]
    cases e with
    | receive bytes =>
      show served (bytes.map Op.arrive) + _ = _
      rw [served_map_arrive, Nat.zero_add]
      rfl
    | timer =>
      have htimer : timers (.timer :: events) = timers events + 1 := List.countP_cons_of_pos rfl
      rw [htimer, Nat.add_comm]
      rfl
    | foreground => exact Nat.zero_add _

/-- An event brings bytes or serves one, not both. -/
theorem brings_or_serves (e : Event) : served e.ops = 0 ∨ arrived e.ops = 0 := by
  cases e with
  | receive bytes => exact .inl (served_map_arrive bytes)
  | timer => exact .inr rfl
  | foreground => exact .inl rfl

theorem neverOverflows_iff (events : List Event) :
    NeverOverflows events ↔ ∀ w, w <:+: events → (received w).length ≤ timers w + capacity := by
  rw [NeverOverflows, ops, lossless_iff brings_or_serves]
  refine forall₂_congr fun w _ => ?_
  rw [← arrived_ops, ← served_ops]
  rfl

/-- **No byte is lost** exactly if in no stretch of the run more bytes are received than
63 and one for each timer interrupt of that stretch. -/
theorem nothing_lost_iff {s : Machine} (h : Started s) (events : List Event) :
    s.handed events ++ (s.run events).controller.buffer.pending = received events ↔
      ∀ w, w <:+: events → (received w).length ≤ timers w + 63 := by
  obtain ⟨hrun, hhanded⟩ := h.refines.run events
  have hserved : s.handed events = (queueAfter events).handed := hhanded.symm
  have haccepted : s.handed events ++ (s.run events).controller.buffer.pending = (queueAfter events).accepted := by
    rw [hserved, hrun.queue.pending_eq]
    rfl
  rw [haccepted, ← arrivals_flatMap]
  exact accepted_eq_iff.trans (neverOverflows_iff events)

/-- Forty bytes, ten interrupts, and thirty-three bytes more. -/
def spaced : List Event :=
  .receive (List.replicate 40 0x30) :: List.replicate 10 .timer ++ [.receive (List.replicate 33 0x30)]

/-- As many, the interrupts first. -/
def crowded : List Event :=
  List.replicate 10 .timer ++ [.receive (List.replicate 40 0x30), .receive (List.replicate 33 0x30)]

/-- A stretch is between two positions. -/
theorem infix_positions {w events : List Event} (h : w <:+: events) :
    ∃ i ≤ events.length, ∃ j ≤ events.length, w = (events.drop i).take j := by
  obtain ⟨left, right, rfl⟩ := h
  refine ⟨left.length, by simp, w.length, by simp; omega, ?_⟩
  simp

/-- Interrupts are of use only to the bytes before them. -/
theorem nothing_lost_iff_burst :
    setUp.handed spaced ++ (setUp.run spaced).controller.buffer.pending = received spaced ∧
      setUp.handed crowded ++ (setUp.run crowded).controller.buffer.pending ≠ received crowded := by
  refine ⟨(nothing_lost_iff setUp_started spaced).mpr fun w hw => ?_, fun h => ?_⟩
  · obtain ⟨i, hi, j, hj, rfl⟩ := infix_positions hw
    have hall : ∀ i ≤ 12, ∀ j ≤ 12, (received ((spaced.drop i).take j)).length ≤ timers ((spaced.drop i).take j) + 63 := by
      decide +kernel
    exact hall i hi j hj
  · have hstretch := (nothing_lost_iff setUp_started crowded).mp h (crowded.drop 10) (List.drop_suffix 10 _).isInfix
    exact absurd hstretch (by decide +kernel)

theorem ops_flatten (rounds : List (List Event)) : ops rounds.flatten = (rounds.map ops).flatten := by
  rw [ops, ← List.flatMap_id, List.flatMap_assoc]
  rfl

/-- **Rounds of at most 31 bytes lose nothing** if in every round the timer fires as
often as a round may bring bytes, whatever the order within the rounds. -/
theorem rounds_lose_nothing {burst : ℕ} (hburst : 2 * burst ≤ 63) {rounds : List (List Event)}
    (h : ∀ w ∈ rounds, (received w).length ≤ burst ∧ burst ≤ timers w) : NeverOverflows rounds.flatten := by
  rw [NeverOverflows, ops_flatten]
  refine lossless_rounds hburst fun w hw => ?_
  obtain ⟨events, hevents, rfl⟩ := List.mem_map.mp hw
  rw [arrived_ops, served_ops]
  exact h events hevents

/-- A frame of the host in every round, with the timer before, between and after its bytes. -/
theorem rounds_lose_nothing_frames :
    NeverOverflows (List.replicate 100 [.timer, .receive [0x79, 0x00], .timer, .foreground,
      .receive [0x30, 0x34, 0x32], .timer, .timer, .timer]).flatten := by
  refine @rounds_lose_nothing 5 (by decide) _ fun w hw => ?_
  obtain rfl := List.eq_of_mem_replicate hw
  exact ⟨by decide, by decide⟩

end Botgeddon.Firmware
