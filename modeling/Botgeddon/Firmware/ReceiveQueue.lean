import Botgeddon.Lib.Fifo
import Botgeddon.Firmware.Machine

/-! The receive buffer is a queue of 63 bytes.

A byte that arrives is appended or, when 63 are waiting, dropped; a timer
interrupt serves the oldest. Which bytes are served, and so what they do to the
panel, is up to their order alone once nothing is dropped. -/
namespace Botgeddon.Firmware
open Fifo

/-- One slot of the buffer is kept free. -/
abbrev capacity : ℕ := bufferSize - 1

namespace Event

/-- What an event is to the queue. -/
def ops : Event → List (Op UInt8)
  | .receive bytes => bytes.map Op.arrive
  | .timer => [.serve]
  | .foreground => []

def received : Event → List UInt8
  | .receive bytes => bytes
  | _ => []

theorem arrivals_ops (e : Event) : arrivals e.ops = e.received := by
  cases e with
  | receive bytes =>
    simp only [arrivals, ops, received, List.filterMap_map]
    exact List.filterMap_some
  | timer | foreground => rfl

end Event

/-- What the events are to the queue, in order. -/
def ops (events : List Event) : List (Op UInt8) := events.flatMap Event.ops

/-- The bytes the events bring, in order. -/
def received (events : List Event) : List UInt8 := events.flatMap Event.received

theorem arrivals_flatMap (events : List Event) : arrivals (ops events) = received events := by
  induction events with
  | nil => rfl
  | cons e events ih =>
    have hfirst := e.arrivals_ops
    simp only [ops, received, arrivals] at ih hfirst ⊢
    rw [List.flatMap_cons, List.filterMap_append, hfirst, ih, List.flatMap_cons]

/-- `setup` is over. -/
def Foreground.InLoop : Foreground → Prop
  | .setup _ => False
  | _ => True

/-- Set up, with nothing received. -/
structure Started (s : Machine) : Prop where
  head : s.controller.buffer.head = 0
  tail : s.controller.buffer.tail = 0
  wire : s.controller.wire = []
  looping : s.foreground.InLoop

namespace Machine

/-- The bytes the timer interrupts hand to `updateBufferData` in the course of the events. -/
def handed (s : Machine) : List Event → List UInt8
  | [] => []
  | e :: events => (s.handedBy e).toList ++ (s.step e).handed events

/-- `displaySegments` changes nothing the interrupts use. -/
theorem looping_step {s : Machine} (h : s.foreground.InLoop) :
    (s.step .foreground).controller = s.controller ∧ (s.step .foreground).foreground.InLoop := by
  simp only [step, foregroundStep]
  cases hf : s.foreground with
  | setup i =>
    rw [hf] at h
    cases h
  | read x => exact ⟨rfl, trivial⟩
  | post x segments =>
    refine ⟨rfl, ?_⟩
    show Foreground.InLoop (if x < 2 then _ else _)
    split <;> trivial

end Machine

/-! ### The refinement -/

/-- The controller, started as `s₀`, is where the queue `f` is: the buffer holds the
queue and remembers what got in, and the panel has seen what was handed over. -/
structure Refines (s₀ s : Machine) (f : Fifo UInt8) : Prop where
  queue : s.controller.buffer.Represents f.queue
  memory : s.controller.buffer = s₀.controller.buffer.history f.accepted f.handed.length
  wire : s.controller.wire = []
  panel : s.controller.panel = s₀.controller.panel.feed f.handed
  looping : s.foreground.InLoop

theorem Started.refines {s₀ : Machine} (h : Started s₀) : Refines s₀ s₀ Fifo.empty where
  queue := Ring.represents_nil _ (by rw [h.tail]; decide) (by rw [h.head, h.tail])
  memory := rfl
  wire := h.wire
  panel := rfl
  looping := h.looping

/-- A byte arrives. -/
theorem push_refines {b₀ b : Ring UInt8 bufferSize} {f : Fifo UInt8} (h : b.Represents f.queue)
    (hmem : b = b₀.history f.accepted f.handed.length) (c : UInt8) :
    (b.push c).Represents (f.step capacity (.arrive c)).queue ∧
      b.push c = b₀.history (f.step capacity (.arrive c)).accepted
        (f.step capacity (.arrive c)).handed.length := by
  have hpush := h.push c
  rw [step_arrive_accepted]
  by_cases hroom : f.queue.length < capacity
  · have hroom' : f.queue.length + 1 < bufferSize := Nat.add_lt_of_lt_sub hroom
    have hnotfull : Ring.after bufferSize b.head ≠ b.tail := fun heq => by
      have hfull := h.full_iff.mp heq
      omega
    simp only [step, if_pos hroom]
    rw [if_pos hroom'] at hpush
    refine ⟨hpush, ?_⟩
    rw [Ring.push, if_pos hnotfull, hmem, Ring.history_write]
  · have hnoroom : ¬ f.queue.length + 1 < bufferSize := fun hlt => hroom (Nat.lt_sub_of_add_lt hlt)
    have hfull : Ring.after bufferSize b.head = b.tail :=
      h.full_iff.mpr (by have := h.length_lt; omega)
    simp only [step, if_neg hroom]
    rw [if_neg hnoroom] at hpush
    refine ⟨hpush, ?_⟩
    rw [Ring.push, if_neg (not_not.mpr hfull)]
    exact hmem

/-- A transaction hands over nothing. -/
theorem pushes_refine {b₀ b : Ring UInt8 bufferSize} {f : Fifo UInt8} (h : b.Represents f.queue)
    (hmem : b = b₀.history f.accepted f.handed.length) (bytes : List UInt8) :
    (bytes.foldl Ring.push b).Represents (f.run capacity (bytes.map Op.arrive)).queue ∧
      bytes.foldl Ring.push b = b₀.history (f.run capacity (bytes.map Op.arrive)).accepted
        (f.run capacity (bytes.map Op.arrive)).handed.length ∧
      (f.run capacity (bytes.map Op.arrive)).handed = f.handed := by
  induction bytes generalizing b f with
  | nil => exact ⟨h, hmem, rfl⟩
  | cons c bytes ih =>
    obtain ⟨hnext, hmem'⟩ := push_refines h hmem c
    obtain ⟨hqueue, hmemory, hhanded⟩ := ih hnext hmem'
    refine ⟨hqueue, hmemory, hhanded.trans ?_⟩
    simp only [step]
    split <;> rfl

theorem Refines.receive {s₀ s : Machine} {f : Fifo UInt8} (h : Refines s₀ s f) (bytes : List UInt8) :
    Refines s₀ (s.step (.receive bytes)) (f.run capacity (bytes.map Op.arrive)) ∧
      (f.run capacity (bytes.map Op.arrive)).handed = f.handed := by
  obtain ⟨hqueue, hmemory, hhanded⟩ := pushes_refine h.queue h.memory bytes
  have hcontroller := s.receive_controller bytes
  rw [h.wire, List.nil_append] at hcontroller
  refine ⟨⟨?_, ?_, ?_, ?_, h.looping⟩, hhanded⟩ <;> rw [hcontroller]
  · exact hqueue
  · exact hmemory
  · rw [hhanded]
    exact h.panel

/-- With something pending, the interrupt hands over what the queue serves. -/
theorem Refines.serve {s₀ s : Machine} {f : Fifo UInt8} (h : Refines s₀ s f) {c : UInt8} {rest : List UInt8}
    (hq : f.queue = c :: rest) :
    s.handedBy .timer = some c ∧ Refines s₀ (s.step .timer) ⟨rest, f.handed ++ [c]⟩ := by
  have hempty := h.queue.empty_iff
  have hqueue := h.queue
  rw [hq] at hqueue
  have hsome : s.handedBy .timer = some c := by
    rw [Machine.handedBy, if_pos (fun heq => by rw [hempty.mp heq] at hq; cases hq), hqueue.oldest_eq]
  have haccepted : (⟨rest, f.handed ++ [c]⟩ : Fifo UInt8).accepted = f.accepted := by
    simp only [accepted, hq, List.append_assoc, List.singleton_append]
  have hcontroller := Machine.timer_controller hsome
  refine ⟨hsome, ⟨?_, ?_, ?_, ?_, h.looping⟩⟩ <;> rw [hcontroller]
  · exact hqueue.pop
  · rw [haccepted, List.length_append, List.length_singleton, ← Ring.history_pop, ← h.memory]
  · exact h.wire
  · rw [Panel.feed_append, ← h.panel]
    rfl

theorem Refines.foreground {s₀ s : Machine} {f : Fifo UInt8} (h : Refines s₀ s f) :
    Refines s₀ (s.step .foreground) f := by
  obtain ⟨hcontroller, hlooping⟩ := Machine.looping_step h.looping
  refine ⟨?_, ?_, ?_, ?_, hlooping⟩ <;> rw [hcontroller]
  · exact h.queue
  · exact h.memory
  · exact h.wire
  · exact h.panel

theorem Refines.step {s₀ s : Machine} {f : Fifo UInt8} (h : Refines s₀ s f) (e : Event) :
    Refines s₀ (s.step e) (f.run capacity e.ops) ∧
      (f.run capacity e.ops).handed = f.handed ++ (s.handedBy e).toList := by
  cases e with
  | receive bytes =>
    obtain ⟨hnext, hhanded⟩ := h.receive bytes
    exact ⟨hnext, hhanded.trans (List.append_nil _).symm⟩
  | timer =>
    cases hq : f.queue with
    | nil =>
      have hnone : s.handedBy .timer = none := by
        rw [Machine.handedBy, if_neg (not_not.mpr (h.queue.empty_iff.mpr hq))]
      have hsame : f.run capacity Event.timer.ops = f := by
        simp only [Event.ops, run_cons, run_nil, Fifo.step, hq]
      rw [Machine.timer_idle hnone, hsame, hnone]
      exact ⟨h, (List.append_nil _).symm⟩
    | cons c rest =>
      obtain ⟨hsome, hnext⟩ := h.serve hq
      have hserved : f.run capacity Event.timer.ops = ⟨rest, f.handed ++ [c]⟩ := by
        simp only [Event.ops, run_cons, run_nil, Fifo.step, hq]
      rw [hserved, hsome]
      exact ⟨hnext, rfl⟩
  | foreground => exact ⟨h.foreground, (List.append_nil _).symm⟩

theorem Refines.run {s₀ s : Machine} {f : Fifo UInt8} (h : Refines s₀ s f) (events : List Event) :
    Refines s₀ (s.run events) (f.run capacity (ops events)) ∧
      (f.run capacity (ops events)).handed = f.handed ++ s.handed events := by
  induction events generalizing s f with
  | nil => exact ⟨h, (List.append_nil _).symm⟩
  | cons e events ih =>
    obtain ⟨hstep, hhanded⟩ := h.step e
    obtain ⟨hrun, hrest⟩ := ih hstep
    rw [ops, List.flatMap_cons, run_append]
    refine ⟨hrun, ?_⟩
    rw [Machine.handed, ← List.append_assoc, ← hhanded]
    exact hrest

/-! ### The law -/

/-- Where the events leave the queue. -/
def queueAfter (events : List Event) : Fifo UInt8 := Fifo.empty.run capacity (ops events)

/-- No byte arrives while 63 are pending. -/
def NeverOverflows (events : List Event) : Prop := Fifo.empty.Lossless capacity (ops events)

/-- Once everything is handed over, the controller is a function of the bytes. -/
theorem run_drained {s : Machine} (h : Started s) {events : List Event} (hroom : NeverOverflows events)
    (hdrained : (s.run events).controller.buffer.head = (s.run events).controller.buffer.tail) :
    (s.run events).controller =
      ⟨s.controller.buffer.history (received events) (received events).length, [],
        s.controller.panel.feed (received events)⟩ := by
  obtain ⟨hrun, -⟩ := h.refines.run events
  have hall : (Fifo.empty.run capacity (ops events)).accepted = received events :=
    (accepted_eq hroom).trans (arrivals_flatMap events)
  have hempty := hrun.queue.empty_iff.mp hdrained
  have hhanded : (Fifo.empty.run capacity (ops events)).handed = received events := by
    rw [accepted, hempty, List.append_nil] at hall
    exact hall
  have hmemory := hrun.memory
  have hpanel := hrun.panel
  rw [hall, hhanded] at hmemory
  rw [hhanded] at hpanel
  show Controller.mk (s.run events).controller.buffer (s.run events).controller.wire
    (s.run events).controller.panel = _
  rw [hmemory, hrun.wire, hpanel]

/-- **The receive buffer refines a bounded queue.** Whatever arrives and however the
interrupts interleave, the buffer holds the queue of capacity 63 and the bytes
handed over are the ones it serves; and once drained without an overflow, the
controller depends on nothing but the bytes. -/
theorem receive_queue (s : Machine) (h : Started s) :
    (∀ events,
      (s.run events).controller.buffer.pending = (queueAfter events).queue ∧
        s.handed events = (queueAfter events).handed ∧
        (s.run events).controller.buffer.pending.length ≤ capacity ∧
        (s.run events).controller.buffer.head < bufferSize ∧
        (s.run events).controller.buffer.tail < bufferSize ∧
        ((s.run events).controller.buffer.head = (s.run events).controller.buffer.tail ↔
          (queueAfter events).queue = []) ∧
        (s.run events).controller.wire = [] ∧
        (s.handed events ++ (s.run events).controller.buffer.pending).Sublist (received events) ∧
        (NeverOverflows events →
          s.handed events ++ (s.run events).controller.buffer.pending = received events)) ∧
      ∀ events events', NeverOverflows events → NeverOverflows events' →
        received events = received events' →
        (s.run events).controller.buffer.pending = [] →
        (s.run events').controller.buffer.pending = [] →
        (s.run events).controller = (s.run events').controller := by
  have hqueue : ∀ events, (s.run events).controller.buffer.pending = (queueAfter events).queue :=
    fun events => (h.refines.run events).1.queue.pending_eq
  have hdrained : ∀ events, (s.run events).controller.buffer.pending = [] →
      (s.run events).controller.buffer.head = (s.run events).controller.buffer.tail := by
    intro events hnone
    rw [hqueue] at hnone
    exact (h.refines.run events).1.queue.empty_iff.mpr hnone
  refine ⟨fun events => ?_, fun events events' hroom hroom' hsame hnone hnone' => ?_⟩
  · obtain ⟨hrun, hhanded⟩ := h.refines.run events
    have hserved : s.handed events = (queueAfter events).handed := hhanded.symm
    have harrived : s.handed events ++ (s.run events).controller.buffer.pending =
        (queueAfter events).accepted := by rw [hserved, hqueue, accepted]
    have hfull : (s.run events).controller.buffer.pending.length ≤ capacity := by
      rw [hqueue]
      exact length_run_le (Nat.zero_le _) (ops events)
    refine ⟨hqueue events, hserved, hfull, hrun.queue.head_lt, hrun.queue.tail_lt, hrun.queue.empty_iff,
      hrun.wire, ?_, fun hroom => ?_⟩
    · rw [harrived, ← arrivals_flatMap]
      exact accepted_sublist capacity Fifo.empty (ops events)
    · rw [harrived, ← arrivals_flatMap]
      exact accepted_eq hroom
  · rw [run_drained h hroom (hdrained events hnone), run_drained h hroom' (hdrained events' hnone'), hsame]

/-- The controller when `setup` is over. -/
def setUp : Machine := (Machine.boot 0x61).run [.foreground, .foreground, .foreground]

theorem setUp_started : Started setUp := ⟨by decide, by decide, by decide, trivial⟩

/-- Two ways to receive "0:42": in one transaction, and byte by byte with the
foreground at work. -/
theorem receive_queue_split :
    (setUp.run [.receive [0x79, 0, 0x30, 0x34, 0x32], .timer, .timer, .timer, .timer, .timer]).controller =
      (setUp.run [.receive [0x79], .timer, .receive [0, 0x30], .foreground, .timer, .receive [0x34],
        .timer, .timer, .foreground, .receive [0x32], .timer]).controller := by
  refine (receive_queue setUp setUp_started).2 _ _ ?_ ?_ (by decide) (by decide +kernel) (by decide +kernel)
  · refine ⟨?_, ?_, ?_, ?_, ?_, ?_, ?_, ?_, ?_, ?_, trivial⟩ <;> intro a _ <;> decide
  · refine ⟨?_, ?_, ?_, ?_, ?_, ?_, ?_, ?_, ?_, ?_, trivial⟩ <;> intro a _ <;> decide

end Botgeddon.Firmware
