import Mathlib

/-! A bus with one master.

The master selects an address and sends messages to it; a slave takes in the messages
to its own address and goes on by itself in between. A slave that keeps its address is
driven by what is sent there and by nothing else (`run_at`), and one whose address the
master never selects is not driven at all (`run_deaf`). -/
namespace Botgeddon.Bus

variable {A D E I S : Type*}

/-! ### The master -/

inductive Command (A D : Type*) where
  | select (target : A)
  | send (data : D)

/-- The address selected after the commands. -/
def selects (selected : Option A) (commands : List (Command A D)) : Option A :=
  commands.foldl (fun selected c => match c with | .select target => some target | .send _ => selected) selected

/-- The messages the commands send, in order, each with the address it goes to. -/
def sends (selected : Option A) : List (Command A D) → List (A × D)
  | [] => []
  | .select target :: rest => sends (some target) rest
  | .send data :: rest => (selected.map fun target => (target, data)).toList ++ sends selected rest

theorem sends_append (selected : Option A) (commands commands' : List (Command A D)) :
    sends selected (commands ++ commands') =
      sends selected commands ++ sends (selects selected commands) commands' := by
  induction commands generalizing selected with
  | nil => rfl
  | cons c rest ih =>
    cases c with
    | select target => exact ih (some target)
    | send data => simp only [List.cons_append, sends, ih, List.append_assoc]; rfl

/-- Commands that select before they send do not depend on what was selected before. -/
theorem sends_flatMap {B : Type*} {f : B → List (Command A D)}
    (h : ∀ b selected, sends selected (f b) = sends none (f b)) (selected : Option A) (l : List B) :
    sends selected (l.flatMap f) = l.flatMap fun b => sends none (f b) := by
  induction l generalizing selected with
  | nil => rfl
  | cons b l ih => rw [List.flatMap_cons, sends_append, h, ih, List.flatMap_cons]

/-! ### What happens on the bus -/

/-- A message, or what a slave does of itself. -/
inductive Event (A D E : Type*) where
  | message (target : A) (data : D)
  | own (e : E)

/-- The messages among the events. -/
def messages (events : List (Event A D E)) : List (A × D) :=
  events.filterMap fun e => match e with | .message target data => some (target, data) | .own _ => none

/-- Each message followed by some of the slave's own events. -/
def spread (own : List E) (messages : List (A × D)) : List (Event A D E) :=
  messages.flatMap fun m => .message m.1 m.2 :: own.map .own

theorem messages_append (events events' : List (Event A D E)) :
    messages (events ++ events') = messages events ++ messages events' := List.filterMap_append

theorem messages_own (own : List E) : messages (own.map .own : List (Event A D E)) = [] := by
  induction own with
  | nil => rfl
  | cons e own ih => exact ih

@[simp] theorem messages_spread (own : List E) (ms : List (A × D)) : messages (spread own ms) = ms := by
  induction ms with
  | nil => rfl
  | cons m ms ih =>
    have hown := messages_own (A := A) (D := D) own
    show m :: messages (own.map .own ++ spread own ms) = m :: ms
    rw [messages_append, hown, ih, List.nil_append]

variable [DecidableEq A]

/-- What is sent to the address, in order. -/
def sentTo (a : A) (messages : List (A × D)) : List D :=
  messages.filterMap fun m => if m.1 = a then some m.2 else none

@[simp] theorem sentTo_nil (a : A) : sentTo a ([] : List (A × D)) = [] := rfl

theorem sentTo_append (a : A) (messages messages' : List (A × D)) :
    sentTo a (messages ++ messages') = sentTo a messages ++ sentTo a messages' :=
  List.filterMap_append

theorem sentTo_flatMap {B : Type*} (a : A) (f : B → List (A × D)) (l : List B) :
    sentTo a (l.flatMap f) = l.flatMap fun b => sentTo a (f b) :=
  List.filterMap_flatMap

/-! ### A slave -/

/-- A machine on a bus: its inputs are messages and what it does of itself. -/
structure Slave (A D E I S : Type*) where
  address : S → A
  step : S → I → S
  hear : D → I
  own : E → I

namespace Slave

variable (slave : Slave A D E I S)

def next (s : S) : Event A D E → S
  | .message target data => if slave.address s = target then slave.step s (slave.hear data) else s
  | .own e => slave.step s (slave.own e)

def run (s : S) (events : List (Event A D E)) : S := events.foldl slave.next s

/-- The input an event is to a slave that is at the address `a`. -/
def input (a : A) : Event A D E → List I
  | .message target data => if target = a then [slave.hear data] else []
  | .own e => [slave.own e]

def inputs (a : A) (events : List (Event A D E)) : List I := events.flatMap (slave.input a)

variable {slave}

theorem inputs_append (a : A) (events events' : List (Event A D E)) :
    slave.inputs a (events ++ events') = slave.inputs a events ++ slave.inputs a events' :=
  List.flatMap_append

theorem next_at {a : A} {s : S} (h : slave.address s = a) (e : Event A D E) :
    slave.next s e = (slave.input a e).foldl slave.step s := by
  cases e with
  | own e => rfl
  | message target data =>
    simp only [next, input, h, eq_comm (a := a)]
    split <;> rfl

/-- **A slave that stays at its address** is driven by what is sent there. That it stays
need only be known of the runs so driven. -/
theorem run_at {a : A} {s : S} {events : List (Event A D E)}
    (h : ∀ before, before <+: events → slave.address ((slave.inputs a before).foldl slave.step s) = a) :
    slave.run s events = (slave.inputs a events).foldl slave.step s := by
  induction events using List.reverseRecOn with
  | nil => rfl
  | append_singleton events e ih =>
    have hbefore := ih fun before hb => h before (hb.trans (List.prefix_append events [e]))
    have hstays := h events (List.prefix_append events [e])
    rw [run, List.foldl_append] at *
    rw [hbefore, inputs_append, List.foldl_append, List.foldl_cons, List.foldl_nil, next_at hstays]
    simp [inputs]

/-- **A slave nobody talks to** keeps what it keeps of itself. -/
theorem run_deaf {Inv : S → Prop} {s : S} {events : List (Event A D E)} (hs : Inv s)
    (deaf : ∀ s, Inv s → ∀ m ∈ messages events, slave.address s ≠ m.1)
    (keep : ∀ s e, Inv s → Inv (slave.step s (slave.own e))) : Inv (slave.run s events) := by
  induction events generalizing s with
  | nil => exact hs
  | cons e events ih =>
    refine ih ?_ fun s hs m hm => deaf s hs m ?_
    · cases e with
      | own e => exact keep s e hs
      | message target data =>
        show Inv (if slave.address s = target then _ else s)
        rw [if_neg (deaf s hs (target, data) (by simp [messages]))]
        exact hs
    · obtain ⟨e', he', heq⟩ := List.mem_filterMap.mp hm
      exact List.mem_filterMap.mpr ⟨e', List.mem_cons_of_mem e he', heq⟩

end Slave

end Botgeddon.Bus
