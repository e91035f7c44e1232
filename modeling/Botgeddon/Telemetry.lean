import Mathlib

/-! The telemetry socket.

`ReceiverComms` keeps one receive under way. Completing it, asio writes the sender
into `_remoteEndpoint` and the datagram into `_buffer`; the handler runs later and
starts the next receive. The handler looks at what was received before it vouches
for the endpoint, but by then the endpoint has been written: a datagram without
bytes is not vouched for and answered all the same. -/
namespace Botgeddon.Telemetry

/-- The size of `_buffer`. -/
def bufferSize : ℕ := 1024

/-- What a completed receive reports to its handler. -/
structure Outcome where
  ec : Bool
  bytesRecv : ℕ

structure ReceiverComms (E : Type*) where
  remoteEndpoint : E
  receivedEndpoint : Bool
  buffer : List UInt8
  /-- The receive whose handler is still to run; without one, a receive is under way. -/
  completed : Option Outcome
  /-- The calls of `_handlerFunc`. -/
  handled : List (List UInt8)
  /-- The calls of `send_to`. -/
  sent : List (E × List UInt8)

/-- What happens to the object. A receive completes with a datagram or an error. -/
inductive Event (E : Type*) where
  | datagram (sender : E) (payload : List UInt8)
  | failure
  | handler
  | sendTelemetry (str : List UInt8)

namespace ReceiverComms

variable {E : Type*}

/-- The constructor, which starts the first receive. The endpoint is a default one,
and the buffer is not initialised. -/
def new (remoteEndpoint : E) (buffer : List UInt8) : ReceiverComms E :=
  ⟨remoteEndpoint, false, buffer, none, [], []⟩

/-- asio completes the receive under way; bytes past the buffer's size are cut off. -/
def complete (c : ReceiverComms E) (sender : E) (payload : List UInt8) : ReceiverComms E :=
  let received := payload.take bufferSize
  { c with
    remoteEndpoint := sender
    buffer := received ++ c.buffer.drop received.length
    completed := some ⟨false, received.length⟩ }

/-- The handler given to `async_receive_from`: `if (!ec && bytesRecv > 0)`, and the
next `Receive`. -/
def handle (c : ReceiverComms E) (outcome : Outcome) : ReceiverComms E :=
  let c := if !outcome.ec && 0 < outcome.bytesRecv then
      { c with
        receivedEndpoint := true
        handled := c.handled ++ [c.buffer.take outcome.bytesRecv] }
    else c
  { c with completed := none }

def sendTelemetry (c : ReceiverComms E) (str : List UInt8) : ReceiverComms E :=
  if !c.receivedEndpoint then c else { c with sent := c.sent ++ [(c.remoteEndpoint, str)] }

/-- With no receive under way nothing completes, and with one no handler runs. An error
leaves endpoint and buffer as they are. -/
def step (c : ReceiverComms E) : Event E → ReceiverComms E
  | .datagram sender payload =>
    match c.completed with
    | none => c.complete sender payload
    | some _ => c
  | .failure =>
    match c.completed with
    | none => { c with completed := some ⟨true, 0⟩ }
    | some _ => c
  | .handler =>
    match c.completed with
    | none => c
    | some outcome => c.handle outcome
  | .sendTelemetry str => c.sendTelemetry str

def run (c : ReceiverComms E) (events : List (Event E)) : ReceiverComms E := events.foldl step c

end ReceiverComms

/-! ### What was received -/

structure Datagram (E : Type*) where
  sender : E
  payload : List UInt8

variable {E : Type*}

/-- The bytes of a datagram that reach the buffer. -/
def Datagram.bytes (d : Datagram E) : List UInt8 := d.payload.take bufferSize

/-- The datagrams among those that have bytes. -/
def spoken (ds : List (Datagram E)) : List (Datagram E) := ds.filter fun d => d.payload ≠ []

namespace ReceiverComms

/-- The datagram an event completes the receive with. -/
def receivedBy (c : ReceiverComms E) : Event E → Option (Datagram E)
  | .datagram sender payload => if c.completed.isNone then some ⟨sender, payload⟩ else none
  | _ => none

/-- The datagrams received in the course of the events, in order. -/
def received (c : ReceiverComms E) : List (Event E) → List (Datagram E)
  | [] => []
  | e :: events => (c.receivedBy e).toList ++ (c.step e).received events

/-- What the handler that is still to run will hand over. -/
def pending (c : ReceiverComms E) : List (List UInt8) :=
  match c.completed with
  | none => []
  | some outcome => if !outcome.ec && 0 < outcome.bytesRecv then [c.buffer.take outcome.bytesRecv] else []

/-- The object has received `ds` since it was `c₀`. -/
structure Tracks (c₀ c : ReceiverComms E) (ds : List (Datagram E)) : Prop where
  endpoint : c.remoteEndpoint = (ds.getLast?.map Datagram.sender).getD c₀.remoteEndpoint
  handled : c.handled ++ c.pending = (spoken ds).map Datagram.bytes
  valid : c.receivedEndpoint = true ↔ c.handled ≠ []
  latest : c.pending ≠ [] → (spoken ds).getLast? = ds.getLast?

end ReceiverComms

theorem spoken_append (ds ds' : List (Datagram E)) : spoken (ds ++ ds') = spoken ds ++ spoken ds' :=
  List.filter_append ..

theorem bytes_eq_nil_iff (d : Datagram E) : d.bytes = [] ↔ d.payload = [] := by
  simp [Datagram.bytes, bufferSize]

namespace ReceiverComms

theorem pending_complete (c : ReceiverComms E) (d : Datagram E) :
    (c.complete d.sender d.payload).pending = (spoken [d]).map Datagram.bytes := by
  have hread : (d.bytes ++ c.buffer.drop d.bytes.length).take d.bytes.length = d.bytes := List.take_left
  by_cases hempty : d.payload = []
  · have hspoken : spoken [d] = [] := by simp [spoken, hempty]
    have hbytes : d.bytes = [] := (bytes_eq_nil_iff d).mpr hempty
    rw [hspoken]
    show (if !false && decide (0 < d.bytes.length) then _ else []) = _
    rw [hbytes]
    rfl
  · have hspoken : spoken [d] = [d] := by simp [spoken, hempty]
    have hbytes : 0 < d.bytes.length :=
      List.length_pos_iff.mpr fun h => hempty ((bytes_eq_nil_iff d).mp h)
    rw [hspoken]
    show (if !false && decide (0 < d.bytes.length) then [_] else []) = _
    rw [decide_eq_true hbytes]
    exact congrArg (fun bytes => [bytes]) hread

/-- A completed receive is the latest, and it is spoken or not. -/
theorem Tracks.complete {c₀ c : ReceiverComms E} {ds : List (Datagram E)} (h : Tracks c₀ c ds)
    (hnone : c.completed = none) (d : Datagram E) :
    Tracks c₀ (c.complete d.sender d.payload) (ds ++ [d]) where
  endpoint := by rw [List.getLast?_concat]; rfl
  handled := by
    have hbefore : c.pending = [] := by rw [pending, hnone]
    have hhandled := h.handled
    rw [hbefore, List.append_nil] at hhandled
    rw [pending_complete, spoken_append, List.map_append, ← hhandled]
    rfl
  valid := h.valid
  latest := by
    rw [pending_complete]
    intro hne
    have hspoken : spoken [d] = [d] := by
      by_cases hempty : d.payload = []
      · exact absurd (by simp [spoken, hempty]) hne
      · simp [spoken, hempty]
    rw [spoken_append, hspoken, List.getLast?_concat, List.getLast?_concat]

/-- The handler hands over what it is to hand over. -/
theorem Tracks.handle {c₀ c : ReceiverComms E} {ds : List (Datagram E)} (h : Tracks c₀ c ds)
    {outcome : Outcome} (hsome : c.completed = some outcome) : Tracks c₀ (c.handle outcome) ds := by
  have hpending : c.pending =
      if !outcome.ec && 0 < outcome.bytesRecv then [c.buffer.take outcome.bytesRecv] else [] := by
    rw [pending, hsome]
  have hafter : (c.handle outcome).pending = [] := rfl
  by_cases hgood : (!outcome.ec && 0 < outcome.bytesRecv) = true
  · rw [if_pos hgood] at hpending
    have hhandled : (c.handle outcome).handled = c.handled ++ c.pending := by
      simp only [ReceiverComms.handle, if_pos hgood, hpending]
    have hvalid : (c.handle outcome).receivedEndpoint = true := by
      simp only [ReceiverComms.handle, if_pos hgood]
    have hendpoint : (c.handle outcome).remoteEndpoint = c.remoteEndpoint := by
      simp only [ReceiverComms.handle, if_pos hgood]
    refine ⟨hendpoint.trans h.endpoint, ?_, iff_of_true hvalid ?_, fun hne => absurd hafter hne⟩
    · rw [hafter, List.append_nil, hhandled]
      exact h.handled
    · rw [hhandled, hpending]
      exact List.append_ne_nil_of_right_ne_nil _ (List.cons_ne_nil _ _)
  · rw [if_neg hgood] at hpending
    have hsame : c.handle outcome = { c with completed := none } := by
      simp only [ReceiverComms.handle, if_neg hgood]
    have hhandled := h.handled
    rw [hpending] at hhandled
    rw [hsame]
    exact ⟨h.endpoint, hhandled, h.valid, fun hne => absurd rfl hne⟩

theorem Tracks.step {c₀ c : ReceiverComms E} {ds : List (Datagram E)} (h : Tracks c₀ c ds) (e : Event E) :
    Tracks c₀ (c.step e) (ds ++ (c.receivedBy e).toList) := by
  cases e with
  | datagram sender payload =>
    cases hcompleted : c.completed with
    | none =>
      simp only [ReceiverComms.step, receivedBy, hcompleted, Option.isNone_none, if_true, Option.toList_some]
      exact h.complete hcompleted ⟨sender, payload⟩
    | some outcome =>
      simp only [ReceiverComms.step, receivedBy, hcompleted, Option.isNone_some, Bool.false_eq_true, if_false,
        Option.toList_none, List.append_nil]
      exact h
  | failure =>
    simp only [receivedBy, Option.toList_none, List.append_nil]
    cases hcompleted : c.completed with
    | none =>
      simp only [ReceiverComms.step, hcompleted]
      have hbefore : c.pending = [] := by rw [pending, hcompleted]
      have hhandled := h.handled
      rw [hbefore] at hhandled
      exact ⟨h.endpoint, hhandled, h.valid, fun hne => absurd rfl hne⟩
    | some outcome =>
      simp only [ReceiverComms.step, hcompleted]
      exact h
  | handler =>
    simp only [receivedBy, Option.toList_none, List.append_nil]
    cases hcompleted : c.completed with
    | none =>
      simp only [ReceiverComms.step, hcompleted]
      exact h
    | some outcome =>
      simp only [ReceiverComms.step, hcompleted]
      exact h.handle hcompleted
  | sendTelemetry str =>
    simp only [receivedBy, Option.toList_none, List.append_nil, ReceiverComms.step, sendTelemetry]
    split
    · exact h
    · exact ⟨h.endpoint, h.handled, h.valid, h.latest⟩

theorem Tracks.run {c₀ c : ReceiverComms E} {ds : List (Datagram E)} (h : Tracks c₀ c ds)
    (events : List (Event E)) : Tracks c₀ (c.run events) (ds ++ c.received events) := by
  induction events generalizing c ds with
  | nil => simpa [ReceiverComms.run, received] using h
  | cons e events ih =>
    have hnext := ih (h.step e)
    rw [List.append_assoc] at hnext
    exact hnext

theorem tracks_new (remoteEndpoint : E) (buffer : List UInt8) (events : List (Event E)) :
    Tracks (new remoteEndpoint buffer) ((new remoteEndpoint buffer).run events)
      ((new remoteEndpoint buffer).received events) :=
  @Tracks.run _ _ _ [] ⟨rfl, rfl, by simp [new], fun hne => absurd rfl hne⟩ events

/-! ### Who is answered -/

/-- The call, made when `ds` has been received, sends nothing, or `str` to the sender of
the latest datagram that had bytes. -/
def Answers (c : ReceiverComms E) (ds : List (Datagram E)) (str : List UInt8) : Prop :=
  (c.sendTelemetry str).sent = c.sent ∨
    ∃ d, (spoken ds).getLast? = some d ∧ (c.sendTelemetry str).sent = c.sent ++ [(d.sender, str)]

/-- The handler has been called once for each datagram that had bytes, in order and with
the bytes received; the last of them may be still to come. -/
structure HandsOver (c : ReceiverComms E) (ds : List (Datagram E)) : Prop where
  sofar : c.handled <+: (spoken ds).map Datagram.bytes
  all : c.completed = none → c.handled = (spoken ds).map Datagram.bytes

/-- The latest datagram comes from where the latest one with bytes came from. -/
def SameSpeaker (ds : List (Datagram E)) : Prop :=
  ∀ d d', ds.getLast? = some d → (spoken ds).getLast? = some d' → d.sender = d'.sender

theorem Tracks.handsOver {c₀ c : ReceiverComms E} {ds : List (Datagram E)} (h : Tracks c₀ c ds) :
    HandsOver c ds := by
  refine ⟨⟨c.pending, h.handled⟩, fun hnone => ?_⟩
  have hhandled := h.handled
  rwa [show c.pending = [] by rw [pending, hnone], List.append_nil] at hhandled

/-- A call answers the right peer exactly if the latest datagram is that peer's. -/
theorem Tracks.answers_iff {c₀ c : ReceiverComms E} {ds : List (Datagram E)} (h : Tracks c₀ c ds)
    (str : List UInt8) : Answers c ds str ↔ SameSpeaker ds := by
  by_cases hvalid : c.receivedEndpoint = true
  · have hsent : (c.sendTelemetry str).sent = c.sent ++ [(c.remoteEndpoint, str)] := by
      simp [sendTelemetry, hvalid]
    -- Something was handed over, so there is a latest datagram and one with bytes.
    have hspoken : spoken ds ≠ [] := by
      intro hnil
      have hhandled := h.handled
      rw [hnil, List.map_nil] at hhandled
      exact h.valid.mp hvalid (List.append_eq_nil_iff.mp hhandled).1
    obtain ⟨d', hd'⟩ : ∃ d', (spoken ds).getLast? = some d' :=
      ⟨_, List.getLast?_eq_some_getLast hspoken⟩
    have hne : ds ≠ [] := by
      rintro rfl
      exact hspoken rfl
    obtain ⟨d, hd⟩ : ∃ d, ds.getLast? = some d := ⟨_, List.getLast?_eq_some_getLast hne⟩
    have hendpoint : c.remoteEndpoint = d.sender := by rw [h.endpoint, hd]; rfl
    constructor
    · rintro (hnothing | ⟨d'', hd'', hanswer⟩)
      · rw [hsent] at hnothing
        exact absurd hnothing (by simp)
      · intro x x' hx hx'
        obtain rfl := Option.some.inj (hx.symm.trans hd)
        obtain rfl := Option.some.inj (hx'.symm.trans hd'')
        rw [hsent, hendpoint] at hanswer
        have hlast := List.append_cancel_left hanswer
        exact congrArg Prod.fst (List.cons.inj hlast).1
    · intro hsame
      refine .inr ⟨d', hd', ?_⟩
      rw [hsent, hendpoint, hsame d d' hd hd']
  · have hsent : (c.sendTelemetry str).sent = c.sent := by simp [sendTelemetry, hvalid]
    refine iff_of_true (.inl hsent) fun d d' hd hd' => ?_
    -- Nothing was handed over yet: what has bytes is what the handler is to hand over next.
    have hnone : c.handled = [] := not_not.mp fun hne => hvalid (h.valid.mpr hne)
    have hpending : c.pending ≠ [] := by
      intro hnil
      have hhandled := h.handled
      rw [hnone, hnil, List.append_nil, eq_comm, List.map_eq_nil_iff] at hhandled
      rw [hhandled] at hd'
      cases hd'
    have hlatest := h.latest hpending
    rw [hd, hd'] at hlatest
    rw [Option.some.inj hlatest]

end ReceiverComms

open ReceiverComms

/-- Every call of `SendTelemetry` answers the right peer, and the handler is called as
it should be. -/
def SpeaksWithPeers (c : ReceiverComms E) (events : List (Event E)) : Prop :=
  (∀ before str after, events = before ++ .sendTelemetry str :: after →
    Answers (c.run before) (c.received before) str) ∧
    ∀ before after, events = before ++ after → HandsOver (c.run before) (c.received before)

/-- **Telemetry goes to a peer that has spoken** exactly if no call of `SendTelemetry`
comes when the latest datagram is an empty one from somewhere else. -/
theorem speaks_with_peers_iff (remoteEndpoint : E) (buffer : List UInt8) (events : List (Event E)) :
    SpeaksWithPeers (new remoteEndpoint buffer) events ↔
      ∀ before str after, events = before ++ .sendTelemetry str :: after →
        SameSpeaker ((new remoteEndpoint buffer).received before) := by
  constructor
  · intro h before str after heq
    exact ((tracks_new remoteEndpoint buffer before).answers_iff str).mp (h.1 before str after heq)
  · intro h
    refine ⟨fun before str after heq => ?_, fun before after _ => (tracks_new remoteEndpoint buffer before).handsOver⟩
    exact ((tracks_new remoteEndpoint buffer before).answers_iff str).mpr (h before str after heq)

/-- Peer 1 says something, host 2 sends an empty datagram, and telemetry is sent. -/
def emptied : List (Event ℕ) :=
  [.datagram 1 [0x68, 0x69], .handler, .datagram 2 [], .handler, .sendTelemetry [0x74]]

/-- Host 2 gets it. -/
theorem emptied_answers_silent :
    ((new 0 []).run emptied).handled = [[0x68, 0x69]] ∧ ((new 0 []).run emptied).sent = [(2, [0x74])] ∧
      ¬ SpeaksWithPeers (new 0 []) emptied := by
  refine ⟨by decide, by decide, fun h => ?_⟩
  rcases h.1 (emptied.take 4) [0x74] [] rfl with hnothing | ⟨d, hd, hanswer⟩
  · exact absurd hnothing (by decide)
  · have hone : (spoken ((new 0 []).received (emptied.take 4))).getLast? = some ⟨1, [0x68, 0x69]⟩ := by rfl
    obtain rfl := Option.some.inj (hone.symm.trans hd)
    exact absurd hanswer (by decide)

end Botgeddon.Telemetry
