import Botgeddon.Lib.Along

/-! A shift register on three wires.

The driver writes levels to a clock, a data and a latch wire. What the register
sees of them is the rising edges: at one of the clock it takes in the level of the
data wire and loses its oldest stage, and at one of the latch it copies its stages
to its outputs. What the wires were before and what the register held is gone as
soon as as many bits have been clocked out as there are stages
(`outputs_refresh`). -/
namespace Botgeddon.ShiftRegister

inductive Pin where
  | clock
  | data
  | latch
deriving DecidableEq

structure Write where
  pin : Pin
  level : Bool
deriving DecidableEq

structure Wires where
  clock : Bool
  data : Bool
  latch : Bool

/-- A rising edge, that of the clock with the level of the data wire. -/
inductive Edge where
  | clock (data : Bool)
  | latch
deriving DecidableEq

namespace Wires

def write (w : Wires) (o : Write) : Wires :=
  match o.pin with
  | .clock => { w with clock := o.level }
  | .data => { w with data := o.level }
  | .latch => { w with latch := o.level }

/-- The rising edge a write makes, if it makes one. -/
def edge (w : Wires) (o : Write) : Option Edge :=
  match o.pin with
  | .clock => if !w.clock && o.level then some (.clock w.data) else none
  | .data => none
  | .latch => if !w.latch && o.level then some .latch else none

/-- The rising edges of a sequence of writes, in order. -/
def edges (w : Wires) : List Write → List Edge
  | [] => []
  | o :: rest => (w.edge o).toList ++ (w.write o).edges rest

/-- The data wire moves only while the clock is low. -/
def Stable (w : Wires) (writes : List Write) : Prop :=
  Along write (fun w o => o.pin = .data → w.clock = false) w writes

theorem edges_append (w : Wires) (writes writes' : List Write) :
    w.edges (writes ++ writes') = w.edges writes ++ (writes.foldl write w).edges writes' := by
  induction writes generalizing w with
  | nil => rfl
  | cons o rest ih => simp only [List.cons_append, edges, List.foldl_cons, ih, List.append_assoc]

theorem stable_append {w : Wires} {writes writes' : List Write} (h : w.Stable writes)
    (h' : (writes.foldl write w).Stable writes') : w.Stable (writes ++ writes') := by
  induction writes generalizing w with
  | nil => exact h'
  | cons o rest ih => exact ⟨h.1, ih h.2 h'⟩

end Wires

/-- The stages, the oldest bit first, and the outputs. -/
structure Register where
  stages : List Bool
  outputs : List Bool

namespace Register

def edge (r : Register) : Edge → Register
  | .clock data => { r with stages := (r.stages ++ [data]).tail }
  | .latch => { r with outputs := r.stages }

def run (r : Register) (edges : List Edge) : Register := edges.foldl edge r

/-- Bits come in at one end and push as many out at the other. -/
theorem run_clocks (r : Register) (bits : List Bool) :
    r.run (bits.map .clock) = { r with stages := (r.stages ++ bits).drop bits.length } := by
  induction bits generalizing r with
  | nil => simp [run]
  | cons b bits ih =>
    have hshift : ((r.stages ++ [b]).tail ++ bits).drop bits.length =
        (r.stages ++ b :: bits).drop (bits.length + 1) := by
      rw [← List.tail_append_of_ne_nil (by simp), List.append_assoc, List.drop_tail]
      rfl
    show (r.edge (.clock b)).run (bits.map .clock) = _
    rw [ih]
    simp only [edge, hshift, List.length_cons]

end Register

/-! ### Clocking bits out -/

/-- The clock goes down, the data wire takes the bit, the clock goes up. -/
def clockOut (b : Bool) : List Write := [⟨.clock, false⟩, ⟨.data, b⟩, ⟨.clock, true⟩]

/-- The latch goes down and up. -/
def pulse : List Write := [⟨.latch, false⟩, ⟨.latch, true⟩]

/-- The bits one after the other, and a pulse of the latch. -/
def refresh (bits : List Bool) : List Write := bits.flatMap clockOut ++ pulse

theorem edges_clockOut (w : Wires) (b : Bool) : w.edges (clockOut b) = [.clock b] := by
  simp [clockOut, Wires.edges, Wires.edge, Wires.write]

/-- One edge for each bit, whatever the levels are at first. -/
theorem edges_clockOuts (w : Wires) (bits : List Bool) :
    w.edges (bits.flatMap clockOut) = bits.map .clock := by
  induction bits generalizing w with
  | nil => rfl
  | cons b bits ih => rw [List.flatMap_cons, Wires.edges_append, edges_clockOut, ih]; rfl

theorem edges_pulse (w : Wires) : w.edges pulse = [.latch] := by
  simp [pulse, Wires.edges, Wires.edge, Wires.write]

theorem edges_refresh (w : Wires) (bits : List Bool) :
    w.edges (refresh bits) = bits.map .clock ++ [.latch] := by
  rw [refresh, Wires.edges_append, edges_clockOuts, edges_pulse]

theorem stable_clockOuts (w : Wires) (bits : List Bool) : w.Stable (bits.flatMap clockOut) := by
  induction bits generalizing w with
  | nil => trivial
  | cons b bits ih =>
    have hone : w.Stable (clockOut b) := ⟨by simp, fun _ => rfl, by simp, trivial⟩
    exact Wires.stable_append hone (ih _)

theorem stable_refresh (w : Wires) (bits : List Bool) : w.Stable (refresh bits) := by
  have hpulse : ∀ w' : Wires, w'.Stable pulse := fun w' => ⟨by simp, by simp, trivial⟩
  exact Wires.stable_append (stable_clockOuts w bits) (hpulse _)

/-- As many bits as there are stages are the outputs. -/
theorem outputs_refresh (w : Wires) {r : Register} {bits : List Bool} (h : r.stages.length = bits.length) :
    (r.run (w.edges (refresh bits))).outputs = bits := by
  rw [edges_refresh, Register.run, List.foldl_append]
  show ((r.run (bits.map .clock)).edge .latch).outputs = bits
  rw [Register.run_clocks, ← h]
  exact List.drop_left

/-! ### Frames under a low latch -/

/-- The latch goes down, the bits are clocked out, the latch goes up. -/
def frame (bits : List Bool) : List Write := ⟨.latch, false⟩ :: bits.flatMap clockOut ++ [⟨.latch, true⟩]

namespace Register

theorem run_append (r : Register) (edges edges' : List Edge) : r.run (edges ++ edges') = (r.run edges).run edges' :=
  List.foldl_append

/-- A register keeps its length. -/
theorem run_length {r : Register} (h : 0 < r.stages.length) (edges : List Edge) :
    (r.run edges).stages.length = r.stages.length := by
  induction edges generalizing r with
  | nil => rfl
  | cons e edges ih =>
    have hstep : (r.edge e).stages.length = r.stages.length := by
      cases e with
      | clock data => simp [edge]
      | latch => rfl
    exact (ih (by rw [hstep]; exact h)).trans hstep

/-- As long as the latch is not raised, the outputs stay what they are. -/
theorem outputs_quiet {r : Register} {w : Wires} {writes : List Write} (h : ⟨.latch, true⟩ ∉ writes) :
    (r.run (w.edges writes)).outputs = r.outputs := by
  induction writes generalizing r w with
  | nil => rfl
  | cons o rest ih =>
    have hrest : ⟨.latch, true⟩ ∉ rest := fun hmem => h (List.mem_cons_of_mem o hmem)
    have hedge : (r.run (w.edge o).toList).outputs = r.outputs := by
      obtain ⟨pin, level⟩ := o
      cases pin with
      | clock =>
        simp only [Wires.edge]
        split <;> rfl
      | data => rfl
      | latch =>
        cases level with
        | false => simp [Wires.edge, run]
        | true => exact absurd List.mem_cons_self h
    rw [Wires.edges, run_append, ih hrest, hedge]

end Register

theorem frame_body (bits : List Bool) : ⟨.latch, true⟩ ∉ (⟨.latch, false⟩ :: bits.flatMap clockOut : List Write) := by
  simp [clockOut]

theorem count_frame (bits : List Bool) : (frame bits).count ⟨.latch, true⟩ = 1 := by
  rw [frame, List.count_append, List.count_eq_zero_of_not_mem (frame_body bits)]
  rfl

theorem edges_frame (w : Wires) (bits : List Bool) : w.edges (frame bits) = bits.map .clock ++ [.latch] := by
  have hlow : ∀ w' : Wires, (w'.write ⟨.latch, false⟩).latch = false := fun _ => rfl
  have hkept : ∀ (w' : Wires) (bits : List Bool), ((bits.flatMap clockOut).foldl Wires.write w').latch = w'.latch := by
    intro w' bits
    induction bits generalizing w' with
    | nil => rfl
    | cons b bits ih =>
      rw [List.flatMap_cons, List.foldl_append, ih]
      rfl
  rw [frame, Wires.edges_append, Wires.edges, List.foldl_cons, edges_clockOuts]
  simp [Wires.edge, Wires.edges, hkept, hlow]

theorem outputs_frame (w : Wires) {r : Register} {bits : List Bool} (h : r.stages.length = bits.length) :
    (r.run (w.edges (frame bits))).outputs = bits := by
  rw [edges_frame, ← edges_refresh w bits]
  exact outputs_refresh w h

/-- **Frames are shown whole.** However many frames are written and wherever the writing
stops, the outputs are the last frame whose latch was raised, or what they were. -/
theorem frames_cut {w : Wires} {r : Register} {frames : List (List Bool)} (hpos : 0 < r.stages.length)
    (h : ∀ bits ∈ frames, bits.length = r.stages.length) {cut : List Write} (hcut : cut <+: frames.flatMap frame) :
    (r.outputs :: frames)[cut.count ⟨.latch, true⟩]? = some (r.run (w.edges cut)).outputs := by
  induction frames generalizing w r cut with
  | nil =>
    obtain rfl := List.prefix_nil.mp hcut
    rfl
  | cons bits frames ih =>
    obtain ⟨rest, hrest⟩ := hcut
    rw [List.flatMap_cons] at hrest
    rcases List.append_eq_append_iff.mp hrest with ⟨left, hframe, -⟩ | ⟨cut', hcut', hframes⟩
    · rw [frame] at hframe
      rcases List.prefix_concat_iff.mp (show cut <+: _ from ⟨left, hframe.symm⟩) with hwhole | hbody
      · have hall : cut = frame bits := hwhole
        rw [hall, count_frame, outputs_frame w (h bits List.mem_cons_self).symm]
        rfl
      · have hquiet : ⟨.latch, true⟩ ∉ cut := fun hmem => frame_body bits (hbody.subset hmem)
        rw [List.count_eq_zero_of_not_mem hquiet, Register.outputs_quiet hquiet]
        rfl
    · have hlength := Register.run_length hpos (w.edges (frame bits))
      have hnext := @ih ((frame bits).foldl Wires.write w) (r.run (w.edges (frame bits))) (by rw [hlength]; exact hpos)
        (fun bits' hmem => (h bits' (List.mem_cons_of_mem bits hmem)).trans hlength.symm) cut' ⟨rest, hframes.symm⟩
      rw [outputs_frame w (h bits List.mem_cons_self).symm] at hnext
      rw [hcut', List.count_append, count_frame, Wires.edges_append, Register.run_append, Nat.add_comm]
      exact hnext

theorem stable_frame (w : Wires) (bits : List Bool) : w.Stable (frame bits) := by
  have hup : ∀ w' : Wires, w'.Stable [⟨.latch, true⟩] := fun _ => ⟨by simp, trivial⟩
  have hdown : w.Stable (⟨.latch, false⟩ :: bits.flatMap clockOut) := ⟨by simp, stable_clockOuts _ bits⟩
  exact Wires.stable_append hdown (hup _)

theorem stable_frames (w : Wires) (frames : List (List Bool)) : w.Stable (frames.flatMap frame) := by
  induction frames generalizing w with
  | nil => trivial
  | cons bits frames ih => exact Wires.stable_append (stable_frame w bits) (ih _)

end Botgeddon.ShiftRegister
