import Botgeddon.Lib.Along

/-! A queue of bounded capacity that drops what arrives when it is full.

`handed` keeps what was served, so that a history of the queue can be compared
with what arrived: nothing is duplicated or reordered (`accepted_sublist`), and
if nothing had to be dropped, nothing is missing (`accepted_eq`). -/
namespace Botgeddon

structure Fifo (α : Type*) where
  queue : List α
  handed : List α

namespace Fifo

variable {α : Type*}

inductive Op (α : Type*) where
  | arrive (a : α)
  | serve

def empty : Fifo α := ⟨[], []⟩

def step (capacity : ℕ) (f : Fifo α) : Op α → Fifo α
  | .arrive a => if f.queue.length < capacity then { f with queue := f.queue ++ [a] } else f
  | .serve =>
    match f.queue with
    | [] => f
    | a :: rest => ⟨rest, f.handed ++ [a]⟩

def run (capacity : ℕ) (f : Fifo α) (ops : List (Op α)) : Fifo α := ops.foldl (step capacity) f

/-- What got in, in order: served or still waiting. -/
def accepted (f : Fifo α) : List α := f.handed ++ f.queue

def Op.arrival : Op α → Option α
  | .arrive a => some a
  | .serve => none

def arrivals (ops : List (Op α)) : List α := ops.filterMap Op.arrival

/-- Every item that arrives finds room. -/
def Lossless (capacity : ℕ) (f : Fifo α) (ops : List (Op α)) : Prop :=
  Along (step capacity) (fun f op => ∀ a, op = .arrive a → f.queue.length < capacity) f ops

@[simp] theorem run_nil (capacity : ℕ) (f : Fifo α) : f.run capacity [] = f := rfl

@[simp] theorem run_cons (capacity : ℕ) (f : Fifo α) (op : Op α) (ops : List (Op α)) :
    f.run capacity (op :: ops) = (f.step capacity op).run capacity ops := rfl

theorem run_append (capacity : ℕ) (f : Fifo α) (ops ops' : List (Op α)) :
    f.run capacity (ops ++ ops') = (f.run capacity ops).run capacity ops' :=
  List.foldl_append

theorem step_serve_accepted (capacity : ℕ) (f : Fifo α) :
    (f.step capacity .serve).accepted = f.accepted := by
  obtain ⟨queue, handed⟩ := f
  cases queue with
  | nil => rfl
  | cons a rest => simp [step, accepted]

theorem step_arrive_accepted (capacity : ℕ) (f : Fifo α) (a : α) :
    (f.step capacity (.arrive a)).accepted =
      if f.queue.length < capacity then f.accepted ++ [a] else f.accepted := by
  simp only [step]
  split <;> simp [accepted]

/-- Never more than the capacity. -/
theorem length_run_le {capacity : ℕ} {f : Fifo α} (h : f.queue.length ≤ capacity) (ops : List (Op α)) :
    (f.run capacity ops).queue.length ≤ capacity := by
  induction ops generalizing f with
  | nil => exact h
  | cons op ops ih =>
    refine ih ?_
    cases op with
    | arrive a =>
      simp only [step]
      split
      case isTrue hroom => simpa using hroom
      case isFalse => exact h
    | serve =>
      simp only [step]
      split
      case h_1 => exact h
      case h_2 a rest hq =>
        rw [hq, List.length_cons] at h
        exact Nat.le_of_succ_le h

/-- Nothing is made up, duplicated or reordered. -/
theorem accepted_sublist (capacity : ℕ) (f : Fifo α) (ops : List (Op α)) :
    (f.run capacity ops).accepted.Sublist (f.accepted ++ arrivals ops) := by
  induction ops generalizing f with
  | nil => simp [arrivals]
  | cons op ops ih =>
    refine (ih (f.step capacity op)).trans ?_
    cases op with
    | serve =>
      rw [step_serve_accepted]
      exact List.Sublist.refl _
    | arrive a =>
      rw [step_arrive_accepted]
      show List.Sublist _ (f.accepted ++ a :: arrivals ops)
      split
      · rw [List.append_assoc]
        exact List.Sublist.refl _
      · exact (List.sublist_cons_self a _).append_left _

/-- Without a drop nothing is missing either. -/
theorem accepted_eq {capacity : ℕ} {f : Fifo α} {ops : List (Op α)} (h : f.Lossless capacity ops) :
    (f.run capacity ops).accepted = f.accepted ++ arrivals ops := by
  induction ops generalizing f with
  | nil => simp [arrivals]
  | cons op ops ih =>
    rw [run_cons, ih h.2]
    cases op with
    | serve =>
      rw [step_serve_accepted]
      rfl
    | arrive a =>
      rw [step_arrive_accepted, if_pos (h.1 a rfl), List.append_assoc]
      rfl

end Fifo

end Botgeddon
