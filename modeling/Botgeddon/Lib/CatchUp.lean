import Mathlib

/-! Loops that catch up with a clock.

A process falls due at certain times, and a loop advances it while its due time is
past: `while (due < t) advance`. If every advance puts the due time off by some
fixed pace at least, the loop ends (`run`, `run_exits`), and it does not matter how often it
was called on the way (`run_run`, `run_schedule`). -/
namespace Botgeddon

structure CatchUp (K S : Type*) [Field K] [LinearOrder K] where
  /-- The process is to advance once this is past. -/
  due : S → K
  advance : S → S
  /-- How far every advance puts off the due time, at least. -/
  pace : K
  pace_pos : 0 < pace
  due_advance : ∀ s, due s + pace ≤ due (advance s)

namespace CatchUp

variable {K S : Type*} [Field K] [LinearOrder K] [IsStrictOrderedRing K] [FloorSemiring K]
variable (c : CatchUp K S)

/-- A bound on the rounds it takes to get to time `t`. -/
def rounds (t : K) (s : S) : ℕ := ⌈(t - c.due s) / c.pace⌉₊

theorem rounds_advance {t : K} {s : S} (h : c.due s < t) : c.rounds t (c.advance s) < c.rounds t s := by
  have hpos : 0 < (t - c.due s) / c.pace := div_pos (sub_pos.mpr h) c.pace_pos
  have hstep : (t - c.due (c.advance s)) / c.pace + 1 ≤ (t - c.due s) / c.pace := by
    have hadvance := c.due_advance s
    rw [← div_self c.pace_pos.ne', ← add_div]
    exact div_le_div_of_nonneg_right (by linarith) c.pace_pos.le
  refine Nat.lt_ceil.mpr ?_
  show (⌈(t - c.due (c.advance s)) / c.pace⌉₊ : K) < _
  rcases le_or_gt ((t - c.due (c.advance s)) / c.pace) 0 with hdone | hmore
  · rwa [Nat.ceil_eq_zero.mpr hdone, Nat.cast_zero]
  · exact (Nat.ceil_lt_add_one hmore.le).trans_le hstep

/-- The loop up to time `t`. -/
def run (t : K) (s : S) : S :=
  if h : c.due s < t then
    have := c.rounds_advance h
    run t (c.advance s)
  else s
termination_by c.rounds t s

variable {c} {t t' : K} {s : S}

theorem run_of_due (h : c.due s < t) : c.run t s = c.run t (c.advance s) := by
  rw [run, dif_pos h]

theorem run_of_not_due (h : t ≤ c.due s) : c.run t s = s := by
  rw [run, dif_neg (not_lt.mpr h)]

/-- What holds before the loop and is kept by every round holds after it. -/
theorem run_induction {P : S → Prop} (hs : P s) (keep : ∀ s, c.due s < t → P s → P (c.advance s)) :
    P (c.run t s) := by
  induction s using run.induct c t with
  | case1 s hdue _ ih =>
    rw [run_of_due hdue]
    exact ih (keep s hdue hs)
  | case2 s hdue =>
    rw [run_of_not_due (not_lt.mp hdue)]
    exact hs

variable (c) in
/-- The loop, started in `s`, comes to its end in `s'`: after some number of rounds, at
the start of each of which the process was due, and not due afterwards. -/
def Exits (t : K) (s s' : S) : Prop :=
  ∃ n, s' = c.advance^[n] s ∧ (∀ i < n, c.due (c.advance^[i] s) < t) ∧ t ≤ c.due s'

/-- **The loop ends.** -/
theorem run_exits (t : K) (s : S) : c.Exits t s (c.run t s) := by
  induction s using run.induct c t with
  | case1 s hdue _ ih =>
    obtain ⟨n, hrun, hbefore, hafter⟩ := ih
    rw [run_of_due hdue]
    refine ⟨n + 1, ?_, fun i hi => ?_, hafter⟩
    · rw [hrun, Function.iterate_succ_apply]
    · cases i with
      | zero => exact hdue
      | succ i => exact hbefore i (Nat.lt_of_succ_lt_succ hi)
  | case2 s hdue =>
    rw [run_of_not_due (not_lt.mp hdue)]
    exact ⟨0, rfl, fun i hi => absurd hi (Nat.not_lt_zero i), not_lt.mp hdue⟩

/-- An earlier call makes no difference. -/
theorem run_run (h : t ≤ t') (s : S) : c.run t' (c.run t s) = c.run t' s := by
  induction s using run.induct c t with
  | case1 s hdue _ ih => rw [run_of_due hdue, ih, run_of_due (hdue.trans_le h)]
  | case2 s hdue => rw [run_of_not_due (not_lt.mp hdue)]

/-- Nor do any number of them. -/
theorem run_schedule {times : List K} (h : ∀ u ∈ times, u ≤ t) (s : S) :
    c.run t (times.foldl (fun s u => c.run u s) s) = c.run t s := by
  induction times generalizing s with
  | nil => rfl
  | cons u times ih =>
    rw [List.foldl_cons, ih fun v hv => h v (List.mem_cons_of_mem u hv),
      run_run (h u List.mem_cons_self)]

/-- Processes that are related, due at the same times and kept related, are related
after the loop. -/
theorem run_related {R : S → S → Prop} (due_eq : ∀ a b, R a b → c.due a = c.due b)
    (keep : ∀ a b, R a b → R (c.advance a) (c.advance b)) {a b : S} (h : R a b) (t : K) :
    R (c.run t a) (c.run t b) := by
  induction a using run.induct c t generalizing b with
  | case1 a hdue _ ih =>
    have hdue' : c.due b < t := (due_eq a b h) ▸ hdue
    rw [run_of_due hdue, run_of_due hdue']
    exact ih (keep a b h)
  | case2 a hdue =>
    have hdue' : t ≤ c.due b := (due_eq a b h) ▸ not_lt.mp hdue
    rw [run_of_not_due (not_lt.mp hdue), run_of_not_due hdue']
    exact h

end CatchUp

end Botgeddon
