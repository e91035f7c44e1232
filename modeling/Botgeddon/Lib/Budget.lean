import Mathlib

/-! A budget that is spent in stages and loses a little at every hand-over.

The rest of a budget is carried from stage to stage. A hand-over may round it
down by less than a quantum; within a stage it is spent exactly. So after any
number of stages the rest is the budget less what was spent, less at most a
quantum per hand-over. -/
namespace Botgeddon.Budget

variable {R : Type*} [Field R] [LinearOrder R]

/-- Of `total`, `spent` is gone and `rest` is left after `k` hand-overs that lose
less than `quantum` each. -/
structure Holds (total quantum spent : R) (k : ℕ) (rest : R) : Prop where
  le : rest ≤ total - spent
  lt : total - spent < rest + k * quantum ∨ (k = 0 ∧ rest = total - spent)

variable {total quantum spent rest rest' : R} {k : ℕ}

theorem holds_whole (total quantum : R) : Holds total quantum 0 0 total :=
  ⟨by simp, .inr ⟨rfl, by simp⟩⟩

/-- Before the first hand-over nothing is lost. -/
theorem Holds.exact (h : Holds total quantum spent 0 rest) : rest = total - spent := by
  rcases h.lt with hlt | ⟨-, heq⟩
  · have hle := h.le
    simp only [Nat.cast_zero, zero_mul, add_zero] at hlt
    exact absurd hlt (not_lt.mpr hle)
  · exact heq

variable [IsStrictOrderedRing R]

/-- A hand-over that gives nothing back and loses less than a quantum. -/
theorem Holds.handOver (h : Holds total quantum spent k rest) (lo : rest - quantum < rest')
    (hi : rest' ≤ rest) : Holds total quantum spent (k + 1) rest' := by
  refine ⟨hi.trans h.le, .inl ?_⟩
  push_cast
  rcases h.lt with hlt | ⟨rfl, heq⟩
  · linarith
  · push_cast
    linarith

/-- Spending within a stage is exact. -/
theorem Holds.spend (h : Holds total quantum spent k rest) (d : R) :
    Holds total quantum (spent + d) k (rest - d) := by
  refine ⟨by linarith [h.le], ?_⟩
  rcases h.lt with hlt | ⟨hk, heq⟩
  · exact .inl (by linarith)
  · exact .inr ⟨hk, by linarith⟩

/-- After a hand-over the loss is less than a quantum per hand-over. -/
theorem Holds.mem_Ioc (h : Holds total quantum spent k rest) (hk : 0 < k) :
    rest ∈ Set.Ioc (total - spent - k * quantum) (total - spent) := by
  rcases h.lt with hlt | ⟨hzero, -⟩
  · exact ⟨by linarith, h.le⟩
  · exact absurd hzero hk.ne'

end Botgeddon.Budget
