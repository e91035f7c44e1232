import Mathlib

/-! Input-driven machines and the history of their runs.

A machine takes one input per step; `states` is the state before each step of a
run on an endless input. What a step observes of the state is a *kind*, and a
*visit* is a stretch of steps over which the kind stays the same. The safety
laws of such machines speak about the past: what happened earlier in the
current visit (`During`), or since a kind was last seen (`Since`). Each of the
two grows by one step at a time, which is how an invariant carries it along. -/
namespace Botgeddon.Visits

variable {I S K V : Type*}

/-! ### Runs -/

/-- The state before step `n`. -/
def states (step : I → S → S) (init : S) (input : ℕ → I) : ℕ → S
  | 0 => init
  | n + 1 => step (input n) (states step init input n)

/-- Two machines driven by related inputs stay related. -/
theorem states_related {I' S' : Type*} (step : I → S → S) (step' : I' → S' → S') (init : S)
    (init' : S') (input : ℕ → I) (input' : ℕ → I') (R : S → S' → Prop) (first : R init init')
    (next : ∀ n s s', R s s' → R (step (input n) s) (step' (input' n) s')) (n : ℕ) :
    R (states step init input n) (states step' init' input' n) := by
  induction n with
  | zero => exact first
  | succ n ih => exact next n _ _ ih

/-! ### Visits -/

variable {kind : ℕ → K}

/-- From step `m` to step `n` the kind does not change. -/
def Stays (kind : ℕ → K) (m n : ℕ) : Prop := ∀ k, m ≤ k → k ≤ n → kind k = kind n

/-- Step `n` ends in kind `k`, having begun in another. -/
def Enters (kind : ℕ → K) (n : ℕ) (k : K) : Prop := kind n ≠ k ∧ kind (n + 1) = k

theorem stays_self (kind : ℕ → K) (n : ℕ) : Stays kind n n :=
  fun k hm hn => by rw [Nat.le_antisymm hn hm]

theorem Stays.succ {m n : ℕ} (h : Stays kind m n) (hn : kind (n + 1) = kind n) :
    Stays kind m (n + 1) := by
  intro k hm hk
  rcases Nat.lt_or_eq_of_le hk with hlt | rfl
  · rw [h k hm (by omega), hn]
  · rfl

theorem Stays.upTo {m n n' : ℕ} (h : Stays kind m n) (hm : m ≤ n') (hn : n' ≤ n) :
    Stays kind m n' :=
  fun k hk hk' => (h k hk (hk'.trans hn)).trans (h n' hm hn).symm

/-- What no step of a visit changes is constant over it. -/
theorem Stays.constant {f : ℕ → V} {m n : ℕ} (h : Stays kind m n) (hmn : m ≤ n)
    (hf : ∀ k, kind k = kind n → kind (k + 1) = kind n → f (k + 1) = f k) : f m = f n := by
  induction n, hmn using Nat.le_induction with
  | base => rfl
  | succ n hmn ih =>
    have hkind : kind n = kind (n + 1) := h n hmn (Nat.le_succ n)
    rw [hf n hkind rfl]
    refine ih (h.upTo hmn (Nat.le_succ n)) fun k hk hk' => hf k ?_ ?_
    · rw [hk, hkind]
    · rw [hk', hkind]

/-- A step is either in the visit the run began with, or in one entered at some
earlier step. -/
theorem initial_or_entered (kind : ℕ → K) (n : ℕ) :
    Stays kind 0 n ∨ ∃ m, m < n ∧ Enters kind m (kind n) ∧ Stays kind (m + 1) n := by
  induction n with
  | zero => exact .inl (stays_self kind 0)
  | succ n ih =>
    by_cases hn : kind (n + 1) = kind n
    · rcases ih with hinit | ⟨m, hm, hent, hstays⟩
      · exact .inl (hinit.succ hn)
      · exact .inr ⟨m, by omega, by rw [hn]; exact hent, hstays.succ hn⟩
    · exact .inr ⟨n, Nat.lt_succ_self n, ⟨fun h => hn h.symm, rfl⟩, stays_self kind (n + 1)⟩

/-- A kind the run did not begin in was entered. -/
theorem entered (kind : ℕ → K) {n : ℕ} (h : kind n ≠ kind 0) :
    ∃ m, m < n ∧ Enters kind m (kind n) ∧ Stays kind (m + 1) n := by
  rcases initial_or_entered kind n with hinit | hent
  · exact absurd (hinit 0 (Nat.le_refl 0) (Nat.zero_le n)).symm h
  · exact hent

/-! ### The past of the current visit -/

/-- Some step of the visit so far satisfies `P`, step `n` included. -/
def Within (kind : ℕ → K) (P : ℕ → Prop) (n : ℕ) : Prop := ∃ m, m ≤ n ∧ Stays kind m n ∧ P m

/-- An earlier step of the visit step `n` belongs to satisfies `P`. -/
def During (kind : ℕ → K) (P : ℕ → Prop) (n : ℕ) : Prop := ∃ m, m < n ∧ Stays kind m n ∧ P m

theorem Within.now {P : ℕ → Prop} {n : ℕ} (hP : P n) : Within kind P n :=
  ⟨n, Nat.le_refl n, stays_self kind n, hP⟩

theorem During.within {P : ℕ → Prop} {n : ℕ} (h : During kind P n) : Within kind P n := by
  obtain ⟨m, hm, hstays, hP⟩ := h
  exact ⟨m, hm.le, hstays, hP⟩

/-- If the visit goes on, what was within it is in its past. -/
theorem Within.succ {P : ℕ → Prop} {n : ℕ} (h : Within kind P n) (hn : kind (n + 1) = kind n) :
    During kind P (n + 1) := by
  obtain ⟨m, hm, hstays, hP⟩ := h
  exact ⟨m, by omega, hstays.succ hn, hP⟩

/-- Step `n` or an earlier one satisfies `P`, and from then on the kind is not `k`. -/
def Since (kind : ℕ → K) (k : K) (P : ℕ → Prop) (n : ℕ) : Prop :=
  ∃ m, m ≤ n ∧ P m ∧ ∀ j, m ≤ j → j ≤ n → kind j ≠ k

theorem Since.succ {k : K} {P : ℕ → Prop} {n : ℕ} (h : Since kind k P n) (hn : kind (n + 1) ≠ k) :
    Since kind k P (n + 1) := by
  obtain ⟨m, hm, hP, hk⟩ := h
  refine ⟨m, by omega, hP, fun j hmj hj => ?_⟩
  rcases Nat.lt_or_eq_of_le hj with hlt | rfl
  · exact hk j hmj (by omega)
  · exact hn

/-- What happened in a visit to another kind happened since `k` was last seen. -/
theorem Within.since {k : K} {P : ℕ → Prop} {n : ℕ} (h : Within kind P n) (hk : kind n ≠ k) :
    Since kind k P n := by
  obtain ⟨m, hm, hstays, hP⟩ := h
  exact ⟨m, hm, hP, fun j hmj hj => by rw [hstays j hmj hj]; exact hk⟩

end Botgeddon.Visits
