import Mathlib

/-! What a polled machine does in time.

A loop looks at the clock once per round, and the rounds are at most some gap apart. A
state that is left when a deadline is past is then left within two gaps of it: one until
a round sees that it is past, and one until the next round sees what came of it
(`deadline`). `LeadsTo` composes such stays (`trans`): the delays add up, and the gaps
with them. -/
namespace Botgeddon.Deadline

variable {K : Type*} [Field K] [LinearOrder K] [IsStrictOrderedRing K]

/-- Rounds come in order, and up to the horizon the next one comes at most `gap` later. -/
structure Paced (time : ℕ → K) (gap : K) (horizon : ℕ) : Prop where
  mono : Monotone time
  gap_nonneg : 0 ≤ gap
  within : ∀ n < horizon, time (n + 1) ≤ time n + gap

/-- Of the rounds up to the horizon: after `P`, when more than `delay` has passed, `Q` has
been reached, and within the delay; until then there was `W`. -/
def LeadsTo (time : ℕ → K) (horizon : ℕ) (W : ℕ → Prop) (delay : K) (P Q : ℕ → Prop) : Prop :=
  ∀ n N, n ≤ N → N ≤ horizon → P n → time n + delay < time N →
    ∃ k, n ≤ k ∧ k ≤ N ∧ Q k ∧ time k ≤ time n + delay ∧ ∀ j, n ≤ j → j < k → W j

namespace LeadsTo

variable {time : ℕ → K} {gap delay delay' : K} {horizon : ℕ} {P P' Q R W : ℕ → Prop}

theorem trans (h : LeadsTo time horizon W delay P Q) (h' : LeadsTo time horizon W delay' Q R)
    (hdelay' : 0 ≤ delay') : LeadsTo time horizon W (delay + delay') P R := by
  intro n N hnN hN hP hlate
  obtain ⟨k, hnk, hkN, hQ, hk, hW⟩ := h n N hnN hN hP (by linarith)
  obtain ⟨m, hkm, hmN, hR, hm, hW'⟩ := h' k N hkN hN hQ (by linarith)
  refine ⟨m, hnk.trans hkm, hmN, hR, by linarith, fun j hj hjm => ?_⟩
  rcases lt_or_ge j k with hjk | hjk
  · exact hW j hj hjk
  · exact hW' j hjk hjm

theorem mono (h : LeadsTo time horizon W delay P Q) (hdelay : delay ≤ delay') :
    LeadsTo time horizon W delay' P Q := by
  intro n N hnN hN hP hlate
  obtain ⟨k, hnk, hkN, hQ, hk, hW⟩ := h n N hnN hN hP (by linarith)
  exact ⟨k, hnk, hkN, hQ, by linarith, hW⟩

omit [IsStrictOrderedRing K] in
/-- What no round undoes is still there. -/
theorem and_stable {S : ℕ → Prop} (h : LeadsTo time horizon W delay P Q) (stable : ∀ n, S n → S (n + 1)) :
    LeadsTo time horizon W delay (fun n => P n ∧ S n) (fun n => Q n ∧ S n) := by
  intro n N hnN hN ⟨hP, hS⟩ hlate
  obtain ⟨k, hnk, hkN, hQ, hk, hW⟩ := h n N hnN hN hP hlate
  exact ⟨k, hnk, hkN, ⟨hQ, Nat.le_induction hS (fun m _ => stable m) k hnk⟩, hk, hW⟩

/-- **A stay that a deadline ends.** `P` is kept with its deadline until `Q`, and a round
of `P` past the deadline leads to `Q`. -/
theorem deadline (hpaced : Paced time gap horizon) (due : ℕ → K) (hdelay : 0 ≤ delay) (hW : ∀ n, P n → W n)
    (soon : ∀ n, P n → due n ≤ time n + delay)
    (stay : ∀ n < horizon, P n → (P (n + 1) ∧ due (n + 1) = due n) ∨ Q (n + 1))
    (expire : ∀ n < horizon, P n → due n < time n → Q (n + 1)) :
    LeadsTo time horizon W (delay + 2 * gap) P Q := by
  intro n N hnN hN hP hlate
  have hgap := hpaced.gap_nonneg
  have hdue := soon n hP
  -- As long as `Q` is not reached, the deadline was not past a round ago.
  have hrounds : ∀ j, n ≤ j → j ≤ N →
      (∃ k, n ≤ k ∧ k ≤ j ∧ Q k ∧ time k ≤ time n + (delay + 2 * gap) ∧ ∀ i, n ≤ i → i < k → W i) ∨
        (P j ∧ due j = due n ∧ time j ≤ time n + delay + gap ∧ ∀ i, n ≤ i → i < j → W i) := by
    intro j hj
    induction j, hj using Nat.le_induction with
    | base => exact fun _ => .inr ⟨hP, rfl, by linarith, fun i hi hin => absurd hi (not_le.mpr hin)⟩
    | succ j hj ih =>
      intro hjN
      rcases ih (by omega) with ⟨k, hnk, hkj, hQ, hk, hbefore⟩ | ⟨hPj, hduej, hj', hbefore⟩
      · exact .inl ⟨k, hnk, by omega, hQ, hk, hbefore⟩
      · have hnext := hpaced.within j (by omega)
        have hW' : ∀ i, n ≤ i → i < j + 1 → W i := by
          intro i hi hij
          rcases Nat.lt_succ_iff_lt_or_eq.mp hij with hlt | rfl
          · exact hbefore i hi hlt
          · exact hW i hPj
        by_cases hpast : due j < time j
        · exact .inl ⟨j + 1, by omega, le_rfl, expire j (by omega) hPj hpast, by linarith, hW'⟩
        · rcases stay j (by omega) hPj with ⟨hPnext, hduenext⟩ | hQ
          · exact .inr ⟨hPnext, hduenext.trans hduej, by linarith, hW'⟩
          · exact .inl ⟨j + 1, by omega, le_rfl, hQ, by linarith, hW'⟩
  rcases hrounds N hnN le_rfl with hreached | ⟨-, -, hearly, -⟩
  · exact hreached
  · linarith

/-- One round. -/
theorem next (hpaced : Paced time gap horizon) (hW : ∀ n, P n → W n) (step : ∀ n < horizon, P n → Q (n + 1)) :
    LeadsTo time horizon W gap P Q := by
  intro n N hnN hN hP hlate
  have hlt : n < N := by
    refine lt_of_le_of_ne hnN ?_
    rintro rfl
    linarith [hpaced.gap_nonneg]
  refine ⟨n + 1, Nat.le_succ n, hlt, step n (by omega) hP, hpaced.within n (by omega), fun j hj hjn => ?_⟩
  obtain rfl : j = n := by omega
  exact hW j hP

end LeadsTo

end Botgeddon.Deadline
