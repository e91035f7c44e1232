import Mathlib

/-! What holds at every step of a finite run.

`Along step P s es` says that `P` holds of every state of the run of `es` from
`s` together with the event taken there. Two such properties that agree on the
states of an invariant, where either of them keeps it, hold of the same runs. -/
namespace Botgeddon

variable {S E : Type*}

def Along (step : S → E → S) (P : S → E → Prop) (s : S) : List E → Prop
  | [] => True
  | e :: es => P s e ∧ Along step P (step s e) es

namespace Along

variable {step : S → E → S} {P Q : S → E → Prop} {s : S} {es : List E}

/-- Every event of the run satisfies it in the state it is taken in. -/
theorem iff_forall_initial : Along step P s es ↔
    ∀ before e after, es = before ++ e :: after → P (before.foldl step s) e := by
  induction es generalizing s with
  | nil => simp [Along]
  | cons e es ih =>
    rw [Along, ih]
    constructor
    · rintro ⟨hfirst, hrest⟩ before e' after heq
      cases before with
      | nil =>
        obtain ⟨rfl, -⟩ := List.cons.inj heq
        exact hfirst
      | cons d before =>
        obtain ⟨rfl, hes⟩ := List.cons.inj heq
        exact hrest before e' after hes
    · intro h
      refine ⟨h [] e es rfl, fun before e' after heq => ?_⟩
      exact h (e :: before) e' after (by rw [heq, List.cons_append])

/-- Properties that agree on an invariant which one of them keeps. -/
theorem congr {Inv : S → Prop} (agree : ∀ s e, Inv s → (P s e ↔ Q s e))
    (keep : ∀ s e, Inv s → P s e → Inv (step s e)) (hs : Inv s) :
    Along step P s es ↔ Along step Q s es := by
  induction es generalizing s with
  | nil => exact Iff.rfl
  | cons e es ih =>
    constructor
    · intro h
      exact ⟨(agree s e hs).mp h.1, (ih (keep s e hs h.1)).mp h.2⟩
    · intro h
      have hfirst := (agree s e hs).mpr h.1
      exact ⟨hfirst, (ih (keep s e hs hfirst)).mpr h.2⟩

end Along

end Botgeddon
