import Mathlib

/-! A register described by the last token that wrote to it.

A machine reads tokens, and a register of it is overwritten by some of them; what
a token writes may depend on the tokens before it. `writes before t` is that
value, if any. Then the register holds what the last writing token wrote, or what
it held at first if none did. -/
namespace Botgeddon.LastWriter

variable {S T V : Type*}

/-- The last token that writes writes `v`. -/
def Wrote (writes : List T → T → Option V) (tokens : List T) (v : V) : Prop :=
  ∃ before t after, tokens = before ++ t :: after ∧ writes before t = some v ∧
    ∀ between u rest, after = between ++ u :: rest → writes (before ++ t :: between) u = none

/-- No token writes. -/
def Untouched (writes : List T → T → Option V) (tokens : List T) : Prop :=
  ∀ before t after, tokens = before ++ t :: after → writes before t = none

/-- After the tokens the register, which held `init`, holds `v`. -/
def Holds (writes : List T → T → Option V) (init : V) (tokens : List T) (v : V) : Prop :=
  Wrote writes tokens v ∨ Untouched writes tokens ∧ v = init

variable {writes : List T → T → Option V} {init v : V} {tokens : List T}

theorem holds_nil (writes : List T → T → Option V) (init : V) : Holds writes init [] init := by
  refine .inr ⟨fun before t after h => ?_, rfl⟩
  cases before <;> cases h

/-- The last token of a longer list is new, or stands where it stood. -/
theorem append_singleton_cases {before after : List T} {t u : T}
    (h : tokens ++ [u] = before ++ t :: after) :
    (before = tokens ∧ t = u ∧ after = []) ∨
      ∃ shorter, after = shorter ++ [u] ∧ tokens = before ++ t :: shorter := by
  rcases List.eq_nil_or_concat after with rfl | ⟨shorter, w, rfl⟩
  · obtain ⟨htokens, hu⟩ := List.append_inj' h rfl
    exact .inl ⟨htokens.symm, (List.cons.inj hu).1.symm, rfl⟩
  · rw [List.concat_eq_append, ← List.cons_append, ← List.append_assoc] at h
    obtain ⟨htokens, hu⟩ := List.append_inj' h rfl
    obtain rfl := (List.cons.inj hu).1
    exact .inr ⟨shorter, List.concat_eq_append, htokens⟩

/-- One more token: it writes, or the register holds what it held. -/
theorem Holds.snoc (h : Holds writes init tokens v) (u : T) :
    Holds writes init (tokens ++ [u]) ((writes tokens u).getD v) := by
  cases hu : writes tokens u with
  | some w =>
    refine .inl ⟨tokens, u, [], rfl, hu, fun between x rest hnil => ?_⟩
    cases between <;> cases hnil
  | none =>
    rcases h with ⟨before, t, after, rfl, ht, hafter⟩ | ⟨hnone, rfl⟩
    · refine .inl ⟨before, t, after ++ [u], by simp, ht, fun between x rest heq => ?_⟩
      rcases append_singleton_cases heq with ⟨rfl, rfl, -⟩ | ⟨shorter, -, hshorter⟩
      · exact hu
      · exact hafter between x shorter hshorter
    · refine .inr ⟨fun before t after heq => ?_, rfl⟩
      rcases append_singleton_cases heq with ⟨rfl, rfl, -⟩ | ⟨shorter, -, hshorter⟩
      · exact hu
      · exact hnone before t shorter hshorter

/-- A register each token of which either writes or leaves alone. -/
theorem holds_foldl {step : S → T → S} {get : S → V} {s : S} (tokens : List T)
    (each : ∀ before t after, tokens = before ++ t :: after →
      get (step (before.foldl step s) t) = (writes before t).getD (get (before.foldl step s))) :
    Holds writes (get s) tokens (get (tokens.foldl step s)) := by
  induction tokens using List.reverseRecOn with
  | nil => exact holds_nil writes (get s)
  | append_singleton tokens u ih =>
    have hheld := ih fun before t after heq => each before t (after ++ [u]) (by rw [heq]; simp)
    rw [List.foldl_append, List.foldl_cons, List.foldl_nil, each tokens u [] rfl]
    exact hheld.snoc u

end Botgeddon.LastWriter
