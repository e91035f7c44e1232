import Botgeddon.Arena.Arming
import Botgeddon.Arena.Timer

/-! The referee's button as a pause toggle.

The same button pauses a fight and resumes it. A pause remembers that the button
was let go (`_releasedPause`); a fight remembers nothing, and neither does the
countdown before it. So a button that pauses does not resume before it is let
go, but one that resumes pauses again when it is held through the countdown. -/
namespace Botgeddon.Arena
open Visits

namespace Run

section Law

variable [Arithmetic]

/-- Iteration `n` pauses the fight or resumes it. -/
def Toggles (r : Run) (n : ℕ) : Prop :=
  Enters r.phase n .Paused ∨ (r.phase n = .Paused ∧ Enters r.phase n .Countdown)

/-- `m` and `n` toggle the pause of one match, and nothing between them does. -/
structure Consecutive (r : Run) (m n : ℕ) : Prop where
  lt : m < n
  first : r.Toggles m
  last : r.Toggles n
  between : ∀ k, m < k → k < n → ¬ r.Toggles k
  one_match : ∀ j, m < j → j ≤ n → r.Match j

/-- The referee's button is read released between the two. -/
def ReleasedBetween (r : Run) (m n : ℕ) : Prop :=
  ∃ k, m < k ∧ k < n ∧ (r.input k).refButton = false

/-- Iteration `e` ends a countdown that iteration `m` resumed the match with, and
the referee's button is pressed all the while and in the fight's first iteration. -/
structure HeldThrough (r : Run) (m e : ℕ) : Prop where
  lt : m < e
  resumed : r.phase m = .Paused
  counted : Enters r.phase m .Countdown
  stays : Stays r.phase (m + 1) e
  fights : Enters r.phase e .Fighting
  held : ∀ k, m < k → k ≤ e + 1 → (r.input k).refButton = true

/-! ### From a pause to its end -/

/-- A pause of a match that is not resumed goes on. -/
theorem paused_succ {r : Run} {n : ℕ} (h : r.phase n = .Paused) (hon : r.Match (n + 1))
    (hquiet : ¬ r.Toggles n) : r.phase (n + 1) = .Paused := by
  obtain ⟨a, q, b, p, k, ha, -, hb, -, -, ht⟩ := r.observe n
  have hfrom : a.arenaState = .Paused := by rw [← ha]; exact h
  have hto : r.phase (n + 1) = b.arenaState := by rw [← hb]; rfl
  rw [Match, hto] at hon
  cases ht with
  | hold => exact hto
  | resume => exact absurd (.inr ⟨h, by rw [h]; decide, hto⟩) hquiet
  | abandon => exact absurd rfl hon.1
  | _ => cases hfrom

/-- What resumes was let go during the pause. -/
theorem Consecutive.released_of_pauses {r : Run} {m n : ℕ} (h : r.Consecutive m n)
    (hm : Enters r.phase m .Paused) : r.ReleasedBetween m n := by
  have hpaused : ∀ k, m < k → k ≤ n → r.phase k = .Paused := by
    intro k hk hkn
    induction k, hk using Nat.le_induction with
    | base => exact hm.2
    | succ k hk ih =>
      exact paused_succ (ih (by omega)) (h.one_match (k + 1) (by omega) hkn) (h.between k hk (by omega))
  have hn : r.phase n = .Paused := hpaused n h.lt (le_refl n)
  rcases h.last with hpause | ⟨-, hresume⟩
  · exact absurd hn hpause.1
  · rcases enters_countdown_from hresume with hcame | ⟨-, -, k, hkn, hstays, hreleased⟩
    · exact absurd (hn.symm.trans hcame) (by decide)
    · refine ⟨k, ?_, hkn, hreleased⟩
      -- the visit the release is in is the one entered at `m`
      by_contra hkm
      exact hm.1 ((hstays m (by omega) h.lt.le).trans hn)

/-! ### From the end of a pause to the next -/

/-- A resumed match counts down or is fought until it is paused. -/
theorem resumed_succ {r : Run} {n : ℕ} (h : r.phase n = .Countdown ∨ r.phase n = .Fighting)
    (hon : r.Match (n + 1)) (hquiet : ¬ r.Toggles n) :
    r.phase (n + 1) = .Countdown ∨ r.phase (n + 1) = .Fighting := by
  obtain ⟨a, q, b, p, k, ha, -, hb, -, -, ht⟩ := r.observe n
  have hfrom : r.phase n = a.arenaState := by rw [← ha]; rfl
  have hto : r.phase (n + 1) = b.arenaState := by rw [← hb]; rfl
  rw [Match, hto] at hon
  rw [hfrom] at h
  rw [hto]
  cases ht with
  | count => exact .inl rfl
  | start | fight => exact .inr rfl
  | tapOut => exact absurd rfl hon.2
  | pause => exact absurd (.inl ⟨by rw [hfrom]; simp [LedAnimation.arenaState], hto⟩) hquiet
  | _ => simp [LedAnimation.arenaState] at h

theorem Consecutive.resumed {r : Run} {m n : ℕ} (h : r.Consecutive m n)
    (hm : Enters r.phase m .Countdown) (k : ℕ) (hk : m < k) (hkn : k ≤ n) :
    r.phase k = .Countdown ∨ r.phase k = .Fighting := by
  induction k, hk using Nat.le_induction with
  | base => exact .inl hm.2
  | succ k hk ih =>
    exact resumed_succ (ih (by omega)) (h.one_match (k + 1) (by omega) hkn) (h.between k hk (by omega))

/-- What pauses a resumed match without having been let go was held through the
countdown. -/
theorem Consecutive.heldThrough {r : Run} {m n : ℕ} (h : r.Consecutive m n)
    (hpaused : r.phase m = .Paused) (hm : Enters r.phase m .Countdown)
    (hheld : ¬ r.ReleasedBetween m n) : ∃ e, r.HeldThrough m e := by
  have hresumed := h.resumed hm
  have hpauses : r.Pauses n := by
    rcases h.last with hpause | ⟨hn, -⟩
    · exact enters_paused_from hpause
    · rcases hresumed n h.lt (le_refl n) with hc | hf
      · exact absurd (hn.symm.trans hc) (by decide)
      · exact absurd (hn.symm.trans hf) (by decide)
  -- the fight that is paused was entered at `e`, after the resume
  obtain ⟨e, hen, hent, hstays⟩ := @entered _ r.phase n (by rw [hpauses.1]; simp)
  rw [hpauses.1] at hent
  have hme : m < e := by
    by_contra hem
    have hfight := (hstays (m + 1) (by omega) h.lt).trans hpauses.1
    exact absurd (hm.2.symm.trans hfight) (by decide)
  -- and its countdown is the one the resume entered
  have hcount : r.phase e = .Countdown := enters_fighting_from hent
  obtain ⟨c, hce, hcent, hcstays⟩ := @entered _ r.phase e (by rw [hcount]; simp)
  rw [hcount] at hcent
  have hcm : c = m := by
    rcases Nat.lt_trichotomy c m with hlt | heq | hgt
    · have hcountm := (hcstays m hlt hme.le).trans hcount
      exact absurd (hpaused.symm.trans hcountm) (by decide)
    · exact heq
    · rcases hresumed c hgt (by omega) with hc | hf
      · exact absurd hc hcent.1
      · rcases enters_countdown_from hcent with hcame | hcame
        · exact absurd (hf.symm.trans hcame) (by decide)
        · exact absurd (hf.symm.trans hcame.1) (by decide)
  subst hcm
  refine ⟨e, hme, hpaused, hm, hcstays, hent, fun k hk hke => ?_⟩
  rcases Nat.lt_or_eq_of_le (show k ≤ n by omega) with hlt | rfl
  · by_contra href
    exact hheld ⟨k, hk, hlt, by simpa using href⟩
  · exact hpauses.2

/-- A button held through the countdown pauses the fight at once. -/
theorem HeldThrough.consecutive {r : Run} {m e : ℕ} (h : r.HeldThrough m e) :
    r.Consecutive m (e + 1) where
  lt := Nat.lt_succ_of_lt h.lt
  first := .inr ⟨h.resumed, h.counted⟩
  last := by
    have hpauses : r.Pauses (e + 1) := ⟨h.fights.2, h.held (e + 1) (Nat.lt_succ_of_lt h.lt) (le_refl _)⟩
    exact .inl ⟨by rw [h.fights.2]; decide, (shown_pausing hpauses).1⟩
  between := by
    intro k hk hke htoggle
    have hcount : r.phase k = .Countdown := by
      rw [h.stays k hk (by omega), enters_fighting_from h.fights]
    rcases htoggle with hpause | ⟨hpaused, -⟩
    · exact absurd (hcount.symm.trans (enters_paused_from hpause).1) (by decide)
    · exact absurd (hcount.symm.trans hpaused) (by decide)
  one_match := by
    intro j hj hje
    rcases Nat.lt_or_eq_of_le hje with hlt | rfl
    · rw [Match, h.stays j hj (by omega), enters_fighting_from h.fights]
      decide
    · rw [Match, h.fights.2]
      decide

/-- **A press toggles the pause once, unless it is held through a countdown.** -/
theorem released_between_iff (r : Run) :
    (∀ m n, r.Consecutive m n → r.ReleasedBetween m n) ↔ ∀ m e, ¬ r.HeldThrough m e := by
  refine ⟨fun h m e hheld => ?_, fun h m n hcons => ?_⟩
  · obtain ⟨k, hk, hke, hreleased⟩ := h m (e + 1) hheld.consecutive
    rw [hheld.held k hk (by omega)] at hreleased
    cases hreleased
  · rcases hcons.first with hpause | ⟨hpaused, hresume⟩
    · exact hcons.released_of_pauses hpause
    · by_contra hheld
      obtain ⟨e, hthrough⟩ := hcons.heldThrough hpaused hresume hheld
      exact h m e hthrough

end Law

/-- A match that is paused, then resumed with a press that goes on for two more
iterations. -/
def leaned : Run :=
  paced (· == 2) (· == 2) (fun n => n == 0 || n == 7 || (9 ≤ n && n ≤ 11)) (fun _ => false) fun _ => 0

theorem leaned_pauses_again :
    leaned.phase 9 = .Paused ∧ leaned.phase 10 = .Countdown ∧ leaned.phase 11 = .Fighting ∧
      leaned.phase 12 = .Paused ∧ ¬ ∀ m n, leaned.Consecutive m n → leaned.ReleasedBetween m n := by
  have hpaused : leaned.phase 9 = .Paused := by decide +kernel
  have hcount : leaned.phase 10 = .Countdown := by decide +kernel
  have hfight : leaned.phase 11 = .Fighting := by decide +kernel
  have hheld : leaned.HeldThrough 9 10 :=
    ⟨by decide, hpaused, ⟨by rw [hpaused]; decide, hcount⟩, stays_self _ 10,
      ⟨by rw [hcount]; decide, hfight⟩, fun k hk hk' => by
        have hk3 : k = 10 ∨ k = 11 := by omega
        rcases hk3 with rfl | rfl <;> rfl⟩
  refine ⟨hpaused, hcount, hfight, by decide +kernel, fun h => ?_⟩
  obtain ⟨k, hk, hke, hreleased⟩ := h 9 11 hheld.consecutive
  rw [hheld.held k hk (by omega)] at hreleased
  cases hreleased

end Run

end Botgeddon.Arena
