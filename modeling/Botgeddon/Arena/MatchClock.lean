import Botgeddon.Lib.Budget
import Botgeddon.Arena.Transition

/-! The match clock.

The 120 seconds of a match are on record in the world while it is not fought,
and a deadline while it is; a pause turns the deadline into seconds again, and
the next `Fighting` turns them into whole milliseconds. So the time left is a
budget: fighting spends it second for second, entering a fight costs less than a
millisecond, and nothing else touches it. -/
namespace Botgeddon.Arena
open Conversions Visits Budget

/-! ### The time left -/

/-- The time left at clock reading `t`, with `q` seconds on record. -/
def remaining (q t : ℚ) : LedAnimation → ℚ
  | .fighting a => a.endTime - t
  | _ => q

/-- A fight starts with the time on record, less what a millisecond cannot hold. -/
theorem handed_le {q : ℚ} (h : 0 ≤ q) : (truncate (q * 1000) : ℚ) / 1000 ≤ q := by
  have hle := truncate_le (mul_nonneg h (by norm_num : (0 : ℚ) ≤ 1000))
  linarith

theorem lt_handed {q : ℚ} (h : 0 ≤ q) : q - 1 / 1000 < (truncate (q * 1000) : ℚ) / 1000 := by
  have hlt := sub_one_lt_truncate (mul_nonneg h (by norm_num : (0 : ℚ) ≤ 1000))
  linarith

/-- Time that is overdrawn when a fight starts stays overdrawn or gone. -/
theorem handed_nonpos {q : ℚ} (h : q < 0) : (truncate (q * 1000) : ℚ) / 1000 ≤ 0 := by
  have hnonpos := truncate_nonpos (mul_neg_of_neg_of_pos h (by norm_num : (0 : ℚ) < 1000))
  have hcast : (truncate (q * 1000) : ℚ) ≤ 0 := by exact_mod_cast hnonpos
  linarith

/-! ### What a match has used up -/

/-- The fights entered since the last `PreStaging`, and the time spent in those
that ended in a pause. -/
structure Tally where
  visits : ℕ
  fought : ℚ

def Tally.next (it : Iteration) (c : Tally) : LedAnimation → LedAnimation → Tally
  | _, .preStagingAnim _ => ⟨0, 0⟩
  | .xmasTree _, .fighting _ => { c with visits := c.visits + 1 }
  | .fighting a, .pausedAnim _ => { c with fought := c.fought + (pauseReading it - a.start) }
  | _, _ => c

namespace Run

def tally (r : Run) : ℕ → Tally
  | 0 => ⟨0, 0⟩
  | n + 1 => (r.tally n).next (r.input n) (r.state n).state (r.state (n + 1)).state

/-- No `Fighting` constructor of the current match was handed a negative time. -/
def NeverOverdrawn (r : Run) (n : ℕ) : Prop :=
  ∀ m, m < n → (∀ j, m < j → j ≤ n → r.phase j ≠ .PreStaging) → Enters r.phase m .Fighting →
    0 ≤ r.timeRemaining m

theorem NeverOverdrawn.upTo {r : Run} {m n : ℕ} (h : r.NeverOverdrawn n) (hmn : m ≤ n)
    (hout : ∀ j, m < j → j ≤ n → r.phase j ≠ .PreStaging) : r.NeverOverdrawn m := by
  intro i hi hout' hent
  refine h i (by omega) (fun j hij hj => ?_) hent
  rcases Nat.lt_or_ge m j with hlt | hge
  · exact hout j hlt hj
  · exact hout' j hij hge

theorem NeverOverdrawn.handed {r : Run} {n : ℕ} (h : r.NeverOverdrawn (n + 1))
    (hent : Enters r.phase n .Fighting) : 0 ≤ r.timeRemaining n := by
  refine h n (Nat.lt_succ_self n) (fun j hnj hj => ?_) hent
  rw [show j = n + 1 by omega, hent.2]
  decide

end Run

/-- The books of a match: what the object in charge and the record hold is the
match time less what the tally has used up. -/
def Accounts (c : Tally) (q : ℚ) : LedAnimation → Prop
  | .preStagingAnim _ => c = ⟨0, 0⟩
  | .stagingAnim _ | .preCountdownAnimation _ => c = ⟨0, 0⟩ ∧ q = 120
  | .xmasTree _ => Holds 120 (1 / 1000) c.fought c.visits q ∧ (c.visits = 0 → c.fought = 0)
  | .fighting a => Holds 120 (1 / 1000) c.fought c.visits (a.endTime - a.start) ∧ 0 < c.visits ∧
      (c.visits = 1 → a.endTime - a.start = 120)
  | .pausedAnim _ => Holds 120 (1 / 1000) c.fought c.visits q ∧ 0 < c.visits
  | .endAnim _ => True

/-- Every transition keeps the books, if a fight is not entered overdrawn. -/
theorem Accounts.next {it : Iteration} {a b : LedAnimation} {q p : ℚ} {k : ℕ} {c : Tally}
    (ht : Transition it a q b p k) (h : Accounts c q a)
    (hq : a.arenaState = .Countdown → b.arenaState = .Fighting → 0 ≤ q) :
    Accounts (c.next it a b) p b := by
  cases ht with
  | awaitReferee | abandon | restart => rfl
  | stage => exact ⟨h, rfl⟩
  | awaitTeams | dim | animate => exact h
  | countDown a q elapsed =>
    obtain ⟨rfl, rfl⟩ := h
    exact ⟨holds_whole 120 (1 / 1000), fun _ => rfl⟩
  | count | fight => exact h
  | start a q elapsed =>
    obtain ⟨hholds, hfresh⟩ := h
    have hnonneg := hq rfl rfl
    refine ⟨?_, Nat.succ_pos _, fun hfirst => ?_⟩
    · simp only [Tally.next, add_sub_cancel_left]
      exact hholds.handOver (lt_handed hnonneg) (handed_le hnonneg)
    · have hzero : c.visits = 0 := by
        simp only [Tally.next] at hfirst
        omega
      rw [hzero, hfresh hzero] at hholds
      have hall : q = 120 := by simpa using hholds.exact
      simp only [hall, add_sub_cancel_left, Arithmetic.exact_thousandfold]
      rw [show (120 * 1000 : ℚ) = (120000 : ℤ) by norm_num, truncate_intCast]
      norm_num
  | tapOut => trivial
  | pause a q referee =>
    obtain ⟨hholds, hpos, -⟩ := h
    refine ⟨?_, hpos⟩
    have hspend := hholds.spend (pauseReading it - a.start)
    rw [show a.endTime - a.start - (pauseReading it - a.start) = a.endTime - pauseReading it by ring]
      at hspend
    exact hspend
  | hold => exact h
  | resume a q referee released kept => exact ⟨h.1, fun hzero => absurd hzero h.2.ne'⟩
  | rest => trivial

namespace Run

theorem accounts (r : Run) (n : ℕ) (h : r.NeverOverdrawn n) :
    Accounts (r.tally n) (r.timeRemaining n) (r.state n).state := by
  induction n with
  | zero => rfl
  | succ n ih =>
    obtain ⟨a, q, b, p, k, ha, hq, hb, hp, -, ht⟩ := r.observe n
    have htally : r.tally (n + 1) = (r.tally n).next (r.input n) a b := by rw [tally, ha, hb]
    rw [htally, hp, hb]
    by_cases hpre : r.phase (n + 1) = .PreStaging
    · have hkind : b.arenaState = .PreStaging := by rw [← hb]; exact hpre
      cases b with
      | preStagingAnim b => cases a <;> rfl
      | _ => cases hkind
    · have hsound : r.NeverOverdrawn n := h.upTo (Nat.le_succ n) fun j hj hj' => by
        rw [show j = n + 1 by omega]
        exact hpre
      have hbooks := ih hsound
      rw [ha, hq] at hbooks
      refine hbooks.next ht fun hfrom hto => ?_
      rw [← hq]
      refine h.handed ⟨?_, ?_⟩
      · show (r.state n).state.arenaState ≠ .Fighting
        rw [ha, hfrom]
        decide
      · show (r.state (n + 1)).state.arenaState = .Fighting
        rw [hb, hto]

/-! ### Time never comes back -/

/-- The time left at a moment before iteration `n`. -/
def left (r : Run) (n : ℕ) (t : ℚ) : ℚ := remaining (r.timeRemaining n) t (r.state n).state

theorem left_next {r : Run} {n : ℕ} {t t' : ℚ} (ht : r.Moment n t) (ht' : r.Moment (n + 1) t')
    (hn : r.Match n) (hn' : r.Match (n + 1)) (hsound : Enters r.phase n .Fighting → 0 ≤ r.timeRemaining n) :
    r.left (n + 1) t' ≤ r.left n t := by
  have hlate : (r.input n).now (r.reads n) ≤ t' := ht'.after n (Nat.lt_succ_self n)
  have htt : t ≤ t' := (ht.before _).trans hlate
  obtain ⟨a, q, b, p, k, ha, hq, hb, hp, hk, hstep⟩ := r.observe n
  have hphase : r.phase n = a.arenaState := by rw [← ha]; rfl
  have hphase' : r.phase (n + 1) = b.arenaState := by rw [← hb]; rfl
  rw [Match, hphase] at hn
  rw [Match, hphase'] at hn'
  rw [hk] at hlate
  simp only [left, ha, hb, hq, hp]
  cases hstep with
  | awaitTeams | dim | animate | countDown | count | hold | resume => exact le_refl _
  | start a q elapsed =>
    have hmono := r.ordered n (by decide : 1 ≤ 2)
    have hent : Enters r.phase n .Fighting := ⟨by rw [hphase]; simp [LedAnimation.arenaState], hphase'⟩
    have hnonneg : 0 ≤ q := hq ▸ hsound hent
    simp only [remaining, Arithmetic.exact_thousandfold]
    linarith [handed_le hnonneg]
  | fight =>
    simp only [remaining]
    linarith
  | pause a q referee =>
    have hread : t ≤ pauseReading (r.input n) := ht.before _
    simp only [remaining, Arithmetic.exact_seconds]
    linarith
  | awaitReferee | stage => exact absurd rfl hn.1
  | abandon => exact absurd rfl hn'.1
  | tapOut => exact absurd rfl hn'.2
  | rest | restart => exact absurd rfl hn.2

/-- In a match whose time was never overdrawn, the time left never grows. -/
theorem left_mono {r : Run} {n m : ℕ} {t t' : ℚ} (hnm : n ≤ m) (ht : r.Moment n t)
    (ht' : r.Moment m t') (htt : t ≤ t') (hon : ∀ j, n ≤ j → j ≤ m → r.Match j)
    (h : r.NeverOverdrawn m) : r.left m t' ≤ r.left n t := by
  induction m, hnm using Nat.le_induction generalizing t' with
  | base =>
    simp only [left, remaining]
    split
    · linarith
    · exact le_refl _
  | succ m hnm ih =>
    have hmid := r.moment_now m
    have hle : t ≤ (r.input m).now 0 := (ht.before 0).trans (now_mono hnm (Nat.le_refl 0))
    have hsound : r.NeverOverdrawn m := h.upTo (Nat.le_succ m) fun j hj hjm => (hon j (by omega) hjm).1
    calc r.left (m + 1) t' ≤ r.left m ((r.input m).now 0) :=
          left_next hmid ht' (hon m hnm (Nat.le_succ m)) (hon (m + 1) (by omega) (le_refl _)) h.handed
      _ ≤ r.left n t := ih hmid hle (fun j hj hjm => hon j hj (by omega)) hsound

/-! ### The law -/

/-- The Countdown iteration `n` is in was entered from a pause. -/
def Resumed (r : Run) (n : ℕ) : Prop :=
  ∃ m, m < n ∧ Enters r.phase m .Countdown ∧ Stays r.phase (m + 1) n ∧ r.phase m = .Paused

theorem tally_succ_countdown {r : Run} {n : ℕ} (h : r.phase (n + 1) = .Countdown) :
    r.tally (n + 1) = r.tally n := by
  obtain ⟨a, q, b, p, k, ha, -, hb, -, -, ht⟩ := r.observe n
  have hkind : b.arenaState = .Countdown := by rw [← hb]; exact h
  rw [tally, ha, hb]
  cases ht with
  | countDown | count | resume => rfl
  | _ => cases hkind

/-- A resumed Countdown comes after a fight. -/
theorem Resumed.visits_pos {r : Run} {n : ℕ} (h : r.NeverOverdrawn n) (hr : r.Resumed n) :
    0 < (r.tally n).visits := by
  obtain ⟨m, hm, hent, hstays, hpaused⟩ := hr
  have hn : r.phase n = .Countdown := (hstays (m + 1) (le_refl _) hm).symm.trans hent.2
  have hsound : r.NeverOverdrawn m := h.upTo hm.le fun j hj hjn => by
    rw [hstays j hj hjn, hn]
    decide
  have hsame : r.tally (m + 1) = r.tally n :=
    hstays.constant hm fun k _ hk' => tally_succ_countdown (hk'.trans hn)
  have hbooks := r.accounts m hsound
  rw [← hsame, tally_succ_countdown hent.2]
  cases ha : (r.state m).state with
  | pausedAnim a =>
    rw [ha] at hbooks
    exact hbooks.2
  | _ =>
    rw [phase, ha] at hpaused
    cases hpaused

/-- The time fought since the last `PreStaging`, up to a moment before iteration `n`. -/
def fightTime (r : Run) (n : ℕ) (t : ℚ) : ℚ :=
  (r.tally n).fought + match (r.state n).state with
    | .fighting a => t - a.start
    | _ => 0

/-- Fighting, paused, or counting down again after a pause. -/
def Clocked (r : Run) (n : ℕ) : Prop :=
  r.phase n = .Fighting ∨ r.phase n = .Paused ∨ (r.phase n = .Countdown ∧ r.Resumed n)

theorem left_holds {r : Run} {n : ℕ} (h : r.NeverOverdrawn n) (hn : r.Clocked n) (t : ℚ) :
    Holds 120 (1 / 1000) (r.fightTime n t) (r.tally n).visits (r.left n t) ∧
      0 < (r.tally n).visits := by
  have hbooks := r.accounts n h
  have hresumed : r.Resumed n → 0 < (r.tally n).visits := Resumed.visits_pos h
  simp only [Clocked, phase] at hn
  simp only [fightTime, left]
  cases ha : (r.state n).state with
  | fighting a =>
    rw [ha] at hbooks
    have hspend := hbooks.1.spend (t - a.start)
    rw [show a.endTime - a.start - (t - a.start) = a.endTime - t by ring] at hspend
    exact ⟨hspend, hbooks.2.1⟩
  | pausedAnim a =>
    rw [ha] at hbooks
    exact ⟨by simpa [remaining] using hbooks.1, hbooks.2⟩
  | xmasTree a =>
    rw [ha] at hbooks hn
    have hr : r.Resumed n := by simpa [LedAnimation.arenaState] using hn
    exact ⟨by simpa [remaining] using hbooks.1, hresumed hr⟩
  | _ =>
    rw [ha] at hn
    simp [LedAnimation.arenaState] at hn

/-- **Match clock conservation.** After `k` fights that took `F` seconds in all,
the time left is `120 - F` less under a millisecond per fight, whatever time was
spent paused or counting down; the first fight has exactly 120 seconds; and the
time left never grows in the course of a match. -/
theorem match_clock (r : Run) (n : ℕ) (h : r.NeverOverdrawn n) :
    (r.Clocked n → ∀ t, r.left n t ∈
      Set.Ioc (120 - r.fightTime n t - (r.tally n).visits * (1 / 1000)) (120 - r.fightTime n t)) ∧
      (∀ a, (r.state n).state = .fighting a → (r.tally n).visits = 1 →
        a.endTime - a.start = 120) ∧
      (∀ m t t', m ≤ n → r.Moment m t → r.Moment n t' → t ≤ t' →
        (∀ j, m ≤ j → j ≤ n → r.Match j) → r.left n t' ≤ r.left m t) := by
  refine ⟨fun hn t => ?_, fun a ha hfirst => ?_, fun m t t' hmn ht ht' htt hon => ?_⟩
  · obtain ⟨hholds, hpos⟩ := left_holds h hn t
    exact hholds.mem_Ioc hpos
  · have hbooks := r.accounts n h
    rw [ha] at hbooks
    exact hbooks.2.2 hfirst
  · exact left_mono hmn ht ht' htt hon h

theorem match_clock_interrupted :
    interrupted.phase 8 = .Paused ∧ interrupted.left 8 32 ∈ Set.Ioc (120 - 4 - 1 / 1000 : ℚ) (120 - 4) := by
  have hsound : interrupted.NeverOverdrawn 8 := fun m hm _ _ =>
    (by decide +kernel : ∀ m < 8, 0 ≤ interrupted.timeRemaining m) m hm
  have hphase : interrupted.phase 8 = .Paused := by decide +kernel
  have hlaw := (match_clock interrupted 8 hsound).1 (.inr (.inl hphase)) 32
  have htime : interrupted.fightTime 8 32 = 4 := by decide +kernel
  have hvisits : (interrupted.tally 8).visits = 1 := by decide +kernel
  rw [htime, hvisits] at hlaw
  exact ⟨hphase, by simpa using hlaw⟩

end Run

end Botgeddon.Arena
