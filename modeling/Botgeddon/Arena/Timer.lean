import Botgeddon.Arena.Transition

/-! The timer the displays show.

`GetSegmentLed` is called on the object the same iteration's `Tick` left behind.
A `Fighting` reads the clock for it; a `PausedAnim` shows the member `_remTime`,
which its `Tick` assigns and its constructor does not. So the iteration that
enters `Paused` shows what the memory held before, and every later one shows the
time on record.

The time left is the value a `duration<float>` holds, whatever the arithmetic: a
display that rounds it up may be a second above the exact time left, but what it has
shown it never exceeds. -/
namespace Botgeddon.Arena
open Conversions Visits

/-! ### What does not depend on unassigned members -/

/-- The object without the content of `_remTime`. -/
def LedAnimation.forget : LedAnimation → LedAnimation
  | .pausedAnim a => .pausedAnim { a with remTime := 0 }
  | a => a

@[simp] theorem LedAnimation.forget_arenaState (a : LedAnimation) :
    a.forget.arenaState = a.arenaState := by
  cases a <;> rfl

/-- Only a pause has something to forget. -/
theorem LedAnimation.forget_eq {a : LedAnimation} (h : a.arenaState ≠ .Paused) : a.forget = a := by
  cases a with
  | pausedAnim => exact absurd rfl h
  | _ => rfl

def Iteration.forget (it : Iteration) : Iteration := { it with remTime := 0 }

def Loop.forget (s : Loop) : Loop := ⟨s.world, s.state.forget⟩

section Step

variable [Arithmetic]

/-- An iteration does the same, but for `_remTime`, whatever `_remTime` holds. -/
def Forgets (it : Iteration) (s : Loop) : Prop :=
  (s.step it).forget = (s.forget.step it.forget).forget ∧
    (s.tick it).reads = (s.forget.tick it.forget).reads

theorem fighting_forgets (it : Iteration) (w : WorldState) (a : Fighting) :
    Forgets it ⟨w, .fighting a⟩ := by
  simp only [Forgets, Loop.forget, LedAnimation.forget, Loop.step, Loop.tick, LedAnimation.tick,
    Fighting.tick, Ticking.now, Ticking.read, Ticking.member, Ticking.viaState, Ticking.changeState,
    Ticking.setTimeRemaining, Iteration.forget, WorldState.press, getAnimation]
  by_cases href : it.refButton = true <;>
    by_cases htap : (it.redButton || it.blueButton) = true <;> simp [href, htap]

theorem paused_forgets (it : Iteration) (w : WorldState) (a : PausedAnim) :
    Forgets it ⟨w, .pausedAnim a⟩ := by
  simp only [Forgets, Loop.forget, LedAnimation.forget, Loop.step, Loop.tick, LedAnimation.tick,
    PausedAnim.tick, PausedAnim.update, Ticking.now, Ticking.member, Ticking.viaState,
    Ticking.changeState, Iteration.forget, WorldState.press, getAnimation]
  by_cases href : it.refButton = true <;> by_cases hres : it.resetButton = true <;>
    by_cases hrel : a.releasedPause = true <;> simp [href, hres, hrel]

theorem forgets (it : Iteration) (s : Loop) : Forgets it s := by
  obtain ⟨w, a⟩ := s
  cases a with
  | fighting a => exact fighting_forgets it w a
  | pausedAnim a => exact paused_forgets it w a
  | preStagingAnim | stagingAnim | preCountdownAnimation | xmasTree | endAnim =>
    simp only [Forgets, Loop.forget, LedAnimation.forget, Loop.step, Loop.tick, LedAnimation.tick,
      PreStagingAnim.tick, StagingAnim.tick, PreCountdownAnimation.tick, XmasTree.tick, End.tick,
      Ticking.now, Ticking.read, Ticking.member, Ticking.viaState, Ticking.changeState,
      Ticking.setTimeRemaining, Iteration.forget, WorldState.press]
    split <;> exact ⟨rfl, rfl⟩

end Step

namespace Run

section Law

variable [Arithmetic]

/-- The same run with other contents of uninitialised members. -/
def withRemTime (r : Run) (remTime : ℕ → ℤ) : Run where
  began := r.began
  input := fun n => { r.input n with remTime := remTime n }
  ordered := r.ordered
  follows := r.follows
  after := r.after
  representable := r.representable

theorem forget_withRemTime (r : Run) (remTime : ℕ → ℤ) (n : ℕ) :
    ((r.withRemTime remTime).state n).forget = (r.state n).forget := by
  refine states_related Loop.step Loop.step _ _ (r.withRemTime remTime).input r.input
    (fun s s' => s.forget = s'.forget) rfl (fun n s s' hsame => ?_) n
  rw [(forgets _ s).1, (forgets _ s').1, hsame]
  rfl

@[simp] theorem phase_withRemTime (r : Run) (remTime : ℕ → ℤ) (n : ℕ) :
    (r.withRemTime remTime).phase n = r.phase n := by
  have hstate := congrArg (fun s => s.state.arenaState) (r.forget_withRemTime remTime n)
  simp only [Loop.forget, LedAnimation.forget_arenaState] at hstate
  exact hstate

@[simp] theorem timeRemaining_withRemTime (r : Run) (remTime : ℕ → ℤ) (n : ℕ) :
    (r.withRemTime remTime).timeRemaining n = r.timeRemaining n :=
  congrArg (fun s => s.world.timeRemaining) (r.forget_withRemTime remTime n)

theorem state_withRemTime (r : Run) (remTime : ℕ → ℤ) {n : ℕ} (h : r.phase n ≠ .Paused) :
    ((r.withRemTime remTime).state n).state = (r.state n).state := by
  have hstate := congrArg Loop.state (r.forget_withRemTime remTime n)
  have h' : (r.withRemTime remTime).phase n ≠ .Paused := by rwa [phase_withRemTime]
  simpa only [Loop.forget, LedAnimation.forget_eq h, LedAnimation.forget_eq h'] using hstate

theorem reads_withRemTime (r : Run) (remTime : ℕ → ℤ) (n : ℕ) :
    (r.withRemTime remTime).reads n = r.reads n := by
  show ((r.withRemTime remTime).state n |>.tick _).reads = ((r.state n).tick _).reads
  rw [(forgets _ _).2, (forgets _ (r.state n)).2, forget_withRemTime]
  rfl

/-- What iteration `n` shows is the same whatever unassigned members hold. -/
def Independent (r : Run) (n : ℕ) : Prop :=
  ∀ remTime, (r.withRemTime remTime).shown n = r.shown n

theorem shown_independent {r : Run} {n : ℕ} (h : r.phase (n + 1) = .Paused → r.phase n = .Paused) :
    r.Independent n := by
  intro remTime
  by_cases hpaused : r.phase (n + 1) = .Paused
  · have hstays : (r.withRemTime remTime).shown n = _ :=
      shown_paused (by rw [phase_withRemTime, h hpaused]) (by rw [phase_withRemTime, hpaused])
    rw [hstays, shown_paused (h hpaused) hpaused, timeRemaining_withRemTime]
  · rw [shown_eq, shown_eq, state_withRemTime r remTime hpaused, reads_withRemTime]
    rfl

/-! ### The iteration that enters a pause -/

/-- It shows the content of the member nobody assigned. -/
theorem shown_pausing {r : Run} {n : ℕ} (h : r.Pauses n) :
    r.phase (n + 1) = .Paused ∧ r.shown n = timerSegments (r.input n).remTime := by
  obtain ⟨a, -, hb, -⟩ := observe_pauses h
  refine ⟨congrArg LedAnimation.arenaState hb, ?_⟩
  rw [shown_eq, hb]
  rfl

theorem not_independent_of_pauses {r : Run} {n : ℕ} (h : r.Pauses n) : ¬ r.Independent n := by
  intro hind
  have hshown : ∀ z, (r.withRemTime fun _ => z).shown n = timerSegments z := by
    intro z
    have hpauses : (r.withRemTime fun _ => z).Pauses n :=
      ⟨(phase_withRemTime r _ n).trans h.1, h.2⟩
    exact (shown_pausing hpauses).2
  have hsame : timerSegments 0 = timerSegments 1 := by
    rw [← hshown 0, ← hshown 1, hind, hind]
  exact absurd hsame (by decide)

/-! ### The time left -/

/-- The clock reading the display of iteration `n` is computed from: `Fighting`
takes one before it, for a value it does not use. -/
def displayTime (r : Run) (n : ℕ) : ℚ := (r.input n).now (r.reads n + 1)

/-- The time left in the state iteration `n` ends in, when it is shown. -/
def timeLeft (r : Run) (n : ℕ) : ℚ :=
  match (r.state (n + 1)).state with
  | .fighting a => seconds (a.endTime - r.displayTime n)
  | _ => r.timeRemaining (n + 1)

theorem moment_display (r : Run) (n : ℕ) : r.Moment (n + 1) (r.displayTime n) where
  began := (r.after 0).trans (now_mono (Nat.zero_le n) (Nat.zero_le _))
  after := fun m hm => by
    rcases Nat.lt_or_eq_of_le (Nat.lt_succ_iff.mp hm) with hlt | rfl
    · exact now_le hlt _ _
    · exact r.ordered m (Nat.le_succ _)
  before := fun j => r.follows n _ j

theorem displayTime_mono (r : Run) {m n : ℕ} (h : m ≤ n) : r.displayTime m ≤ r.displayTime n := by
  rcases Nat.lt_or_eq_of_le h with hlt | rfl
  · exact now_le hlt _ _
  · exact le_refl _

theorem timeLeft_fighting {r : Run} {n : ℕ} {b : Fighting} (hb : (r.state (n + 1)).state = .fighting b) :
    r.timeLeft n = seconds (b.endTime - r.displayTime n) := by
  rw [timeLeft, hb]

theorem timeLeft_paused {r : Run} {n : ℕ} (h : r.phase (n + 1) = .Paused) :
    r.timeLeft n = r.timeRemaining (n + 1) := by
  obtain ⟨b, hb⟩ := LedAnimation.eq_pausedAnim h
  rw [timeLeft, hb]

/-- The time a pause has on record was measured by the fight before it. -/
theorem paused_measured {r : Run} {n : ℕ} (h : r.phase n = .Paused) : ∃ d, r.timeRemaining n = seconds d := by
  have hmeasured := r.invariant (fun _ a q => a.arenaState = .Paused → ∃ d, q = seconds d)
    (fun hpaused => by cases hpaused) (fun n a q b p k _ _ ht ih hpaused => ?_) n
  · exact hmeasured h
  · cases ht with
    | pause => exact ⟨_, rfl⟩
    | hold => exact ih rfl
    | _ => cases hpaused

/-! ### What it is at most -/

/-- `q` seconds, and what a fight makes of them, are at most `S`. -/
def Fits (S : ℕ) (q : ℚ) : Prop := q ≤ S ∧ seconds (truncate (thousandfold q) / 1000) ≤ S

theorem fits_match : Fits 121 120 := ⟨by norm_num, by exact_mod_cast Arithmetic.whole⟩

/-- Measured seconds fit where they are fewer. -/
theorem fits_measured {S : ℕ} (hS : S ≤ 121) {d : ℚ} (h : seconds d ≤ S) : Fits S (seconds d) :=
  ⟨h, Arithmetic.keeps d S hS h⟩

/-- At `t` there are at most `S` seconds left, and there will not be more. -/
def Within (S : ℕ) (t q : ℚ) : LedAnimation → Prop
  | .fighting a => seconds (a.endTime - t) ≤ S
  | .stagingAnim _ | .preCountdownAnimation _ | .xmasTree _ | .pausedAnim _ => Fits S q
  | .preStagingAnim _ | .endAnim _ => True

theorem Within.later {S : ℕ} {t t' q : ℚ} {a : LedAnimation} (h : Within S t q a) (htt : t ≤ t') :
    Within S t' q a := by
  cases a with
  | fighting a =>
    have hless : seconds (a.endTime - t') ≤ seconds (a.endTime - t) := seconds_mono (by linarith)
    exact hless.trans h
  | _ => exact h

/-- No transition but the staging of a match gives time. -/
theorem Within.next {it : Iteration} {a b : LedAnimation} {q p : ℚ} {k : ℕ} (ht : Transition it a q b p k)
    (hordered : Monotone it.now) {S : ℕ} (hS : S ≤ 121) {t : ℚ} (hread : ∀ j, t ≤ it.now j)
    (h : Within S t q a) (hstage : a.arenaState = .PreStaging → Fits S 120) : Within S (it.now k) p b := by
  cases ht with
  | stage => exact hstage rfl
  | awaitTeams | dim | animate | countDown | count | hold | resume => exact h
  | start a q elapsed =>
    have hmono : it.now 1 ≤ it.now 2 := hordered (by decide)
    have hless : seconds (it.now 1 + truncate (thousandfold q) / 1000 - it.now 2) ≤
        seconds (truncate (thousandfold q) / 1000) := seconds_mono (by linarith)
    exact hless.trans h.2
  | fight a q red blue referee => exact h.later (hread 0)
  | pause a q referee => exact fits_measured hS (h.later (hread (pauseReads it)))
  | awaitReferee | tapOut | abandon | rest | restart => trivial

/-- The time left at a moment bounds it at every later one, up to the next staging. -/
theorem within_run {r : Run} {m n : ℕ} {t t' : ℚ} {S : ℕ} (hS : S ≤ 121) (hmn : m ≤ n) (ht : r.Moment m t)
    (ht' : r.Moment n t') (htt : t ≤ t')
    (hstage : ∀ j, m ≤ j → j < n → r.phase j = .PreStaging → Fits S 120)
    (h : Within S t (r.timeRemaining m) (r.state m).state) :
    Within S t' (r.timeRemaining n) (r.state n).state := by
  induction n, hmn using Nat.le_induction generalizing t' with
  | base => exact h.later htt
  | succ n hmn ih =>
    have hmid := r.moment_now n
    have hbefore : t ≤ (r.input n).now 0 := (ht.before 0).trans (now_mono hmn (Nat.le_refl 0))
    have hnow := ih hmid hbefore (fun j hj hjn => hstage j hj (by omega))
    exact (hnow.next (step_transition (r.input n) (r.state n)) (r.ordered n) hS (fun j => hmid.before j)
      (hstage n hmn (Nat.lt_succ_self n))).later (ht'.after n (Nat.lt_succ_self n))

/-- There is never more than a match left. -/
theorem within_match (r : Run) (n : ℕ) : Within 121 (r.displayTime n) (r.timeRemaining (n + 1)) (r.state (n + 1)).state :=
  within_run (le_refl _) (Nat.zero_le _) (r.moment_now 0) (r.moment_display n)
    ((r.ordered 0 (Nat.zero_le _)).trans (r.displayTime_mono (Nat.zero_le n))) (fun _ _ _ _ => fits_match) trivial

/-! ### The timer -/

/-- A fight shows the time left, or that there is none. -/
theorem shown_fighting {r : Run} {n : ℕ} {b : Fighting} (hb : (r.state (n + 1)).state = .fighting b) :
    r.shown n = if 0 < ⌈r.timeLeft n⌉ then timerSegments ⌈r.timeLeft n⌉
      else ⟨#v[literal 'E', literal 'n', literal 'd', literal ' '], 0⟩ := by
  rw [shown_eq, timeLeft_fighting hb, hb]
  simp only [LedAnimation.getSegmentLed, Fighting.getSegmentLed, truncate_intCast]
  rfl

/-- The iteration ends in a state that has a timer to show. -/
def Timed (r : Run) (n : ℕ) : Prop :=
  (r.phase (n + 1) = .Fighting ∧ 0 < r.timeLeft n) ∨ (r.phase (n + 1) = .Paused ∧ 0 ≤ r.timeLeft n)

theorem Timed.nonneg {r : Run} {n : ℕ} (h : r.Timed n) : 0 ≤ r.timeLeft n := by
  rcases h with ⟨-, hpos⟩ | ⟨-, hnonneg⟩
  · exact hpos.le
  · exact hnonneg

theorem Timed.le_of_within {r : Run} {n : ℕ} (h : r.Timed n) {S : ℕ}
    (hwithin : Within S (r.displayTime n) (r.timeRemaining (n + 1)) (r.state (n + 1)).state) : r.timeLeft n ≤ S := by
  rcases h with ⟨hfight, -⟩ | ⟨hpaused, -⟩
  · obtain ⟨b, hb⟩ := LedAnimation.eq_fighting hfight
    rw [hb] at hwithin
    rw [timeLeft_fighting hb]
    exact hwithin
  · obtain ⟨b, hb⟩ := LedAnimation.eq_pausedAnim hpaused
    rw [hb] at hwithin
    rw [timeLeft_paused hpaused]
    exact hwithin.1

theorem Timed.ceil_le_match {r : Run} {n : ℕ} (h : r.Timed n) : ⌈r.timeLeft n⌉ ≤ 121 :=
  Int.ceil_le.mpr (by exact_mod_cast h.le_of_within (r.within_match n))

/-- The iteration shows the time left in whole seconds, and nothing else has a
part in it. -/
def ShowsTimer (r : Run) (n : ℕ) : Prop := Spells (r.shown n) ⌈r.timeLeft n⌉ ∧ r.Independent n

theorem shows_fighting {r : Run} {n : ℕ} (h : r.phase (n + 1) = .Fighting) (hpos : 0 < r.timeLeft n) :
    r.ShowsTimer n := by
  refine ⟨?_, shown_independent fun hpaused => by rw [h] at hpaused; cases hpaused⟩
  obtain ⟨b, hb⟩ := LedAnimation.eq_fighting h
  have hceil : 0 < ⌈r.timeLeft n⌉ := Int.ceil_pos.mpr hpos
  have hmatch := Timed.ceil_le_match (.inl ⟨h, hpos⟩)
  rw [shown_fighting hb, if_pos hceil]
  exact timerSegments_spells hceil.le (by omega)

theorem shows_paused {r : Run} {n : ℕ} (h : r.phase n = .Paused) (h' : r.phase (n + 1) = .Paused)
    (hnonneg : 0 ≤ r.timeLeft n) : r.ShowsTimer n := by
  refine ⟨?_, shown_independent fun _ => h⟩
  have hmatch := Timed.ceil_le_match (.inr ⟨h', hnonneg⟩)
  obtain ⟨-, -, -, hkept⟩ := observe_paused h h'
  rw [timeLeft_paused h', hkept] at hmatch hnonneg ⊢
  have hceil : 0 ≤ ⌈r.timeRemaining n⌉ := Int.ceil_nonneg hnonneg
  rw [shown_paused h h']
  exact timerSegments_spells hceil (by omega)

/-- The iteration pauses a fight that has time left. -/
def PausesInTime (it : Iteration) : LedAnimation → Prop
  | .fighting a => it.refButton = true ∧ pauseReading it ≤ a.endTime
  | _ => False

theorem pausesInTime_iff (r : Run) (n : ℕ) :
    PausesInTime (r.input n) (r.state n).state ↔ r.Pauses n ∧ 0 ≤ r.timeLeft n := by
  obtain ⟨a, q, b, p, k, ha, -, hb, hp, -, ht⟩ := r.observe n
  have hphase : r.phase n = a.arenaState := by rw [← ha]; rfl
  rw [ha, Pauses, hphase]
  cases ht with
  | pause a q referee =>
    have hto : r.phase (n + 1) = .Paused := congrArg LedAnimation.arenaState hb
    rw [timeLeft_paused hto, hp, Arithmetic.seconds_nonneg_iff]
    simp [PausesInTime, referee, LedAnimation.arenaState]
  | fight a q red blue referee => simp [PausesInTime, referee]
  | tapOut a q tapped referee => simp [PausesInTime, referee]
  | _ => simp [PausesInTime, LedAnimation.arenaState]

/-- An iteration shows the timer exactly if it does not pause a fight in time. -/
theorem showsTimer_iff (r : Run) (n : ℕ) :
    (r.Timed n → r.ShowsTimer n) ↔ ¬ PausesInTime (r.input n) (r.state n).state := by
  rw [pausesInTime_iff]
  refine ⟨fun h hpause => ?_, fun h htimed => ?_⟩
  · have hshows := h (.inr ⟨(shown_pausing hpause.1).1, hpause.2⟩)
    exact not_independent_of_pauses hpause.1 hshows.2
  · rcases htimed with ⟨hfight, hpos⟩ | ⟨hpaused, hnonneg⟩
    · exact shows_fighting hfight hpos
    · by_cases hfrom : r.phase n = .Paused
      · exact shows_paused hfrom hpaused hnonneg
      · exact absurd ⟨enters_paused_from ⟨hfrom, hpaused⟩, hnonneg⟩ h

/-! ### The timer runs down -/

/-- Iterations `m` to `n` end within one match. -/
def OneMatch (r : Run) (m n : ℕ) : Prop := ∀ j, m ≤ j → j ≤ n → r.Match (j + 1)

/-- The seconds shown bound the time left from then on. -/
theorem Timed.within {r : Run} {n : ℕ} (h : r.Timed n) {S : ℕ} (hS : S ≤ 121) (hleft : r.timeLeft n ≤ S) :
    Within S (r.displayTime n) (r.timeRemaining (n + 1)) (r.state (n + 1)).state := by
  rcases h with ⟨hfight, -⟩ | ⟨hpaused, -⟩
  · obtain ⟨b, hb⟩ := LedAnimation.eq_fighting hfight
    rw [timeLeft_fighting hb] at hleft
    rw [hb]
    exact hleft
  · obtain ⟨b, hb⟩ := LedAnimation.eq_pausedAnim hpaused
    obtain ⟨d, hd⟩ := paused_measured hpaused
    rw [timeLeft_paused hpaused, hd] at hleft
    rw [hb, hd]
    exact fits_measured hS hleft

/-- While there is a timer to show, the seconds left do not grow. -/
theorem ceil_timeLeft_le {r : Run} {m n : ℕ} (hmn : m ≤ n) (hon : r.OneMatch m n) (hm : r.Timed m) (hn : r.Timed n) :
    ⌈r.timeLeft n⌉ ≤ ⌈r.timeLeft m⌉ := by
  obtain ⟨S, hS⟩ := Int.eq_ofNat_of_zero_le (Int.ceil_nonneg hm.nonneg)
  have hmatch := hm.ceil_le_match
  have hleft : r.timeLeft m ≤ S := by
    have hceil := Int.le_ceil (r.timeLeft m)
    rw [hS] at hceil
    exact_mod_cast hceil
  have hstage : ∀ j, m + 1 ≤ j → j < n + 1 → r.phase j = .PreStaging → Fits S 120 := by
    intro j hj hjn hpre
    obtain ⟨i, rfl⟩ : ∃ i, j = i + 1 := ⟨j - 1, by omega⟩
    exact absurd hpre (hon i (by omega) (by omega)).1
  have hbound := within_run (by omega) (Nat.succ_le_succ hmn) (r.moment_display m) (r.moment_display n)
    (r.displayTime_mono hmn) hstage (hm.within (by omega) hleft)
  rw [hS]
  exact Int.ceil_le.mpr (by exact_mod_cast hn.le_of_within hbound)

/-- **The timer shown.** An iteration that ends in a fight or in a pause with time
left shows the time left in whole seconds, and nothing unassigned, exactly if it
is not the one that pauses the fight; and the seconds shown by the others never
grow in the course of a match. -/
theorem timer_shown (r : Run) :
    (∀ n, (r.Timed n → r.ShowsTimer n) ↔ ¬ PausesInTime (r.input n) (r.state n).state) ∧
      ∀ m n, m ≤ n → r.OneMatch m n → r.Timed m → r.Timed n →
        ¬ PausesInTime (r.input m) (r.state m).state → ¬ PausesInTime (r.input n) (r.state n).state →
        ∀ z z', Spells (r.shown m) z → Spells (r.shown n) z' → z' ≤ z := by
  refine ⟨r.showsTimer_iff, fun m n hmn hon hm hn hgood hgood' z z' hz hz' => ?_⟩
  have hshows := (r.showsTimer_iff m).mpr hgood hm
  have hshows' := (r.showsTimer_iff n).mpr hgood' hn
  rw [hz.unique hshows.1, hz'.unique hshows'.1]
  exact ceil_timeLeft_le hmn hon hm hn

end Law

section Float

attribute [local instance] Arithmetic.single

/-- With `float`s the fight opens at 2:01, and its pause goes on at 1:56. -/
theorem timer_shown_interrupted :
    Spells (interrupted.shown 6) 121 ∧ Spells (interrupted.shown 8) 116 ∧
      ∀ z z', Spells (interrupted.shown 6) z → Spells (interrupted.shown 8) z' → z' ≤ z := by
  have hlaw := timer_shown interrupted
  have hfights : interrupted.Timed 6 := by
    left
    constructor <;> decide +kernel
  have hpaused : interrupted.Timed 8 := by
    right
    constructor <;> decide +kernel
  have hgood : ∀ n, n = 6 ∨ n = 8 → ¬ PausesInTime (interrupted.input n) (interrupted.state n).state := by
    intro n hn hpause
    obtain ⟨⟨hphase, -⟩, -⟩ := (pausesInTime_iff interrupted n).mp hpause
    rcases hn with rfl | rfl
    · exact absurd hphase (by decide +kernel)
    · exact absurd hphase (by decide +kernel)
  have hon : interrupted.OneMatch 6 8 := by
    intro j hj hj'
    have hrun : ∀ j ≤ 8, 6 ≤ j → interrupted.phase (j + 1) ≠ .PreStaging ∧
        interrupted.phase (j + 1) ≠ .End := by decide +kernel
    exact hrun j hj' hj
  have hopens := ((hlaw.1 6).mpr (hgood 6 (.inl rfl)) hfights).1
  have hgoes := ((hlaw.1 8).mpr (hgood 8 (.inr rfl)) hpaused).1
  rw [show ⌈interrupted.timeLeft 6⌉ = 121 by decide +kernel] at hopens
  rw [show ⌈interrupted.timeLeft 8⌉ = 116 by decide +kernel] at hgoes
  exact ⟨hopens, hgoes,
    hlaw.2 6 8 (by decide) hon hfights hpaused (hgood 6 (.inl rfl)) (hgood 8 (.inr rfl))⟩

/-- The iteration that pauses the match with 116 seconds left shows 0:00, the
content of the memory. -/
theorem interrupted_pause_shown :
    interrupted.phase 7 = .Fighting ∧ interrupted.phase 8 = .Paused ∧ interrupted.timeLeft 7 = 116 ∧
      (interrupted.shown 7).segments = #v[48, 48, 48, 32] ∧
      ¬ Spells (interrupted.shown 7) 116 ∧ ¬ (interrupted.Timed 7 → interrupted.ShowsTimer 7) := by
  have hfights : interrupted.phase 7 = .Fighting := by decide +kernel
  have hpaused : interrupted.phase 8 = .Paused := by decide +kernel
  have hleft : interrupted.timeLeft 7 = 116 := by decide +kernel
  have hshown : interrupted.shown 7 = timerSegments 0 := (shown_pausing ⟨hfights, rfl⟩).2
  refine ⟨hfights, hpaused, hleft, by rw [hshown]; decide, fun h => ?_, fun h => ?_⟩
  · rw [hshown] at h
    exact absurd (h.unique (timerSegments_spells (le_refl 0) (by decide))) (by decide)
  · have hnonneg : 0 ≤ interrupted.timeLeft 7 := by rw [hleft]; norm_num
    have hind := (h (.inr ⟨hpaused, hnonneg⟩)).2
    exact not_independent_of_pauses ⟨hfights, rfl⟩ hind

end Float

end Run

end Botgeddon.Arena
