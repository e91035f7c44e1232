import Botgeddon.Arena.Loop

/-! The transition diagram of the match, read off the seven `Tick`s.

`Transition it a q b p k` says that an iteration with inputs `it` takes the
machine from the object `a`, with `q` seconds of match time on record, to `b`
and `p`, in `k` readings of the clock. Every iteration is one of these transitions (`step_transition`), so the
laws of a run are proved by cases on the diagram and never by unfolding a
`Tick`. Where one `Tick` calls `ChangeState` twice, the transition is the one
the last call makes. -/
namespace Botgeddon.Arena
open Conversions Visits

/-- How many clock readings `Fighting::Tick` has behind it when it takes the one
it pauses at. -/
def pauseReads (it : Iteration) : ℕ := if it.redButton || it.blueButton then 1 else 0

/-- The reading a pause in this iteration is taken at. -/
def pauseReading (it : Iteration) : ℚ := it.now (pauseReads it)

variable [Arithmetic]

inductive Transition (it : Iteration) : LedAnimation → ℚ → LedAnimation → ℚ → ℕ → Prop where
  | awaitReferee (a : PreStagingAnim) (q : ℚ)
      (waits : seconds (it.now 1 - (a.latch (it.now 0) it.refButton).startingTime) ≤ 3 / 2) :
      Transition it (.preStagingAnim a) q (.preStagingAnim (a.latch (it.now 0) it.refButton)) q 2
  | stage (a : PreStagingAnim) (q : ℚ)
      (pressed : 3 / 2 < seconds (it.now 1 - (a.latch (it.now 0) it.refButton).startingTime)) :
      Transition it (.preStagingAnim a) q
        (.stagingAnim ⟨it.now 2, timePointMax, timePointMax⟩) 120 3
  | awaitTeams (a : StagingAnim) (q : ℚ)
      (waits : ¬ (7 / 2 < seconds (it.now 1 - (a.latch (it.now 0) it.redButton it.blueButton).redStart) ∧
        7 / 2 < seconds (it.now 2 - (a.latch (it.now 0) it.redButton it.blueButton).blueStart))) :
      Transition it (.stagingAnim a) q
        (.stagingAnim (a.latch (it.now 0) it.redButton it.blueButton)) q 3
  | dim (a : StagingAnim) (q : ℚ)
      (red : 7 / 2 < seconds (it.now 1 - (a.latch (it.now 0) it.redButton it.blueButton).redStart))
      (blue : 7 / 2 < seconds (it.now 2 - (a.latch (it.now 0) it.redButton it.blueButton).blueStart)) :
      Transition it (.stagingAnim a) q (.preCountdownAnimation ⟨it.now 3⟩) q 4
  | animate (a : PreCountdownAnimation) (q : ℚ) (early : seconds (it.now 0 - a.start) ≤ 7) :
      Transition it (.preCountdownAnimation a) q (.preCountdownAnimation a) q 1
  | countDown (a : PreCountdownAnimation) (q : ℚ) (elapsed : 7 < seconds (it.now 0 - a.start)) :
      Transition it (.preCountdownAnimation a) q (.xmasTree ⟨it.now 1⟩) q 2
  | count (a : XmasTree) (q : ℚ) (early : seconds (it.now 0 - a.start) ≤ 3) :
      Transition it (.xmasTree a) q (.xmasTree a) q 1
  | start (a : XmasTree) (q : ℚ) (elapsed : 3 < seconds (it.now 0 - a.start)) :
      Transition it (.xmasTree a) q
        (.fighting ⟨it.now 1, it.now 1 + truncate (thousandfold q) / 1000⟩) q 2
  | fight (a : Fighting) (q : ℚ) (red : it.redButton = false) (blue : it.blueButton = false)
      (referee : it.refButton = false) : Transition it (.fighting a) q (.fighting a) q 0
  | tapOut (a : Fighting) (q : ℚ) (tapped : it.redButton = true ∨ it.blueButton = true)
      (referee : it.refButton = false) : Transition it (.fighting a) q (.endAnim ⟨it.now 0⟩) q 1
  | pause (a : Fighting) (q : ℚ) (referee : it.refButton = true) :
      Transition it (.fighting a) q
        (.pausedAnim ⟨it.now (pauseReads it + 1), false, it.remTime⟩)
        (seconds (a.endTime - pauseReading it)) (pauseReads it + 2)
  | hold (a : PausedAnim) (q : ℚ)
      (held : it.refButton = true → a.releasedPause = false)
      (kept : it.resetButton = true → it.refButton = true ∧ a.releasedPause = false) :
      Transition it (.pausedAnim a) q
        (.pausedAnim ⟨a.start, if it.refButton then a.releasedPause else true, ⌈q⌉⟩) q 0
  | resume (a : PausedAnim) (q : ℚ) (referee : it.refButton = true)
      (released : a.releasedPause = true) (kept : it.resetButton = false) :
      Transition it (.pausedAnim a) q (.xmasTree ⟨it.now 0⟩) q 1
  | abandon (a : PausedAnim) (q : ℚ) (reset : it.resetButton = true)
      (released : it.refButton = true → a.releasedPause = true) :
      Transition it (.pausedAnim a) q
        (.preStagingAnim ⟨it.now (if it.refButton then 1 else 0), timePointMax⟩) q
        (if it.refButton then 2 else 1)
  | rest (a : End) (q : ℚ) (kept : it.resetButton = false) :
      Transition it (.endAnim a) q (.endAnim a) q 0
  | restart (a : End) (q : ℚ) (reset : it.resetButton = true) :
      Transition it (.endAnim a) q (.preStagingAnim ⟨it.now 0, timePointMax⟩) q 1

/-! ### Every iteration is a transition -/

/-- What an iteration does from the object `a` is a transition. -/
def Steps (it : Iteration) (w : WorldState) (a : LedAnimation) : Prop :=
  Transition it a w.timeRemaining (Loop.step it ⟨w, a⟩).state
    (Loop.step it ⟨w, a⟩).world.timeRemaining (Loop.tick it ⟨w, a⟩).reads

theorem preStaging_steps (it : Iteration) (w : WorldState) (a : PreStagingAnim) :
    Steps it w (.preStagingAnim a) := by
  simp only [Steps, Loop.step, Loop.tick, LedAnimation.tick, PreStagingAnim.tick, Ticking.now,
    Ticking.read, Ticking.member, Ticking.viaState, Ticking.changeState, Ticking.setTimeRemaining,
    WorldState.press, PreStagingAnim.fadeOutStart, getAnimation]
  split
  case isTrue h => exact .stage a _ h
  case isFalse h => exact .awaitReferee a _ (not_lt.mp h)

theorem staging_steps (it : Iteration) (w : WorldState) (a : StagingAnim) :
    Steps it w (.stagingAnim a) := by
  simp only [Steps, Loop.step, Loop.tick, LedAnimation.tick, StagingAnim.tick, Ticking.now,
    Ticking.read, Ticking.member, Ticking.viaState, Ticking.changeState, WorldState.press,
    StagingAnim.totalAnimFromLastButton, getAnimation]
  split
  case isTrue h => exact .dim a _ h.1 h.2
  case isFalse h => exact .awaitTeams a _ h

theorem preCountdown_steps (it : Iteration) (w : WorldState) (a : PreCountdownAnimation) :
    Steps it w (.preCountdownAnimation a) := by
  simp only [Steps, Loop.step, Loop.tick, LedAnimation.tick, PreCountdownAnimation.tick, Ticking.now,
    Ticking.read, Ticking.member, Ticking.viaState, Ticking.changeState, WorldState.press,
    PreCountdownAnimation.animEnd, getAnimation]
  split
  case isTrue h => exact .countDown a _ h
  case isFalse h => exact .animate a _ (not_lt.mp h)

theorem countdown_steps (it : Iteration) (w : WorldState) (a : XmasTree) :
    Steps it w (.xmasTree a) := by
  simp only [Steps, Loop.step, Loop.tick, LedAnimation.tick, XmasTree.tick, Ticking.now,
    Ticking.read, Ticking.member, Ticking.viaState, Ticking.changeState, WorldState.press,
    getAnimation, Fighting.new]
  split
  case isTrue h => exact .start a _ h
  case isFalse h => exact .count a _ (not_lt.mp h)

theorem fighting_steps (it : Iteration) (w : WorldState) (a : Fighting) :
    Steps it w (.fighting a) := by
  simp only [Steps, Loop.step, Loop.tick, LedAnimation.tick, Fighting.tick, Ticking.now,
    Ticking.read, Ticking.member, Ticking.viaState, Ticking.changeState, Ticking.setTimeRemaining,
    WorldState.press, getAnimation]
  by_cases href : it.refButton = true
  · have hpause := @Transition.pause _ it a w.timeRemaining href
    by_cases htap : (it.redButton || it.blueButton) = true <;>
      simpa [href, htap, pauseReading, pauseReads] using hpause
  · simp only [Bool.not_eq_true] at href
    by_cases htap : (it.redButton || it.blueButton) = true
    · simpa [href, htap] using Transition.tapOut a w.timeRemaining (by simpa using htap) href
    · have hquiet : it.redButton = false ∧ it.blueButton = false := by simpa using htap
      simpa [href, htap] using Transition.fight a w.timeRemaining hquiet.1 hquiet.2 href

theorem paused_steps (it : Iteration) (w : WorldState) (a : PausedAnim) :
    Steps it w (.pausedAnim a) := by
  simp only [Steps, Loop.step, Loop.tick, LedAnimation.tick, PausedAnim.tick, PausedAnim.update,
    Ticking.now, Ticking.member, Ticking.viaState, Ticking.changeState, WorldState.press,
    getAnimation, truncate_intCast]
  by_cases href : it.refButton = true
  · by_cases hrel : a.releasedPause = true
    · by_cases hres : it.resetButton = true
      · simpa [href, hres, hrel] using @Transition.abandon _ it a w.timeRemaining hres fun _ => hrel
      · simp only [Bool.not_eq_true] at hres
        simpa [href, hres, hrel] using Transition.resume a w.timeRemaining href hrel hres
    · simp only [Bool.not_eq_true] at hrel
      have hhold := Transition.hold a w.timeRemaining (fun _ => hrel) fun _ => ⟨href, hrel⟩
      simpa [href, hrel] using hhold
  · have hoff : it.refButton = false := by simpa using href
    by_cases hres : it.resetButton = true
    · have habandon := @Transition.abandon _ it a w.timeRemaining hres fun h => absurd h href
      simpa [hoff, hres] using habandon
    · have hhold := @Transition.hold _ it a w.timeRemaining (fun h => absurd h href) fun h => absurd h hres
      simp only [Bool.not_eq_true] at hres
      simpa [hoff, hres] using hhold

theorem end_steps (it : Iteration) (w : WorldState) (a : End) : Steps it w (.endAnim a) := by
  simp only [Steps, Loop.step, Loop.tick, LedAnimation.tick, End.tick, Ticking.now, Ticking.member,
    Ticking.viaState, Ticking.changeState, WorldState.press, getAnimation]
  split
  case isTrue h => exact .restart a _ h
  case isFalse h => exact .rest a _ (by simpa using h)

theorem step_transition (it : Iteration) (s : Loop) :
    Transition it s.state s.world.timeRemaining (s.step it).state
      (s.step it).world.timeRemaining (s.tick it).reads := by
  obtain ⟨w, a⟩ := s
  cases a with
  | preStagingAnim a => exact preStaging_steps it w a
  | stagingAnim a => exact staging_steps it w a
  | preCountdownAnimation a => exact preCountdown_steps it w a
  | xmasTree a => exact countdown_steps it w a
  | fighting a => exact fighting_steps it w a
  | pausedAnim a => exact paused_steps it w a
  | endAnim a => exact end_steps it w a

/-- What an iteration does, with the objects and times it does it to named. -/
theorem Loop.observe (it : Iteration) (s : Loop) :
    ∃ a q b p k, s.state = a ∧ s.world.timeRemaining = q ∧ (s.step it).state = b ∧
      (s.step it).world.timeRemaining = p ∧ (s.tick it).reads = k ∧ Transition it a q b p k :=
  ⟨_, _, _, _, _, rfl, rfl, rfl, rfl, rfl, step_transition it s⟩

/-- Only a change of state builds an object. -/
theorem Transition.start_eq {it : Iteration} {a b : LedAnimation} {q p : ℚ} {k : ℕ}
    (h : Transition it a q b p k) (hkind : b.arenaState = a.arenaState) : b.start = a.start := by
  cases h with
  | awaitReferee a q waits =>
    simp only [LedAnimation.start, PreStagingAnim.latch]
    split <;> rfl
  | awaitTeams a q waits =>
    simp only [LedAnimation.start, StagingAnim.latch]
    split <;> split <;> rfl
  | animate | count | fight | hold | rest => rfl
  | _ => cases hkind

/-- An object built in an iteration starts at a clock reading its `Tick` took. -/
theorem Transition.start_reading {it : Iteration} {a b : LedAnimation} {q p : ℚ} {k : ℕ}
    (h : Transition it a q b p k) (hkind : b.arenaState ≠ a.arenaState) :
    ∃ j, j < k ∧ b.start = it.now j := by
  cases h with
  | awaitReferee | awaitTeams | animate | count | fight | hold | rest => exact absurd rfl hkind
  | pause | restart => exact ⟨_, by omega, rfl⟩
  | abandon => exact ⟨_, by split <;> omega, rfl⟩
  | _ => exact ⟨_, by decide, rfl⟩

namespace Run

/-- The match time on record before iteration `n`. -/
def timeRemaining (r : Run) (n : ℕ) : ℚ := (r.state n).world.timeRemaining

/-- How many clock readings the `Tick` of iteration `n` takes. -/
def reads (r : Run) (n : ℕ) : ℕ := ((r.state n).tick (r.input n)).reads

/-- An iteration shows the object its `Tick` leaves behind. -/
theorem shown_eq (r : Run) (n : ℕ) :
    r.shown n = (r.state (n + 1)).state.getSegmentLed fun j => (r.input n).now (r.reads n + j) := rfl

theorem observe (r : Run) (n : ℕ) :
    ∃ a q b p k, (r.state n).state = a ∧ r.timeRemaining n = q ∧ (r.state (n + 1)).state = b ∧
      r.timeRemaining (n + 1) = p ∧ r.reads n = k ∧ Transition (r.input n) a q b p k :=
  Loop.observe (r.input n) (r.state n)

/-- What the iteration that enters state `s` does. -/
theorem observe_entry {r : Run} {n : ℕ} {s : ArenaState} (h : Enters r.phase n s) :
    ∃ a q b p k, (r.state n).state = a ∧ (r.state (n + 1)).state = b ∧ r.timeRemaining n = q ∧
      r.timeRemaining (n + 1) = p ∧ a.arenaState ≠ s ∧ b.arenaState = s ∧
      Transition (r.input n) a q b p k :=
  ⟨_, _, _, _, _, rfl, rfl, rfl, rfl, h.1, h.2, step_transition (r.input n) (r.state n)⟩

/-- Iteration `n` pauses a fight. -/
def Pauses (r : Run) (n : ℕ) : Prop := r.phase n = .Fighting ∧ (r.input n).refButton = true

/-- What such an iteration does. -/
theorem observe_pauses {r : Run} {n : ℕ} (h : r.Pauses n) :
    ∃ a, (r.state n).state = .fighting a ∧
      (r.state (n + 1)).state = .pausedAnim
        ⟨(r.input n).now (pauseReads (r.input n) + 1), false, (r.input n).remTime⟩ ∧
      r.timeRemaining (n + 1) = seconds (a.endTime - pauseReading (r.input n)) := by
  obtain ⟨hphase, href⟩ := h
  obtain ⟨f, hf⟩ := LedAnimation.eq_fighting hphase
  obtain ⟨a, q, b, p, k, ha, -, hb, hp, -, ht⟩ := r.observe n
  rw [ha] at hf
  subst hf
  cases ht with
  | pause a q referee => exact ⟨f, ha, hb, hp⟩
  | fight a q red blue referee =>
    rw [referee] at href
    cases href
  | tapOut a q tapped referee =>
    rw [referee] at href
    cases href

/-- What an iteration of a pause that goes on does. -/
theorem observe_paused {r : Run} {n : ℕ} (h : r.phase n = .Paused) (h' : r.phase (n + 1) = .Paused) :
    ∃ a, (r.state n).state = .pausedAnim a ∧
      (r.state (n + 1)).state = .pausedAnim
        ⟨a.start, if (r.input n).refButton then a.releasedPause else true, ⌈r.timeRemaining n⌉⟩ ∧
      r.timeRemaining (n + 1) = r.timeRemaining n := by
  obtain ⟨x, hx⟩ := LedAnimation.eq_pausedAnim h
  obtain ⟨a, q, b, p, k, ha, hq, hb, hp, -, ht⟩ := r.observe n
  have hto : b.arenaState = .Paused := by rw [← hb]; exact h'
  rw [ha] at hx
  subst hx
  rw [hq]
  cases ht with
  | hold a q held kept => exact ⟨x, ha, hb, hp⟩
  | _ => cases hto

/-- A pause that goes on shows the record, rounded up to whole seconds. -/
theorem shown_paused {r : Run} {n : ℕ} (h : r.phase n = .Paused) (h' : r.phase (n + 1) = .Paused) :
    r.shown n = timerSegments ⌈r.timeRemaining n⌉ := by
  obtain ⟨a, -, hb, -⟩ := observe_paused h h'
  rw [shown_eq, hb]
  rfl

/-- `Paused` is entered from a fight, by the referee. -/
theorem enters_paused_from {r : Run} {n : ℕ} (h : Enters r.phase n .Paused) : r.Pauses n := by
  obtain ⟨a, q, b, p, k, ha, -, -, -, hfrom, hto, ht⟩ := observe_entry h
  cases ht with
  | pause a q referee => exact ⟨congrArg LedAnimation.arenaState ha, referee⟩
  | hold => exact absurd rfl hfrom
  | _ => cases hto

/-- A fight is entered from a countdown. -/
theorem enters_fighting_from {r : Run} {n : ℕ} (h : Enters r.phase n .Fighting) :
    r.phase n = .Countdown := by
  obtain ⟨a, q, b, p, k, ha, -, -, -, hfrom, hto, ht⟩ := observe_entry h
  cases ht with
  | start => exact congrArg LedAnimation.arenaState ha
  | fight => exact absurd rfl hfrom
  | _ => cases hto

/-- What the first object satisfies and every transition preserves holds before
every iteration. -/
theorem invariant (r : Run) (P : ℕ → LedAnimation → ℚ → Prop)
    (first : P 0 (.preStagingAnim ⟨r.began, timePointMax⟩) 0)
    (next : ∀ n a q b p k, (r.state n).state = a → (r.state (n + 1)).state = b →
      Transition (r.input n) a q b p k → P n a q → P (n + 1) b p) (n : ℕ) :
    P n (r.state n).state (r.timeRemaining n) := by
  induction n with
  | zero => exact first
  | succ n ih => exact next n _ _ _ _ _ rfl rfl (step_transition (r.input n) (r.state n)) ih

/-- The object a visit is about is the one its entry built. -/
theorem entryTime_succ (r : Run) (n : ℕ) (h : r.phase (n + 1) = r.phase n) :
    r.entryTime (n + 1) = r.entryTime n :=
  (step_transition (r.input n) (r.state n)).start_eq h

/-- An object is built before its `Tick` is first called, and before the first
clock reading after the `Tick` that built it. -/
theorem entryTime_le (r : Run) (n : ℕ) :
    (∀ j, r.entryTime n ≤ (r.input n).now j) ∧
      r.entryTime (n + 1) ≤ (r.input n).now (r.reads n) := by
  have hnext : ∀ n, (∀ j, r.entryTime n ≤ (r.input n).now j) →
      r.entryTime (n + 1) ≤ (r.input n).now (r.reads n) := by
    intro n ih
    by_cases hsame : r.phase (n + 1) = r.phase n
    · rw [r.entryTime_succ n hsame]
      exact ih _
    · obtain ⟨j, hj, hread⟩ := (step_transition (r.input n) (r.state n)).start_reading hsame
      have hbuilt : r.entryTime (n + 1) = (r.input n).now j := hread
      rw [hbuilt]
      exact r.ordered n hj.le
  have hbefore : ∀ j, r.entryTime n ≤ (r.input n).now j := by
    induction n with
    | zero => exact r.after
    | succ n ih => exact fun j => (hnext n ih).trans (r.follows n _ j)
  exact ⟨hbefore, hnext n hbefore⟩

/-! ### Moments of a match -/

/-- A time the object owned before iteration `n` is in charge: after the `Tick`s
so far, with the reading each iteration goes on to take, and before iteration
`n` reads the clock. -/
structure Moment (r : Run) (n : ℕ) (t : ℚ) : Prop where
  began : r.began ≤ t
  after : ∀ m, m < n → (r.input m).now (r.reads m) ≤ t
  before : ∀ j, t ≤ (r.input n).now j

theorem moment_now (r : Run) (n : ℕ) : r.Moment n ((r.input n).now 0) where
  began := (r.after 0).trans (now_mono (Nat.zero_le n) (Nat.le_refl 0))
  after := fun _ hm => now_le hm _ _
  before := fun j => r.ordered n (Nat.zero_le j)

/-- The match is on: it has been staged, and neither ended nor been abandoned. -/
def Match (r : Run) (n : ℕ) : Prop := r.phase n ≠ .PreStaging ∧ r.phase n ≠ .End

end Run

end Botgeddon.Arena
