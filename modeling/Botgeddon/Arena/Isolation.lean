import Botgeddon.Arena.Scene

/-! No match leaves anything behind for the next.

`WorldState` outlives every reset, and `timeRemaining` with it; press times hold an
absolute value until the press happens. Neither shows: from the moment `PreStaging`
is entered, everything that is read was written since, and everything else is a
difference of two times. Two runs that are fed alike from there on are a fixed time
apart (`Alike`), object for object, and show the same. -/
namespace Botgeddon.Arena
open Conversions Visits
open LitRun (scene_loop)

/-! ### The same, `d` later -/

/-- A press `d` later, or none in either. -/
def PressShifted (d p p' : ℚ) : Prop :=
  (p = timePointMax ∧ p' = timePointMax) ∨ (p < timePointMax ∧ p' < timePointMax ∧ p' = p + d)

/-- The same object, `d` later. -/
inductive Shifted (d : ℚ) : LedAnimation → LedAnimation → Prop where
  | preStagingAnim (start : ℚ) {p p' : ℚ} (press : PressShifted d p p') :
      Shifted d (.preStagingAnim ⟨start, p⟩) (.preStagingAnim ⟨start + d, p'⟩)
  | stagingAnim (start : ℚ) {blue blue' red red' : ℚ} (pressBlue : PressShifted d blue blue')
      (pressRed : PressShifted d red red') :
      Shifted d (.stagingAnim ⟨start, blue, red⟩) (.stagingAnim ⟨start + d, blue', red'⟩)
  | preCountdownAnimation (start : ℚ) :
      Shifted d (.preCountdownAnimation ⟨start⟩) (.preCountdownAnimation ⟨start + d⟩)
  | xmasTree (start : ℚ) : Shifted d (.xmasTree ⟨start⟩) (.xmasTree ⟨start + d⟩)
  | fighting (start endTime : ℚ) :
      Shifted d (.fighting ⟨start, endTime⟩) (.fighting ⟨start + d, endTime + d⟩)
  | pausedAnim (start : ℚ) (releasedPause : Bool) (remTime : ℤ) :
      Shifted d (.pausedAnim ⟨start, releasedPause, remTime⟩) (.pausedAnim ⟨start + d, releasedPause, remTime⟩)
  | endAnim (start : ℚ) : Shifted d (.endAnim ⟨start⟩) (.endAnim ⟨start + d⟩)

theorem Shifted.arenaState {d : ℚ} {a a' : LedAnimation} (h : Shifted d a a') : a'.arenaState = a.arenaState := by
  cases h <;> rfl

/-- The same inputs, `d` later, and before the end of time. -/
structure Later (d : ℚ) (it it' : Iteration) : Prop where
  redButton : it'.redButton = it.redButton
  blueButton : it'.blueButton = it.blueButton
  refButton : it'.refButton = it.refButton
  resetButton : it'.resetButton = it.resetButton
  remTime : it'.remTime = it.remTime
  now : ∀ j, it'.now j = it.now j + d
  before : ∀ j, it.now j < timePointMax
  before' : ∀ j, it'.now j < timePointMax

/-! ### Press times -/

section Press
variable {d p p' now now' : ℚ}

/-- A press is latched in both or in neither. -/
theorem PressShifted.latch (h : PressShifted d p p') (hnow : now' = now + d) (hlt : now < timePointMax)
    (hlt' : now' < timePointMax) (button : Bool) :
    PressShifted d (if now < p ∧ button = true then now else p) (if now' < p' ∧ button = true then now' else p') := by
  rcases h with ⟨rfl, rfl⟩ | ⟨hp, hp', rfl⟩
  · simp only [hlt, hlt', true_and]
    split
    · exact .inr ⟨hlt, hlt', hnow⟩
    · exact .inl ⟨rfl, rfl⟩
  · have hiff : now' < p + d ↔ now < p := by rw [hnow, add_lt_add_iff_right]
    simp only [hiff]
    split
    · exact .inr ⟨hlt, hlt', hnow⟩
    · exact .inr ⟨hp, hp', rfl⟩

/-- The time since a press is the same, and negative where there was none. -/
theorem PressShifted.duration (h : PressShifted d p p') (hnow : now' = now + d) (hlt : now < timePointMax)
    (hlt' : now' < timePointMax) : now' - p' = now - p ∨ (now' - p' < 0 ∧ now - p < 0) := by
  rcases h with ⟨rfl, rfl⟩ | ⟨-, -, rfl⟩
  · exact .inr ⟨sub_neg.mpr hlt', sub_neg.mpr hlt⟩
  · refine .inl ?_
    rw [hnow]
    ring

theorem PressShifted.elapsed (h : PressShifted d p p') (hnow : now' = now + d) (hlt : now < timePointMax)
    (hlt' : now' < timePointMax) {c : ℚ} (hc : 0 ≤ c) : c < now' - p' ↔ c < now - p := by
  rcases h.duration hnow hlt hlt' with hsame | ⟨hneg', hneg⟩
  · rw [hsame]
  · exact iff_of_false (not_lt.mpr (hneg'.le.trans hc)) (not_lt.mpr (hneg.le.trans hc))

end Press

/-! ### Every transition, `d` later -/

theorem Later.pauseReading {d : ℚ} {it it' : Iteration} (h : Later d it it') :
    pauseReads it' = pauseReads it ∧ Arena.pauseReading it' = Arena.pauseReading it + d := by
  have hreads : pauseReads it' = pauseReads it := by rw [pauseReads, pauseReads, h.redButton, h.blueButton]
  exact ⟨hreads, by rw [Arena.pauseReading, Arena.pauseReading, hreads, h.now]⟩

theorem Later.preStaging {d : ℚ} {it it' : Iteration} (h : Later d it it') {start p p' : ℚ}
    (hp : PressShifted d p p') :
    ∃ r r', PressShifted d r r' ∧ (PreStagingAnim.mk start p).latch (it.now 0) it.refButton = ⟨start, r⟩ ∧
      (PreStagingAnim.mk (start + d) p').latch (it'.now 0) it'.refButton = ⟨start + d, r'⟩ := by
  have hlatch := hp.latch (h.now 0) (h.before 0) (h.before' 0) it.refButton
  exact ⟨_, _, hlatch, latch_preStaging _ _ _, by rw [latch_preStaging, h.refButton]⟩

theorem Later.staging {d : ℚ} {it it' : Iteration} (h : Later d it it') {start blue blue' red red' : ℚ}
    (hblue : PressShifted d blue blue') (hred : PressShifted d red red') :
    ∃ b b' r r', PressShifted d b b' ∧ PressShifted d r r' ∧
      (StagingAnim.mk start blue red).latch (it.now 0) it.redButton it.blueButton = ⟨start, b, r⟩ ∧
      (StagingAnim.mk (start + d) blue' red').latch (it'.now 0) it'.redButton it'.blueButton =
        ⟨start + d, b', r'⟩ := by
  have hlatchBlue := hblue.latch (h.now 0) (h.before 0) (h.before' 0) it.blueButton
  have hlatchRed := hred.latch (h.now 0) (h.before 0) (h.before' 0) it.redButton
  exact ⟨_, _, _, _, hlatchBlue, hlatchRed, latch_staging _ _ _ _,
    by rw [latch_staging, h.redButton, h.blueButton]⟩

section Classes
variable {d : ℚ} {it it' : Iteration} {b : LedAnimation} {q p : ℚ} {k : ℕ}

/-- The time since an object was built is the same. -/
theorem Later.since (h : Later d it it') (j : ℕ) (start : ℚ) : it'.now j - (start + d) = it.now j - start := by
  rw [h.now]
  ring

theorem pressShifted_none (d : ℚ) : PressShifted d timePointMax timePointMax := .inl ⟨rfl, rfl⟩

/-- A `PreStaging` does not look at the time on record, and `Staging` overwrites it. -/
theorem preStaging_later (hit : Later d it it') {start p₀ p₀' : ℚ} (press : PressShifted d p₀ p₀') (q' : ℚ)
    (h : Transition it (.preStagingAnim ⟨start, p₀⟩) q b p k) :
    ∃ b' p', Transition it' (.preStagingAnim ⟨start + d, p₀'⟩) q' b' p' k ∧ Shifted d b b' ∧
      (b.arenaState ≠ .PreStaging → p' = p) ∧ (q' = q → p' = p) := by
  obtain ⟨r, r', hr, hlatch, hlatch'⟩ := @Later.preStaging _ _ _ hit start _ _ press
  have helapsed := hr.elapsed (hit.now 1) (hit.before 1) (hit.before' 1) (show (0 : ℚ) ≤ 3 / 2 by norm_num)
  cases h with
  | awaitReferee a q waits =>
    rw [hlatch] at waits ⊢
    have hnext := @Transition.awaitReferee _ it' ⟨start + d, p₀'⟩ q'
      (by rw [hlatch']; exact not_lt.mp fun hlt => not_lt.mpr waits (helapsed.mp hlt))
    rw [hlatch'] at hnext
    exact ⟨_, _, hnext, .preStagingAnim start hr, fun hne => absurd rfl hne, id⟩
  | stage a q pressed =>
    rw [hlatch] at pressed
    have hnext := @Transition.stage _ it' ⟨start + d, p₀'⟩ q' (by rw [hlatch']; exact helapsed.mpr pressed)
    rw [hit.now 2] at hnext
    exact ⟨_, _, hnext, .stagingAnim _ (pressShifted_none d) (pressShifted_none d), fun _ => rfl, fun _ => rfl⟩

theorem staging_later (hit : Later d it it') {start blue blue' red red' : ℚ} (pressBlue : PressShifted d blue blue')
    (pressRed : PressShifted d red red') (h : Transition it (.stagingAnim ⟨start, blue, red⟩) q b p k) :
    ∃ b', Transition it' (.stagingAnim ⟨start + d, blue', red'⟩) q b' p k ∧ Shifted d b b' := by
  obtain ⟨l, l', r, r', hl, hr, hlatch, hlatch'⟩ := @Later.staging _ _ _ hit start _ _ _ _ pressBlue pressRed
  have hred := hr.elapsed (hit.now 1) (hit.before 1) (hit.before' 1) (show (0 : ℚ) ≤ 7 / 2 by norm_num)
  have hblue := hl.elapsed (hit.now 2) (hit.before 2) (hit.before' 2) (show (0 : ℚ) ≤ 7 / 2 by norm_num)
  cases h with
  | awaitTeams a q waits =>
    rw [hlatch] at waits ⊢
    have hnext := @Transition.awaitTeams _ it' ⟨start + d, blue', red'⟩ q
      (by rw [hlatch']; exact fun hboth => waits ⟨hred.mp hboth.1, hblue.mp hboth.2⟩)
    rw [hlatch'] at hnext
    exact ⟨_, hnext, .stagingAnim start hl hr⟩
  | dim a q redElapsed blueElapsed =>
    rw [hlatch] at redElapsed blueElapsed
    have hnext := @Transition.dim _ it' ⟨start + d, blue', red'⟩ q
      (by rw [hlatch']; exact hred.mpr redElapsed) (by rw [hlatch']; exact hblue.mpr blueElapsed)
    rw [hit.now 3] at hnext
    exact ⟨_, hnext, .preCountdownAnimation _⟩

theorem preCountdown_later (hit : Later d it it') {start : ℚ}
    (h : Transition it (.preCountdownAnimation ⟨start⟩) q b p k) :
    ∃ b', Transition it' (.preCountdownAnimation ⟨start + d⟩) q b' p k ∧ Shifted d b b' := by
  cases h with
  | animate a q early =>
    exact ⟨_, .animate _ q (by rw [hit.since]; exact early), .preCountdownAnimation start⟩
  | countDown a q elapsed =>
    have hnext := @Transition.countDown _ it' ⟨start + d⟩ q (by rw [hit.since]; exact elapsed)
    rw [hit.now 1] at hnext
    exact ⟨_, hnext, .xmasTree _⟩

theorem countdown_later (hit : Later d it it') {start : ℚ} (h : Transition it (.xmasTree ⟨start⟩) q b p k) :
    ∃ b', Transition it' (.xmasTree ⟨start + d⟩) q b' p k ∧ Shifted d b b' := by
  cases h with
  | count a q early => exact ⟨_, .count _ q (by rw [hit.since]; exact early), .xmasTree start⟩
  | start a q elapsed =>
    have hnext := @Transition.start _ it' ⟨start + d⟩ q (by rw [hit.since]; exact elapsed)
    rw [hit.now 1, add_right_comm] at hnext
    exact ⟨_, hnext, .fighting _ _⟩

/-- What a pause puts on record is a difference of two times. -/
theorem fighting_later (hit : Later d it it') {start endTime : ℚ}
    (h : Transition it (.fighting ⟨start, endTime⟩) q b p k) :
    ∃ b', Transition it' (.fighting ⟨start + d, endTime + d⟩) q b' p k ∧ Shifted d b b' := by
  cases h with
  | fight a q red blue referee =>
    exact ⟨_, .fight _ q (hit.redButton.trans red) (hit.blueButton.trans blue) (hit.refButton.trans referee),
      .fighting start endTime⟩
  | tapOut a q tapped referee =>
    have hnext := @Transition.tapOut _ it' ⟨start + d, endTime + d⟩ q
      (by rw [hit.redButton, hit.blueButton]; exact tapped) (hit.refButton.trans referee)
    rw [hit.now 0] at hnext
    exact ⟨_, hnext, .endAnim _⟩
  | pause a q referee =>
    have hnext := @Transition.pause _ it' ⟨start + d, endTime + d⟩ q (hit.refButton.trans referee)
    rw [hit.pauseReading.1, hit.pauseReading.2, hit.now, hit.remTime, add_sub_add_right_eq_sub] at hnext
    exact ⟨_, hnext, .pausedAnim _ _ _⟩

theorem paused_later (hit : Later d it it') {start : ℚ} {releasedPause : Bool} {remTime : ℤ}
    (h : Transition it (.pausedAnim ⟨start, releasedPause, remTime⟩) q b p k) :
    ∃ b', Transition it' (.pausedAnim ⟨start + d, releasedPause, remTime⟩) q b' p k ∧ Shifted d b b' := by
  cases h with
  | hold a q held kept =>
    have hnext := @Transition.hold _ it' ⟨start + d, releasedPause, remTime⟩ q
      (by rw [hit.refButton]; exact held) (by rw [hit.resetButton, hit.refButton]; exact kept)
    rw [hit.refButton] at hnext
    exact ⟨_, hnext, .pausedAnim _ _ _⟩
  | resume a q referee released kept =>
    have hnext := @Transition.resume _ it' ⟨start + d, releasedPause, remTime⟩ q
      (hit.refButton.trans referee) released (hit.resetButton.trans kept)
    rw [hit.now 0] at hnext
    exact ⟨_, hnext, .xmasTree _⟩
  | abandon a q reset released =>
    have hnext := @Transition.abandon _ it' ⟨start + d, releasedPause, remTime⟩ q
      (hit.resetButton.trans reset) (by rw [hit.refButton]; exact released)
    rw [hit.refButton, hit.now] at hnext
    exact ⟨_, hnext, .preStagingAnim _ (pressShifted_none d)⟩

theorem end_later (hit : Later d it it') {start : ℚ} (h : Transition it (.endAnim ⟨start⟩) q b p k) :
    ∃ b', Transition it' (.endAnim ⟨start + d⟩) q b' p k ∧ Shifted d b b' := by
  cases h with
  | rest a q kept => exact ⟨_, .rest _ q (hit.resetButton.trans kept), .endAnim start⟩
  | restart a q reset =>
    have hnext := @Transition.restart _ it' ⟨start + d⟩ q (hit.resetButton.trans reset)
    rw [hit.now 0] at hnext
    exact ⟨_, hnext, .preStagingAnim _ (pressShifted_none d)⟩

/-- The transition from the same object `d` later leads to the same object `d` later.
Only a `PreStaging` may have another time on record. -/
theorem Transition.later (hit : Later d it it') {a a' : LedAnimation} {q' : ℚ} (h : Transition it a q b p k)
    (ha : Shifted d a a') (hq : a.arenaState ≠ .PreStaging → q' = q) :
    ∃ b' p', Transition it' a' q' b' p' k ∧ Shifted d b b' ∧ (b.arenaState ≠ .PreStaging → p' = p) ∧
      (q' = q → p' = p) := by
  have hsame : a.arenaState ≠ .PreStaging → (∃ b', Transition it' a' q b' p k ∧ Shifted d b b') →
      ∃ b' p', Transition it' a' q' b' p' k ∧ Shifted d b b' ∧ (b.arenaState ≠ .PreStaging → p' = p) ∧
        (q' = q → p' = p) := by
    intro hne hnext
    obtain ⟨b', hb', hshifted⟩ := hnext
    rw [hq hne]
    exact ⟨b', p, hb', hshifted, fun _ => rfl, fun _ => rfl⟩
  cases ha with
  | preStagingAnim start press => exact preStaging_later hit press q' h
  | stagingAnim start pressBlue pressRed => exact hsame nofun (staging_later hit pressBlue pressRed h)
  | preCountdownAnimation start => exact hsame nofun (preCountdown_later hit h)
  | xmasTree start => exact hsame nofun (countdown_later hit h)
  | fighting start endTime => exact hsame nofun (fighting_later hit h)
  | pausedAnim start releasedPause remTime => exact hsame nofun (paused_later hit h)
  | endAnim start => exact hsame nofun (end_later hit h)

end Classes

/-! ### What is shown -/

section Shown
variable {d now now' : ℚ} {a a' : LedAnimation}

theorem Shifted.getButtonLeds (h : Shifted d a a') : a'.getButtonLeds = a.getButtonLeds := by
  have hunpressed : ∀ p p', PressShifted d p p' → (p' = timePointMax ↔ p = timePointMax) := by
    rintro p p' (⟨rfl, rfl⟩ | ⟨hp, hp', -⟩)
    · exact Iff.rfl
    · exact iff_of_false hp'.ne hp.ne
  cases h with
  | stagingAnim start pressBlue pressRed =>
    simp only [LedAnimation.getButtonLeds, hunpressed _ _ pressBlue, hunpressed _ _ pressRed]
  | _ => rfl

theorem Shifted.segmentReads (h : Shifted d a a') : a'.segmentReads = a.segmentReads := by
  cases h <;> rfl

theorem Shifted.getSegmentLed (h : Shifted d a a') {now now' : ℕ → ℚ} (hnow : ∀ j, now' j = now j + d) :
    a'.getSegmentLed now' = a.getSegmentLed now := by
  cases h with
  | xmasTree start =>
    have hcur : now' 0 - (start + d) = now 0 - start := by
      rw [hnow]
      ring
    simp only [LedAnimation.getSegmentLed, XmasTree.getSegmentLed, hcur]
  | fighting start endTime =>
    have hrem : endTime + d - now' 1 = endTime - now 1 := by
      rw [hnow]
      ring
    simp only [LedAnimation.getSegmentLed, Fighting.getSegmentLed, hrem]
  | _ => rfl

/-- A team's half glows alike. -/
theorem glow_later {time time' : ℚ} (h : time' = time ∨ (time' < 0 ∧ time < 0)) (maxValue : ℚ) :
    StagingAnim.glow time' maxValue = StagingAnim.glow time maxValue := by
  rcases h with rfl | ⟨hneg', hneg⟩
  · rfl
  · unfold StagingAnim.glow
    rw [if_neg (not_lt.mpr hneg'.le), if_neg (not_lt.mpr hneg.le)]

/-- While a team has not pressed, nothing dims. -/
theorem clamp_dim {minTime : ℚ} (h : minTime < 0) :
    clamp (1 - (minTime - StagingAnim.fadeOutStart) / StagingAnim.fadeOutDuration) 0 1 = 1 := by
  have hle : (1 : ℚ) ≤ 1 - (minTime - StagingAnim.fadeOutStart) / StagingAnim.fadeOutDuration := by
    unfold StagingAnim.fadeOutStart StagingAnim.fadeOutDuration
    linarith
  exact min_eq_left (hle.trans (le_max_left _ _))

theorem dim_later {red red' blue blue' : ℚ} (hred : red' = red ∨ (red' < 0 ∧ red < 0))
    (hblue : blue' = blue ∨ (blue' < 0 ∧ blue < 0)) :
    clamp (1 - (min red' blue' - StagingAnim.fadeOutStart) / StagingAnim.fadeOutDuration) 0 1 =
      clamp (1 - (min red blue - StagingAnim.fadeOutStart) / StagingAnim.fadeOutDuration) 0 1 := by
  rcases hred with rfl | ⟨hneg', hneg⟩
  · rcases hblue with rfl | ⟨hneg', hneg⟩
    · rfl
    · rw [clamp_dim ((min_le_right _ _).trans_lt hneg'), clamp_dim ((min_le_right _ _).trans_lt hneg)]
  · rw [clamp_dim ((min_le_left _ _).trans_lt hneg'), clamp_dim ((min_le_left _ _).trans_lt hneg)]

theorem Shifted.pixel (h : Shifted d a a') (hnow : now' = now + d) (hlt : now < timePointMax)
    (hlt' : now' < timePointMax) {lights lights' : Lights}
    (hlights : a.arenaState = .PreCountdown → lights' = lights) (i : ℕ) :
    a'.pixel lights' now' i = a.pixel lights now i := by
  have hsince : ∀ start, now' - (start + d) = now - start := fun start => by
    rw [hnow]
    ring
  cases h with
  | preStagingAnim start press =>
    simp only [LedAnimation.pixel, PreStagingAnim.pixel, hsince]
    rcases press.duration hnow hlt hlt' with hsame | ⟨hneg', hneg⟩
    · rw [hsame]
    · rw [if_neg (not_lt.mpr hneg'.le), if_neg (not_lt.mpr hneg.le)]
  | stagingAnim start pressBlue pressRed =>
    have hred := pressRed.duration hnow hlt hlt'
    have hblue := pressBlue.duration hnow hlt hlt'
    simp only [LedAnimation.pixel, StagingAnim.pixel, dim_later hred hblue, glow_later hred, glow_later hblue]
  | preCountdownAnimation start =>
    simp only [LedAnimation.pixel, PreCountdownAnimation.pixel, hsince, hlights rfl]
  | xmasTree start => simp only [LedAnimation.pixel, XmasTree.pixel, hsince]
  | fighting start endTime => simp only [LedAnimation.pixel, Fighting.pixel, hsince]
  | pausedAnim start releasedPause remTime => simp only [LedAnimation.pixel, PausedAnim.pixel, hsince]
  | endAnim start => simp only [LedAnimation.pixel, End.pixel, hsince]

theorem Shifted.getColors (h : Shifted d a a') (hnow : now' = now + d) (hlt : now < timePointMax)
    (hlt' : now' < timePointMax) {lights lights' : Lights}
    (hlights : a.arenaState = .PreCountdown → lights' = lights) :
    a'.getColors lights' now' = a.getColors lights now := by
  unfold LedAnimation.getColors
  congr 1
  funext i
  rw [h.pixel hnow hlt hlt' hlights]

/-- The lights move on alike. -/
theorem Shifted.light (h : Shifted d a a') (hnow : now' = now + d) (lights : Lights)
    (hkind : a.arenaState = .PreCountdown) : a'.light lights now' = a.light lights now := by
  cases h with
  | preCountdownAnimation start =>
    have hcur : now' - (start + d) = now - start := by
      rw [hnow]
      ring
    simp only [LedAnimation.light, hcur]
  | _ => cases hkind

end Shown

/-! ### An iteration -/

/-- Two scenes are `d` apart. What a `PreStaging` has on record and what no
`PreCountdownAnimation` lights may differ. -/
structure Alike (d : ℚ) (s s' : Scene) : Prop where
  state : Shifted d s.loop.state s'.loop.state
  timeRemaining : s.loop.state.arenaState ≠ .PreStaging →
    s'.loop.world.timeRemaining = s.loop.world.timeRemaining
  lights : s.loop.state.arenaState = .PreCountdown → s'.lights = s.lights

theorem Alike.step {d : ℚ} {s s' : Scene} (h : Alike d s s') {it it' : LitIteration}
    (hit : Later d it.iteration it'.iteration) (hrng : it'.rng = it.rng) :
    Alike d (s.step it) (s'.step it') ∧
      (s'.loop.world.timeRemaining = s.loop.world.timeRemaining →
        (s'.step it').loop.world.timeRemaining = (s.step it).loop.world.timeRemaining) ∧
      s'.output it' = s.output it := by
  have htransition := step_transition it.iteration s.loop
  obtain ⟨b', p', hlater, hshifted, hrecord, hkept⟩ := htransition.later hit h.state h.timeRemaining
  obtain ⟨hstate', htime', hreads'⟩ := Loop.step_eq hlater
  rw [← hstate'] at hshifted
  rw [← htime'] at hrecord hkept
  have hreading : s'.loop.colorReading it'.iteration = s.loop.colorReading it.iteration + d := by
    have hsegment : (s'.loop.tick it'.iteration).state.segmentReads =
        (s.loop.tick it.iteration).state.segmentReads := hshifted.segmentReads
    rw [Loop.colorReading, Loop.colorReading, hreads', hsegment, hit.now]
  have hbefore : s.loop.colorReading it.iteration < timePointMax := hit.before _
  have hbefore' : s'.loop.colorReading it'.iteration < timePointMax := hit.before' _
  have hlights : (s.step it).loop.state.arenaState = .PreCountdown → (s'.step it').lights = (s.step it).lights := by
    intro hkind
    -- Either the lights of the same object go on, or both have new ones.
    have hbuilt : s'.built it' = s.built it := by
      have hsame := changes_nil_congr h.state.arenaState hshifted.arenaState
      simp only [Scene.built, hsame, hrng]
      split
      case isTrue hnil => exact h.lights (((changes_nil_iff _ _).mp hnil).symm.trans hkind)
      case isFalse => rfl
    show LedAnimation.light (s'.built it') _ _ = LedAnimation.light (s.built it) _ _
    rw [hbuilt]
    exact hshifted.light hreading _ hkind
  refine ⟨⟨hshifted, hrecord, hlights⟩, hkept, ?_⟩
  have hsegments : s'.loop.segmentLed it'.iteration = s.loop.segmentLed it.iteration := by
    refine hshifted.getSegmentLed fun j => ?_
    rw [hreads', hit.now]
  have hcolors := hshifted.getColors hreading hbefore hbefore' hlights
  have hleds := hshifted.getButtonLeds
  show Output.mk _ _ _ = Output.mk _ _ _
  rw [Output.mk.injEq]
  exact ⟨hleds, hsegments, hcolors⟩

/-! ### From a restart on -/

/-- The object before iteration `m` is a new `PreStaging`. -/
def Run.Restarts (r : Run) (m : ℕ) : Prop := m = 0 ∨ ∃ n, m = n + 1 ∧ Enters r.phase n .PreStaging

/-- From iterations `m` and `m'` on the runs are fed alike: the same buttons, the same
draws, the same contents of unassigned members, and clock readings equally long
after the restart, none of them the largest there is. -/
structure FedAlike (r r' : LitRun) (m m' : ℕ) : Prop where
  redButton : ∀ k, (r'.input (m' + k)).redButton = (r.input (m + k)).redButton
  blueButton : ∀ k, (r'.input (m' + k)).blueButton = (r.input (m + k)).blueButton
  refButton : ∀ k, (r'.input (m' + k)).refButton = (r.input (m + k)).refButton
  resetButton : ∀ k, (r'.input (m' + k)).resetButton = (r.input (m + k)).resetButton
  remTime : ∀ k, (r'.input (m' + k)).remTime = (r.input (m + k)).remTime
  rng : ∀ k, r'.rng (m' + k) = r.rng (m + k)
  now : ∀ k j, (r'.input (m' + k)).now j - r'.entryTime m' = (r.input (m + k)).now j - r.entryTime m
  before : ∀ k j, (r.input (m + k)).now j < timePointMax
  before' : ∀ k j, (r'.input (m' + k)).now j < timePointMax

theorem Run.Restarts.state {r : Run} {m : ℕ} (h : r.Restarts m) :
    (r.state m).state = .preStagingAnim ⟨r.entryTime m, timePointMax⟩ := by
  rcases h with rfl | ⟨n, rfl, henters⟩
  · rfl
  · obtain ⟨a, q, b, p, k, ha, hb, -, -, hfrom, hto, ht⟩ := Run.observe_entry henters
    rw [Run.entryTime, hb]
    cases ht with
    | awaitReferee => exact absurd rfl hfrom
    | abandon => rfl
    | restart => rfl
    | _ => cases hto

theorem FedAlike.later {r r' : LitRun} {m m' : ℕ} (h : FedAlike r r' m m') (k : ℕ) :
    Later (r'.entryTime m' - r.entryTime m) (r.input (m + k)) (r'.input (m' + k)) where
  redButton := h.redButton k
  blueButton := h.blueButton k
  refButton := h.refButton k
  resetButton := h.resetButton k
  remTime := h.remTime k
  now j := by linarith [h.now k j]
  before := h.before k
  before' := h.before' k

theorem FedAlike.alike {r r' : LitRun} {m m' : ℕ} (hm : r.Restarts m) (hm' : r'.Restarts m')
    (h : FedAlike r r' m m') (k : ℕ) :
    Alike (r'.entryTime m' - r.entryTime m) (r.scene (m + k)) (r'.scene (m' + k)) := by
  induction k with
  | zero =>
    have hstate := hm.state
    have hstate' := hm'.state
    rw [← r.scene_loop] at hstate
    rw [← r'.scene_loop] at hstate'
    refine ⟨?_, fun hne => ?_, fun hkind => ?_⟩
    · show Shifted _ (r.scene m).loop.state (r'.scene m').loop.state
      rw [hstate, hstate']
      have hnone := @Shifted.preStagingAnim (r'.entryTime m' - r.entryTime m) (r.entryTime m) _ _ (.inl ⟨rfl, rfl⟩)
      rwa [add_sub_cancel] at hnone
    · exact absurd (congrArg LedAnimation.arenaState hstate) hne
    · exact absurd ((congrArg LedAnimation.arenaState hstate).symm.trans hkind) (by rintro ⟨⟩)
  | succ k ih => exact (ih.step (h.later k) (h.rng k)).1

/-- **No match leaves anything behind.** Two runs that restart, at whatever times and
after whatever histories, and are fed alike from there, go through the same states
and show the same in every iteration; and once `Staging` has been entered they have
the same match time on record. -/
theorem matches_isolated {r r' : LitRun} {m m' : ℕ} (hm : r.Restarts m) (hm' : r'.Restarts m')
    (hfed : FedAlike r r' m m') (k : ℕ) :
    r'.phase (m' + k) = r.phase (m + k) ∧ r'.output (m' + k) = r.output (m + k) ∧
      ((∃ j ≤ k, r.phase (m + j) = .Staging) → r'.timeRemaining (m' + k) = r.timeRemaining (m + k)) := by
  have halike := hfed.alike hm hm'
  have hphase : ∀ k, r'.phase (m' + k) = r.phase (m + k) := by
    intro k
    have hkind := (halike k).state.arenaState
    rwa [scene_loop, scene_loop] at hkind
  refine ⟨hphase k, ((halike k).step (hfed.later k) (hfed.rng k)).2.2, ?_⟩
  rintro ⟨j, hj, hstaging⟩
  have hrecord : ∀ n, ((r'.scene (m' + n)).loop.world.timeRemaining = (r.scene (m + n)).loop.world.timeRemaining ↔
      r'.timeRemaining (m' + n) = r.timeRemaining (m + n)) := fun n => by
    rw [scene_loop, scene_loop]
    rfl
  induction k, hj using Nat.le_induction with
  | base =>
    refine (hrecord j).mp ((halike j).timeRemaining ?_)
    rw [scene_loop]
    exact fun hpre => absurd (hpre.symm.trans hstaging) (by rintro ⟨⟩)
  | succ k _ ih =>
    exact (hrecord (k + 1)).mp (((halike k).step (hfed.later k) (hfed.rng k)).2.1 ((hrecord k).mpr ih))

/-! ### A match after a match -/

/-- The program started when iteration `m`'s object was built, with what is to come. -/
def LitRun.afresh (r : LitRun) (m : ℕ) : LitRun where
  began := r.entryTime m
  input := fun n => r.input (m + n)
  ordered := fun n => r.ordered (m + n)
  follows := fun n => r.follows (m + n)
  after := (r.entryTime_le m).1
  representable := fun n => r.representable (m + n)
  rng := fun n => r.rng (m + n)

/-- It is fed alike. -/
theorem LitRun.fedAlike_afresh (r : LitRun) (m : ℕ) (h : ∀ k j, (r.input (m + k)).now j < timePointMax) :
    FedAlike r (r.afresh m) m 0 := by
  have hinput : ∀ k, (r.afresh m).input (0 + k) = r.input (m + k) := fun k => by
    rw [Nat.zero_add]
    rfl
  have hrng : ∀ k, (r.afresh m).rng (0 + k) = r.rng (m + k) := fun k => by
    rw [Nat.zero_add]
    rfl
  refine ⟨?_, ?_, ?_, ?_, ?_, hrng, ?_, h, ?_⟩ <;> intro k <;> rw [hinput]
  · exact fun j => rfl
  · exact h k

/-- A match that ends in a tap-out at 28 s, a reset, and the next match. -/
def rematch : LitRun where
  toRun := .paced (fun n => n == 2 || n == 7 || n == 11) (fun n => n == 2 || n == 11)
    (fun n => n == 0 || n == 9) (· == 8) fun _ => 0
  rng := fun _ _ => .origin

/-- The second match shows what it would show if it were the first. -/
theorem matches_isolated_rematch :
    (rematch.afresh 9).output (0 + 5) = rematch.output (9 + 5) ∧
      (rematch.afresh 9).timeRemaining (0 + 5) = rematch.timeRemaining (9 + 5) := by
  have hrestarts : rematch.Restarts 9 := .inr ⟨8, rfl, by decide +kernel, by decide +kernel⟩
  have hclock : ∀ k j, (rematch.input (9 + k)).now j < timePointMax := by
    intro k j
    have hmin : min (9 + k) 100000 ≤ 100000 := Nat.min_le_right ..
    have hq : ((min (9 + k) 100000 : ℕ) : ℚ) ≤ 100000 := by exact_mod_cast hmin
    calc 4 * ((min (9 + k) 100000 : ℕ) : ℚ) ≤ 400000 := by linarith
      _ < timePointMax := by norm_num [timePointMax]
  have hsame := matches_isolated hrestarts (.inl rfl) (rematch.fedAlike_afresh 9 hclock) 5
  exact ⟨hsame.2.1, hsame.2.2 ⟨2, by decide, by decide +kernel⟩⟩

end Botgeddon.Arena
