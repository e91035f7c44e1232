import Botgeddon.Arena.Buttons
import Botgeddon.Arena.Fades
import Botgeddon.Arena.Range

/-! When everybody goes home.

The dimmed lights and the countdown need nobody, but they end in a fight, and every other
state waits for somebody. So a machine that is left alone comes to rest, and what it shows
follows once every fade is over and the clock of a fight has run out (`comes_to_rest`). -/
namespace Botgeddon.Arena
open Conversions Visits Deadline

/-- No button is pressed. -/
structure HandsOff (it : Iteration) : Prop where
  red : it.redButton = false
  blue : it.blueButton = false
  referee : it.refButton = false
  reset : it.resetButton = false

/-- It takes somebody to leave the state. -/
def Rests : LedAnimation → Prop
  | .preStagingAnim a => a.startingTime = timePointMax
  | .stagingAnim a => a.redStart = timePointMax ∨ a.blueStart = timePointMax
  | .preCountdownAnimation _ | .xmasTree _ => False
  | .fighting _ | .pausedAnim _ | .endAnim _ => True

/-- What such an object is after an iteration nobody had a part in. -/
def LedAnimation.alone (q : ℚ) : LedAnimation → LedAnimation
  | .pausedAnim a => .pausedAnim ⟨a.start, true, ⌈q⌉⟩
  | a => a

/-! ### One iteration -/

@[simp] theorem alone_alone (q : ℚ) (a : LedAnimation) : (a.alone q).alone q = a.alone q := by
  cases a <;> rfl

@[simp] theorem alone_start (q : ℚ) (a : LedAnimation) : (a.alone q).start = a.start := by
  cases a <;> rfl

theorem Rests.alone {a : LedAnimation} (h : Rests a) (q : ℚ) : Rests (a.alone q) := by
  cases a <;> exact h

theorem Settled.alone {it : Iteration} {a : LedAnimation} (h : Settled it a) (q : ℚ) : Settled it (a.alone q) := by
  cases a <;> exact h

theorem latch_alone (a : StagingAnim) (now : ℚ) : a.latch now false false = a := by
  simp [StagingAnim.latch]

/-- Nothing moves that rests. -/
theorem Transition.alone {it : Iteration} {a b : LedAnimation} {q p : ℚ} {k : ℕ} (h : Transition it a q b p k)
    (hoff : HandsOff it) (hmax : ∀ j, it.now j ≤ timePointMax) (hrests : Rests a) : b = a.alone q ∧ p = q := by
  obtain ⟨hred, hblue, href, hreset⟩ := hoff
  cases h with
  | awaitReferee a q waits =>
    rw [href]
    exact ⟨by simp [PreStagingAnim.latch, LedAnimation.alone], rfl⟩
  | stage a q pressed =>
    have hsentinel : a.startingTime = timePointMax := hrests
    rw [PreStagingAnim.latch_startingTime, href, hsentinel] at pressed
    simp only [Bool.false_eq_true, and_false, if_false, Arithmetic.exact_seconds] at pressed
    linarith [hmax 1]
  | awaitTeams a q waits =>
    rw [hred, hblue, latch_alone]
    exact ⟨rfl, rfl⟩
  | dim a q red blue =>
    rw [hred, hblue, latch_alone, Arithmetic.exact_seconds] at red blue
    rcases hrests with hsentinel | hsentinel
    · linarith [hmax 1]
    · linarith [hmax 2]
  | animate | countDown | count | start => exact absurd hrests not_false
  | fight | rest => exact ⟨rfl, rfl⟩
  | hold a q held kept =>
    rw [href]
    exact ⟨rfl, rfl⟩
  | tapOut a q tapped referee =>
    rw [hred, hblue] at tapped
    simp at tapped
  | pause a q referee => exact absurd (href.symm.trans referee) (by decide)
  | resume a q referee released kept => exact absurd (href.symm.trans referee) (by decide)
  | abandon a q reset released => exact absurd (hreset.symm.trans reset) (by decide)
  | restart a q reset => exact absurd (hreset.symm.trans reset) (by decide)

namespace Run

variable {r : Run} {gap : ℚ} {N : ℕ}

/-- Nobody presses anything until iteration `N`. -/
def LeftAlone (r : Run) (N n : ℕ) : Prop := ∀ k, n ≤ k → k < N → HandsOff (r.input k)

theorem LeftAlone.from {n k : ℕ} (h : r.LeftAlone N n) (hnk : n ≤ k) : r.LeftAlone N k :=
  fun j hj hjN => h j (hnk.trans hj) hjN

theorem rests_step {n : ℕ} (h : Rests (r.state n).state) (hoff : HandsOff (r.input n)) :
    (r.state (n + 1)).state = (r.state n).state.alone (r.timeRemaining n) ∧
      r.timeRemaining (n + 1) = r.timeRemaining n :=
  (step_transition (r.input n) (r.state n)).alone hoff (r.representable n) h

/-- What rests stays as the first iteration leaves it. -/
theorem rests_run {n m : ℕ} (h : Rests (r.state n).state) (hoff : r.LeftAlone m n) (hnm : n < m) :
    (r.state m).state = (r.state n).state.alone (r.timeRemaining n) ∧ r.timeRemaining m = r.timeRemaining n := by
  induction m, hnm using Nat.le_induction with
  | base => exact rests_step h (hoff n le_rfl (Nat.lt_succ_self n))
  | succ m hnm ih =>
    have hnm' : n < m := hnm
    obtain ⟨hstate, htime⟩ := ih fun k hk hkm => hoff k hk (by omega)
    have hrests : Rests (r.state m).state := by
      rw [hstate]
      exact h.alone _
    obtain ⟨hstate', htime'⟩ := rests_step hrests (hoff m hnm'.le (Nat.lt_succ_self m))
    rw [hstate', htime', htime, hstate, alone_alone]
    exact ⟨rfl, rfl⟩

/-! ### Coming to rest -/

theorem rests_of_fighting {n : ℕ} (h : r.phase n = .Fighting) : Rests (r.state n).state := by
  obtain ⟨a, ha⟩ := LedAnimation.eq_fighting h
  rw [ha]
  trivial

/-- A staging that nobody came to. -/
theorem rests_of_staging {n k : ℕ} (h : r.phase k = .Staging) (hnk : n ≤ k) (hbefore : r.phase n ≠ .Staging)
    (hoff : r.LeftAlone k n) : Rests (r.state k).state := by
  have hmem := r.remembers k
  cases ha : (r.state k).state with
  | stagingAnim a =>
    rw [ha] at hmem
    rcases hmem.1 with hsentinel | ⟨m, hm, hstays, hpress, -⟩
    · exact .inl hsentinel
    · rcases lt_or_ge m n with hlt | hge
      · exact absurd ((hstays n hlt.le hnk).trans h) hbefore
      · exact absurd ((hoff m hge hm).red.symm.trans hpress) (by decide)
  | _ =>
    rw [phase, ha] at h
    cases h

/-- The teams of a staging are ready, or it rests. -/
theorem consented_or_rests {n : ℕ} {a : StagingAnim} (ha : (r.state n).state = .stagingAnim a)
    (hoff : HandsOff (r.input n)) : (∃ t, r.Consented t n) ∨ Rests (.stagingAnim a) := by
  have hpast := r.settled n
  rw [ha] at hpast
  rcases hpast.1 with hred | hred
  · exact .inr (.inl hred)
  rcases hpast.2 with hblue | hblue
  · exact .inr (.inr hblue)
  refine .inl ⟨_, a, ha, ?_, rfl⟩
  rw [hoff.red, hoff.blue, latch_alone]
  exact max_le hred hblue

/-- What leads to rest, leads there in its time. -/
theorem rests_of_leadsTo {n : ℕ} {delay delay' : ℚ} {P Q : ℕ → Prop}
    (h : LeadsTo r.time N (fun _ => True) delay P Q) (hP : P n) (hdelay : delay ≤ delay')
    (hrests : ∀ k, n ≤ k → k < N → Q k → Rests (r.state k).state) (hnN : n ≤ N) (hlate : r.time n + delay' < r.time N) :
    ∃ k, n ≤ k ∧ k < N ∧ r.time k ≤ r.time n + delay' ∧ Rests (r.state k).state := by
  obtain ⟨k, hnk, hkN, hQ, htime, -⟩ := h n N hnN le_rfl hP (by linarith)
  have hlt : k < N := by
    refine lt_of_le_of_ne hkN ?_
    rintro rfl
    linarith
  exact ⟨k, hnk, hlt, by linarith, hrests k hnk hlt hQ⟩

/-- From anywhere to rest, in the time from consent to the fight. -/
theorem settles (hpaced : Paced r.time gap N) {n : ℕ} (hnN : n ≤ N) (hoff : r.LeftAlone N n)
    (hlate : r.time n + (27 / 2 + 6 * gap) < r.time N) :
    ∃ k, n ≤ k ∧ k < N ∧ r.time k ≤ r.time n + (27 / 2 + 6 * gap) ∧ Rests (r.state k).state := by
  have hgap := hpaced.gap_nonneg
  have hlt : n < N := by
    refine lt_of_le_of_ne hnN ?_
    rintro rfl
    linarith
  by_cases hrests : Rests (r.state n).state
  · exact ⟨n, le_rfl, hlt, by linarith, hrests⟩
  have hfight : ∀ {t : ℚ} (k : ℕ), n ≤ k → k < N → r.EnteredAfter .Fighting t k → Rests (r.state k).state :=
    fun k _ _ h => rests_of_fighting h.1
  have hentered : r.EnteredAfter (r.phase n) (r.entryTime n - 1) n := ⟨rfl, by linarith⟩
  have hmem := r.remembers n
  have hphase : r.phase n = (r.state n).state.arenaState := rfl
  cases ha : (r.state n).state with
  | preStagingAnim a =>
    rw [ha] at hmem hphase hrests
    rcases hmem with hsentinel | ⟨m, hm, -, -, hcall⟩
    · exact absurd hsentinel hrests
    · refine rests_of_leadsTo (called_leads hpaced a.startingTime fun _ _ => trivial) ⟨a, ha, rfl, ?_⟩ (by linarith)
        (fun k hnk hkN hk => ?_) hnN hlate
      · rw [hcall]
        exact r.time_mono hm.le
      · refine rests_of_staging hk hnk ?_ fun j hj hjk => hoff j hj (hjk.trans hkN)
        rw [hphase]
        exact fun h => nomatch h
  | stagingAnim a =>
    rw [ha] at hrests
    rcases consented_or_rests ha (hoff n le_rfl hlt) with ⟨t, hconsented⟩ | hwaits
    · exact rests_of_leadsTo (fight_leads hpaced t fun _ _ => trivial) hconsented le_rfl hfight hnN hlate
    · exact absurd hwaits hrests
  | preCountdownAnimation a =>
    rw [hphase, ha] at hentered
    have hdim := runs_leads hpaced .dimmed (r.entryTime n - 1) fun _ _ => trivial
    have hcount := runs_leads hpaced .counted (r.entryTime n - 1 + 7) fun _ _ => trivial
    exact rests_of_leadsTo (hdim.trans hcount (by linarith)) hentered (by linarith) hfight hnN hlate
  | xmasTree a =>
    rw [hphase, ha] at hentered
    have hcount := runs_leads hpaced .counted (r.entryTime n - 1) fun _ _ => trivial
    exact rests_of_leadsTo hcount hentered (by linarith) hfight hnN hlate
  | fighting a | pausedAnim a | endAnim a =>
    rw [ha] at hrests
    exact absurd trivial hrests

end Run

/-! ### What is shown at rest -/

namespace LitRun

variable {r : LitRun} {gap : ℚ}

/-- Waiting for the referee is at full after four and a half seconds. -/
theorem preStaging_full {a : PreStagingAnim} {now : ℚ} (hwaits : now ≤ a.startingTime) (hlate : a.start + 9 / 2 ≤ now) :
    (a.pixel now).color = ⟨60, 60, 60⟩ := by
  have hwaiting : ¬ now - a.startingTime > 0 := not_lt.mpr (by linarith)
  have hfull : 1 ≤ (now - a.start) / 3 / PreStagingAnim.fadeOutStart := by
    unfold PreStagingAnim.fadeOutStart
    rw [div_div, le_div_iff₀ (by norm_num)]
    linarith
  have hcounts : castUInt8 (1 * midLightCounts) = 60 := by decide +kernel
  unfold PreStagingAnim.pixel paint
  dsimp only
  rw [if_neg hwaiting, clamp_of_one_le hfull, hcounts]

/-- A staging that waits for a team is not dimmed. -/
theorem undimmed_of_waiting {a : StagingAnim} (h : Rests (.stagingAnim a)) {now : ℚ} (hmax : now ≤ timePointMax) :
    clamp (1 - (min (now - a.redStart) (now - a.blueStart) - StagingAnim.fadeOutStart) /
      StagingAnim.fadeOutDuration) 0 1 = 1 := by
  refine undimmed ?_
  rcases h with hsentinel | hsentinel
  · exact (min_le_left _ _).trans (by linarith)
  · exact (min_le_right _ _).trans (by linarith)

theorem glow_full {time : ℚ} (h : 1 ≤ time) : StagingAnim.glow time 1 = 1 := by
  unfold StagingAnim.glow
  rw [if_pos (by linarith), clamp_of_one_le (by nlinarith)]
  norm_num

/-- A team's glow does not change before its press, nor a second after it. -/
theorem glow_at_rest {t now now' : ℚ} (hlater : now ≤ now') (hmax : now' ≤ timePointMax)
    (h : t = timePointMax ∨ t + 1 ≤ now) : StagingAnim.glow (now' - t) 1 = StagingAnim.glow (now - t) 1 := by
  rcases h with rfl | hpast
  · rw [glow_unpressed (by linarith), glow_unpressed (by linarith)]
  · rw [glow_full (by linarith), glow_full (by linarith)]

/-- Four and a half seconds after its object was built, and one after every press, a picture
does not change any more. -/
theorem pixel_at_rest {a : LedAnimation} (h : Rests a) {it : Iteration} (hsettled : Settled it a) {now now' : ℚ}
    (hpast : it.now 0 + 1 ≤ now) (hstart : a.start + 9 / 2 ≤ now) (hlater : now ≤ now') (hmax : now' ≤ timePointMax)
    (lights lights' : Lights) (i : ℕ) : (a.pixel lights' now' i).color = (a.pixel lights now i).color := by
  have hdark : Fading a.arenaState → (a.pixel lights' now' i).color = (a.pixel lights now i).color := by
    intro hfading
    rw [fading_dark hfading (by linarith), fading_dark hfading (by linarith)]
  cases a with
  | preStagingAnim a =>
    have hwaits : now' ≤ a.startingTime := hmax.trans_eq h.symm
    exact (preStaging_full hwaits (hstart.trans hlater)).trans (preStaging_full (hlater.trans hwaits) hstart).symm
  | stagingAnim a =>
    have hred := glow_at_rest hlater hmax (hsettled.1.imp_right fun hle => by linarith)
    have hblue := glow_at_rest hlater hmax (hsettled.2.imp_right fun hle => by linarith)
    show (a.pixel now' i).color = (a.pixel now i).color
    rw [staging_color, staging_color, undimmed_of_waiting h hmax, undimmed_of_waiting h (hlater.trans hmax)]
    dsimp only
    rw [hred, hblue]
  | preCountdownAnimation | xmasTree => exact absurd h not_false
  | fighting => exact hdark (.inl rfl)
  | pausedAnim => exact hdark (.inr (.inl rfl))
  | endAnim => exact hdark (.inr (.inr rfl))

/-- A fight's clock shows the same once it has run out. -/
theorem segmentLed_at_rest {a : LedAnimation} (h : Rests a) {q t : ℚ} (hmatch : AtMostMatch q a)
    (hover : a.start + 120 ≤ t) {now now' : ℕ → ℚ} (hnow : ∀ j, t ≤ now j) (hnow' : ∀ j, t ≤ now' j) :
    a.getSegmentLed now' = a.getSegmentLed now := by
  cases a with
  | fighting a =>
    have hend : a.endTime - a.start ≤ 120 := hmatch
    have hout : ∀ u : ℚ, t ≤ u → a.getSegmentLed u = ⟨#v[literal 'E', literal 'n', literal 'd', literal ' '], 0⟩ := by
      intro u hle
      have hstart : a.start + 120 ≤ t := hover
      have hceil : ⌈a.endTime - u⌉ ≤ 0 := Int.ceil_le.mpr (by push_cast; linarith)
      unfold Fighting.getSegmentLed
      rw [truncate_intCast, Arithmetic.exact_seconds, if_neg (not_lt.mpr hceil)]
    exact (hout _ (hnow' 1)).trans (hout _ (hnow 1)).symm
  | xmasTree a => exact absurd h not_false
  | _ => rfl

/-- Two minutes after the machine has come to rest, nothing that is shown changes any more. -/
theorem output_at_rest {k m N : ℕ} (h : Rests (r.state k).state) (hoff : r.LeftAlone (N + 1) k) (hkm : k < m)
    (hmN : m ≤ N) (hover : r.time k + 120 ≤ r.time m) :
    (r.state (N + 1)).state = (r.state (m + 1)).state ∧ r.output N = r.output m := by
  have hobject : ∀ j, m ≤ j → j ≤ N → (r.state (j + 1)).state = (r.state k).state.alone (r.timeRemaining k) :=
    fun j hj hjN => (Run.rests_run h (fun i hi hij => hoff i hi (by omega)) (by omega)).1
  have hsame : (r.state (N + 1)).state = (r.state (m + 1)).state := (hobject N hmN le_rfl).trans (hobject m le_rfl hmN).symm
  -- The object was built, and its presses were taken, before it came to rest.
  obtain ⟨hrests, hsettled, hbuilt⟩ : Rests (r.state (m + 1)).state ∧ Settled (r.input k) (r.state (m + 1)).state ∧
      (r.state (m + 1)).state.start ≤ r.time k := by
    rw [hobject m le_rfl hmN, alone_start]
    exact ⟨h.alone _, (r.settled k).alone _, (r.entryTime_le k).1 0⟩
  have hframe := r.time_le_colorTime m
  have hread : (r.input k).now 0 = r.time k := rfl
  have hbuttons : (r.output N).buttonLeds = (r.output m).buttonLeds := by
    rw [← r.lit_before N, ← r.lit_before m, hsame]
  have hsegments : (r.output N).segmentLed = (r.output m).segmentLed := by
    rw [r.output_segmentLed, r.output_segmentLed, Run.shown_eq, Run.shown_eq, hsame]
    refine segmentLed_at_rest hrests (r.atMostMatch (m + 1)) (t := r.time m) (by linarith) (fun j => ?_) fun j => ?_
    · exact r.ordered m (Nat.zero_le _)
    · exact (r.time_mono hmN).trans (r.ordered N (Nat.zero_le _))
  have hcolors : (r.output N).colors = (r.output m).colors := by
    refine Vector.ext fun i hi => ?_
    show r.shownPixel N ⟨i, hi⟩ = r.shownPixel m ⟨i, hi⟩
    rw [shownPixel_eq, shownPixel_eq, hsame]
    exact pixel_at_rest hrests hsettled (by linarith) (by linarith) (r.colorTime_mono hmN) (r.representable N _) _ _ _
  refine ⟨hsame, ?_⟩
  calc r.output N = ⟨(r.output N).buttonLeds, (r.output N).segmentLed, (r.output N).colors⟩ := rfl
    _ = ⟨(r.output m).buttonLeds, (r.output m).segmentLed, (r.output m).colors⟩ := by rw [hbuttons, hsegments, hcolors]
    _ = r.output m := rfl

/-- **Left alone, it all comes to rest.** When nobody has pressed anything for 133.5 seconds and
six rounds, the state does not change any more, nor does anything that is shown. -/
theorem comes_to_rest {n m N : ℕ} (hpaced : Paced r.time gap m) (hmN : m ≤ N)
    (hoff : ∀ k, n ≤ k → k ≤ N → HandsOff (r.input k)) (hlate : r.time n + (267 / 2 + 6 * gap) < r.time m) :
    (r.state (N + 1)).state = (r.state (m + 1)).state ∧ r.output N = r.output m := by
  have hgap := hpaced.gap_nonneg
  have hnm : n ≤ m := by
    by_contra hlt
    have hback := r.time_mono (not_le.mp hlt).le
    linarith
  obtain ⟨k, hnk, hkm, htime, hrests⟩ :=
    Run.settles hpaced hnm (fun j hj hjm => hoff j hj (by omega)) (by linarith)
  exact output_at_rest hrests (fun j hj hjN => hoff j (hnk.trans hj) (by omega)) hkm hmN (by linarith)

/-- Everybody leaves after the teams' consent at 8 s; at 172 s the fight they have missed is over. -/
theorem comes_to_rest_left :
    (LitRun.mk (Run.paced (· == 2) (· == 2) (· == 0) (fun _ => false) fun _ => 0) fun _ _ => .origin).output 1000 =
      (LitRun.mk (Run.paced (· == 2) (· == 2) (· == 0) (fun _ => false) fun _ => 0) fun _ _ => .origin).output 43 := by
  refine (comes_to_rest (n := 3) (Run.paced_paced _ _ _ _ _ 43) (by decide) (fun k hk hkN => ?_) (by decide +kernel)).2
  have hteams : (k == 2) = false := beq_false_of_ne (by omega)
  have href : (k == 0) = false := beq_false_of_ne (by omega)
  exact ⟨hteams, hteams, href, rfl⟩

end LitRun

end Botgeddon.Arena
