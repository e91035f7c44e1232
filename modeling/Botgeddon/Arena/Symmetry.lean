import Botgeddon.Arena.Scene

/-! Red and blue are treated alike.

The red and the blue button have a latch, a fade and a half of the strip each. With
the buttons exchanged in every iteration the machine takes the mirrored transitions,
and what it shows is mirrored too. Every condition of an iteration has to be taken at
the same time for this: the two press times are compared with different readings of
the clock. -/
namespace Botgeddon.Arena
open Conversions Visits
open LedAnimation (N)
open Strip (ColorTriplet)

/-! ### Exchanging the teams -/

def Iteration.swap (it : Iteration) : Iteration :=
  { it with redButton := it.blueButton, blueButton := it.redButton }

/-- Only `StagingAnim` knows the teams apart. -/
def LedAnimation.swap : LedAnimation → LedAnimation
  | .stagingAnim a => .stagingAnim ⟨a.start, a.redStart, a.blueStart⟩
  | a => a

/-- Red for blue in a colour. -/
def exchange (c : ColorTriplet) : ColorTriplet := ⟨c.b, c.g, c.r⟩

/-- The iteration sees one clock value. -/
def Steady (it : Iteration) : Prop := ∀ j, it.now j = it.now 0

@[simp] theorem LedAnimation.swap_arenaState (a : LedAnimation) : a.swap.arenaState = a.arenaState := by
  cases a <;> rfl

@[simp] theorem LedAnimation.swap_start (a : LedAnimation) : a.swap.start = a.start := by
  cases a <;> rfl

theorem pauseReads_swap (it : Iteration) : pauseReads it.swap = pauseReads it := by
  simp only [pauseReads, Iteration.swap, Bool.or_comm]

theorem latch_swap (a : StagingAnim) (now : ℚ) (redButton blueButton : Bool) :
    LedAnimation.stagingAnim ((StagingAnim.mk a.start a.redStart a.blueStart).latch now blueButton redButton) =
      (LedAnimation.stagingAnim (a.latch now redButton blueButton)).swap := by
  rw [latch_staging, latch_staging]
  rfl

/-- The mirrored iteration makes the mirrored transition. -/
theorem Transition.swap {it : Iteration} (hsteady : Steady it) {a b : LedAnimation} {q p : ℚ} {k : ℕ}
    (h : Transition it a q b p k) : Transition it.swap a.swap q b.swap p k := by
  cases h with
  | awaitReferee a q waits => exact .awaitReferee a q waits
  | stage a q pressed => exact .stage a q pressed
  | awaitTeams a q waits =>
    rw [hsteady 1, hsteady 2, latch_staging] at waits
    have hnext := @Transition.awaitTeams _ it.swap ⟨a.start, a.redStart, a.blueStart⟩ q (by
      rw [latch_staging]
      simp only [Iteration.swap, hsteady 1, hsteady 2]
      exact fun hboth => waits hboth.symm)
    simp only [Iteration.swap, latch_swap] at hnext
    exact hnext
  | dim a q red blue =>
    rw [hsteady 1, latch_staging] at red
    rw [hsteady 2, latch_staging] at blue
    refine @Transition.dim _ it.swap ⟨a.start, a.redStart, a.blueStart⟩ q ?_ ?_
    · rw [latch_staging]
      simp only [Iteration.swap, hsteady 1]
      exact blue
    · rw [latch_staging]
      simp only [Iteration.swap, hsteady 2]
      exact red
  | animate a q early => exact .animate a q early
  | countDown a q elapsed => exact .countDown a q elapsed
  | count a q early => exact .count a q early
  | start a q elapsed => exact .start a q elapsed
  | fight a q red blue referee => exact .fight a q blue red referee
  | tapOut a q tapped referee => exact .tapOut a q tapped.symm referee
  | pause a q referee =>
    have hnext := @Transition.pause _ it.swap a q referee
    rw [pauseReading, pauseReads_swap] at hnext
    exact hnext
  | hold a q held kept => exact .hold a q held kept
  | resume a q referee released kept => exact .resume a q referee released kept
  | abandon a q reset released => exact .abandon a q reset released
  | rest a q kept => exact .rest a q kept
  | restart a q reset => exact .restart a q reset

/-! ### What is shown -/

theorem swap_getButtonLeds (a : LedAnimation) : a.swap.getButtonLeds = a.getButtonLeds.swap := by
  cases a <;> rfl

theorem swap_segmentReads (a : LedAnimation) : a.swap.segmentReads = a.segmentReads := by
  cases a <;> rfl

theorem swap_getSegmentLed (a : LedAnimation) (now : ℕ → ℚ) : a.swap.getSegmentLed now = a.getSegmentLed now := by
  cases a <;> rfl

theorem swap_light (a : LedAnimation) (lights : Lights) (now : ℚ) : a.swap.light lights now = a.light lights now := by
  cases a <;> rfl

/-- In `Staging` a team's half is the other's with the channels exchanged. -/
theorem swap_pixel (a : StagingAnim) (lights : Lights) (now : ℚ) {i : ℕ} (hi : i < N / 2) :
    ((LedAnimation.stagingAnim a).swap.pixel lights now (i + N / 2)).color =
        exchange ((LedAnimation.stagingAnim a).pixel lights now i).color ∧
      ((LedAnimation.stagingAnim a).swap.pixel lights now i).color =
        exchange ((LedAnimation.stagingAnim a).pixel lights now (i + N / 2)).color := by
  have hother : ¬ i + N / 2 < N / 2 := by omega
  simp only [LedAnimation.swap, LedAnimation.pixel, StagingAnim.pixel, if_pos hi, if_neg hother,
    min_comm (now - a.blueStart)]
  exact ⟨rfl, rfl⟩

/-- Outside `Staging` there is nothing to exchange. -/
theorem swap_eq {a : LedAnimation} (h : a.arenaState ≠ .Staging) : a.swap = a := by
  cases a with
  | stagingAnim => exact absurd rfl h
  | _ => rfl

/-- The second output is the first with the teams exchanged. -/
structure MirrorImage (state : ArenaState) (o o' : Output) : Prop where
  buttonLeds : o'.buttonLeds = o.buttonLeds.swap
  segmentLed : o'.segmentLed = o.segmentLed
  colors : state ≠ .Staging → o'.colors = o.colors
  halves : state = .Staging → ∀ i < N / 2, o'.colors[i + N / 2]? = o.colors[i]?.map exchange ∧
    o'.colors[i]? = o.colors[i + N / 2]?.map exchange

theorem getColors_getElem? (lights : Lights) (now : ℚ) (a : LedAnimation) {i : ℕ} (hi : i < N) :
    (a.getColors lights now)[i]? = some (a.pixel lights now i).color := by
  rw [LedAnimation.getColors, Vector.getElem?_ofFn, dif_pos hi]

theorem swap_halves {a : LedAnimation} (h : a.arenaState = .Staging) (lights : Lights) (now : ℚ) {i : ℕ}
    (hi : i < N / 2) :
    (a.swap.getColors lights now)[i + N / 2]? = (a.getColors lights now)[i]?.map exchange ∧
      (a.swap.getColors lights now)[i]? = (a.getColors lights now)[i + N / 2]?.map exchange := by
  cases a with
  | stagingAnim a =>
    have hlo : i < N := by omega
    have hhi : i + N / 2 < N := by omega
    obtain ⟨hupper, hlower⟩ := swap_pixel a lights now hi
    rw [getColors_getElem? _ _ _ hlo, getColors_getElem? _ _ _ hhi, getColors_getElem? _ _ _ hlo,
      getColors_getElem? _ _ _ hhi, hupper, hlower]
    exact ⟨rfl, rfl⟩
  | _ => cases h

/-! ### An iteration -/

def LitIteration.swap (it : LitIteration) : LitIteration := ⟨it.iteration.swap, it.rng⟩

/-- Two scenes are mirror images. -/
structure Mirrored (s s' : Scene) : Prop where
  state : s'.loop.state = s.loop.state.swap
  timeRemaining : s'.loop.world.timeRemaining = s.loop.world.timeRemaining
  lights : s'.lights = s.lights

theorem Mirrored.step {s s' : Scene} (h : Mirrored s s') {it : LitIteration} (hsteady : Steady it.iteration) :
    Mirrored (s.step it) (s'.step it.swap) ∧
      MirrorImage (s.step it).loop.state.arenaState (s.output it) (s'.output it.swap) := by
  have htransition := (step_transition it.iteration s.loop).swap hsteady
  rw [← h.state, ← h.timeRemaining] at htransition
  obtain ⟨hstate, htime, hreads⟩ := Loop.step_eq htransition
  have hreading : s'.loop.colorReading it.iteration.swap = s.loop.colorReading it.iteration := by
    have hsegment : (s'.loop.tick it.iteration.swap).state.segmentReads =
        (s.loop.tick it.iteration).state.segmentReads :=
      (congrArg LedAnimation.segmentReads hstate).trans (swap_segmentReads _)
    rw [Loop.colorReading, Loop.colorReading, hreads, hsegment]
    rfl
  have hbuilt : s'.built it.swap = s.built it := by
    have hbefore : s'.loop.state.arenaState = s.loop.state.arenaState := by
      rw [h.state, LedAnimation.swap_arenaState]
    have hafter : (s'.loop.step it.iteration.swap).state.arenaState =
        (s.loop.step it.iteration).state.arenaState := by
      rw [hstate, LedAnimation.swap_arenaState]
    have hsame := changes_nil_congr hbefore hafter
    simp only [Scene.built, LitIteration.swap, hsame, h.lights]
  have hlights : (s'.step it.swap).lights = (s.step it).lights := by
    show (s'.loop.step it.iteration.swap).state.light (s'.built it.swap) (s'.loop.colorReading it.iteration.swap) = _
    rw [hstate, hbuilt, hreading, swap_light]
    rfl
  have hsegments : s'.loop.segmentLed it.iteration.swap = s.loop.segmentLed it.iteration := by
    have hafter : (s'.loop.tick it.iteration.swap).state = (s.loop.tick it.iteration).state.swap := hstate
    rw [Loop.segmentLed, Loop.segmentLed, hafter, hreads, swap_getSegmentLed]
    rfl
  have hcolors : (s'.output it.swap).colors =
      (s.step it).loop.state.swap.getColors (s.step it).lights (s.loop.colorReading it.iteration) := by
    rw [← hlights, ← hreading]
    show LedAnimation.getColors _ _ (s'.loop.step it.iteration.swap).state = _
    rw [hstate]
    rfl
  refine ⟨⟨hstate, htime, hlights⟩, ⟨?_, hsegments, fun hne => ?_, fun hstaging i hi => ?_⟩⟩
  · exact (congrArg LedAnimation.getButtonLeds hstate).trans (swap_getButtonLeds _)
  · rw [hcolors, swap_eq hne]
    rfl
  · rw [hcolors]
    exact swap_halves hstaging _ _ hi

/-! ### The law -/

/-- The run with the red and the blue button exchanged in every iteration. -/
def LitRun.swap (r : LitRun) : LitRun where
  began := r.began
  input := fun n => (r.input n).swap
  ordered := r.ordered
  follows := r.follows
  after := r.after
  representable := r.representable
  rng := r.rng

theorem LitRun.mirrored {r : LitRun} (h : ∀ n, Steady (r.input n)) (n : ℕ) :
    Mirrored (r.scene n) (r.swap.scene n) := by
  induction n with
  | zero => exact ⟨rfl, rfl, rfl⟩
  | succ n ih => exact (ih.step (h n)).1

/-- **Red and blue are treated alike.** With one clock value in each iteration and the
two buttons exchanged, the machine goes through the same states at the same times with
the same time on record, and what it shows is the mirror image. -/
theorem teams_alike {r : LitRun} (h : ∀ n, Steady (r.input n)) (n : ℕ) :
    r.swap.phase n = r.phase n ∧ r.swap.entryTime n = r.entryTime n ∧
      r.swap.timeRemaining n = r.timeRemaining n ∧
      MirrorImage (r.phase (n + 1)) (r.output n) (r.swap.output n) := by
  have hmirrored := LitRun.mirrored h n
  have himage := (@Mirrored.step _ _ hmirrored (r.litInput n) (h n)).2
  have hstate := hmirrored.state
  have htime := hmirrored.timeRemaining
  rw [LitRun.scene_loop, LitRun.scene_loop] at hstate htime
  have hnext : (r.scene (n + 1)).loop.state.arenaState = r.phase (n + 1) := by
    rw [LitRun.scene_loop]
    rfl
  rw [← hnext]
  refine ⟨?_, ?_, htime, himage⟩
  · exact (congrArg LedAnimation.arenaState hstate).trans (LedAnimation.swap_arenaState _)
  · exact (congrArg LedAnimation.start hstate).trans (LedAnimation.swap_start _)

/-- Red is ready at 8 s and blue at 12 s, or the other way round. -/
def staggered : LitRun where
  toRun := .paced (· == 2) (· == 3) (fun n => n == 0) (fun _ => false) fun _ => 0
  rng := fun _ _ => .origin

/-- At 8 s one team has pressed in either run, and its LED is off. -/
theorem teams_alike_staggered :
    (staggered.swap.output 2).buttonLeds = (staggered.output 2).buttonLeds.swap ∧
      staggered.swap.phase 3 = .Staging := by
  have hsteady : ∀ n, Steady (staggered.input n) := fun n j => rfl
  obtain ⟨-, -, -, himage⟩ := teams_alike hsteady 2
  obtain ⟨hphase, -⟩ := teams_alike hsteady 3
  exact ⟨himage.buttonLeds, hphase.trans (by decide +kernel)⟩

end Botgeddon.Arena
