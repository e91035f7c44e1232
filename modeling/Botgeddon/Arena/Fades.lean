import Botgeddon.Arena.Deadlines
import Botgeddon.Arena.Scene

/-! How the lights fade, seen frame by frame.

How long a state lasts and how long its fades take are unrelated constants, and `Tick`
and `GetColors` compare them with different readings of the clock. What ties them
together is that a frame's colours are read after its `Tick` and before the next: if the
rounds are short enough, every fade has ended in the frame before the machine moves on. -/
namespace Botgeddon.Arena
open Conversions Visits Deadline
open LedAnimation (numHorizontal N)
open Strip (ColorTriplet)

/-! ### Colours -/

def dark : ColorTriplet := ⟨0, 0, 0⟩

/-- No channel is above the limit. -/
structure Dim (limit : ℕ) (c : ColorTriplet) : Prop where
  r : c.r.toNat ≤ limit
  g : c.g.toNat ≤ limit
  b : c.b.toNat ≤ limit

/-- No channel is brighter in `c` than in `c'`. -/
structure NoBrighter (c c' : ColorTriplet) : Prop where
  r : c.r ≤ c'.r
  g : c.g ≤ c'.g
  b : c.b ≤ c'.b

theorem dim_zero {c : ColorTriplet} (h : Dim 0 c) : c = dark := by
  obtain ⟨hr, hg, hb⟩ := h
  have hzero : ∀ x : UInt8, x.toNat ≤ 0 → x = 0 := fun x hx => UInt8.toNat_inj.mp (Nat.le_zero.mp hx)
  obtain ⟨r, g, b⟩ := c
  simp only [dark, ColorTriplet.mk.injEq]
  exact ⟨hzero r hr, hzero g hg, hzero b hb⟩

theorem dim_of_dark {limit : ℕ} {c : ColorTriplet} (h : c = dark) : Dim limit c := by
  subst h
  exact ⟨Nat.zero_le _, Nat.zero_le _, Nat.zero_le _⟩

theorem castUInt8_mono {p q : ℚ} (h0 : 0 ≤ p) (h : p ≤ q) (hq : q < 256) : castUInt8 p ≤ castUInt8 q := by
  have hp := castUInt8_toNat h0 (h.trans_lt hq)
  have hq' := castUInt8_toNat (h0.trans h) hq
  have hfloor : truncate p ≤ truncate q := by
    rw [truncate_of_nonneg h0, truncate_of_nonneg (h0.trans h)]
    exact Int.floor_le_floor h
  rw [← hp, ← hq'] at hfloor
  exact UInt8.le_iff_toNat_le.mpr (by exact_mod_cast hfloor)

theorem castUInt8_lt {q : ℚ} {limit : ℕ} (h0 : 0 ≤ q) (h : q < limit + 1) (hlimit : limit < 256) :
    (castUInt8 q).toNat ≤ limit := by
  have hbyte : (limit : ℚ) + 1 ≤ 256 := by exact_mod_cast hlimit
  have hcast := castUInt8_toNat h0 (h.trans_le hbyte)
  have hfloor : truncate q < limit + 1 := by
    rw [truncate_of_nonneg h0, Int.floor_lt]
    exact_mod_cast h
  omega

theorem paint_dim {q : ℚ} {limit : ℕ} (h0 : 0 ≤ q) (h : q < limit + 1) (hlimit : limit < 256)
    {color : UInt8 → ColorTriplet} (hcolor : Tint color) : Dim limit (paint q color).color := by
  have hchannel : ∀ channel : UInt8, channel = castUInt8 q ∨ channel = 0 → channel.toNat ≤ limit := by
    rintro channel (rfl | rfl)
    · exact castUInt8_lt h0 h hlimit
    · exact Nat.zero_le _
  constructor <;> exact hchannel _ (hcolor _ _ (by simp [paint]))

theorem paint_zero {color : UInt8 → ColorTriplet} (hcolor : Tint color) : (paint 0 color).color = dark :=
  dim_zero (paint_dim le_rfl (by norm_num) (by decide) hcolor)

/-! ### Clamped brightness -/

theorem clamp_mono {x y : ℚ} (h : x ≤ y) : clamp x 0 1 ≤ clamp y 0 1 :=
  min_le_min le_rfl (max_le_max h le_rfl)

theorem clamp_of_nonpos {x : ℚ} (h : x ≤ 0) : clamp x 0 1 = 0 := by
  rw [clamp, max_eq_right h]
  exact min_eq_right zero_le_one

theorem clamp_of_one_le {x : ℚ} (h : 1 ≤ x) : clamp x 0 1 = 1 :=
  min_eq_left (h.trans (le_max_left _ _))

theorem clamp_le {x y : ℚ} (h : x ≤ y) (hy : 0 ≤ y) : clamp x 0 1 ≤ y :=
  (min_le_right _ _).trans (max_le h hy)

/-! ### The fades, class by class -/

/-- What is left of the lights before staging, when the referee pressed some time ago. -/
theorem preStaging_dim {a : PreStagingAnim} {now : ℚ} {limit : ℕ} (hpressed : a.startingTime < now)
    (h : (1 - (now - a.startingTime) / (3 / 2)) * 60 < limit + 1) (hlimit : limit < 256) :
    Dim limit (a.pixel now).color := by
  have hstarting : 0 < now - a.startingTime := sub_pos.mpr hpressed
  have hlimit0 : (0 : ℚ) ≤ limit := limit.cast_nonneg
  simp only [PreStagingAnim.pixel, gt_iff_lt, hstarting, if_true]
  refine paint_dim (mul_nonneg (clamp_unit _).1 (by norm_num [midLightCounts])) ?_ hlimit tint_white
  rcases le_total (1 - (now - a.startingTime) / PreStagingAnim.fadeOutStart) 0 with hdone | hmore
  · rw [clamp_of_nonpos hdone, zero_mul]
    linarith
  · have hle := clamp_le (le_refl (1 - (now - a.startingTime) / PreStagingAnim.fadeOutStart)) hmore
    unfold PreStagingAnim.fadeOutStart at hle ⊢
    unfold midLightCounts
    linarith

theorem glow_nonneg (time : ℚ) {maxValue : ℚ} (h : 0 ≤ maxValue) : 0 ≤ StagingAnim.glow time maxValue :=
  (glow_unit h time).1

/-- Both halves are dark three seconds after the later press. -/
theorem staging_dark {a : StagingAnim} {now : ℚ} (hred : a.redStart + 3 ≤ now) (hblue : a.blueStart + 3 ≤ now)
    (i : ℕ) : (a.pixel now i).color = dark := by
  have hmin : 3 ≤ min (now - a.redStart) (now - a.blueStart) := le_min (by linarith) (by linarith)
  have hmax : clamp (1 - (min (now - a.redStart) (now - a.blueStart) - StagingAnim.fadeOutStart) /
      StagingAnim.fadeOutDuration) 0 1 = 0 := by
    refine clamp_of_nonpos ?_
    unfold StagingAnim.fadeOutStart StagingAnim.fadeOutDuration
    linarith
  have hglow : ∀ time, StagingAnim.glow time 0 = 0 := fun time =>
    le_antisymm (min_le_right _ _) (glow_nonneg time le_rfl)
  simp only [StagingAnim.pixel, hmax, hglow, zero_mul]
  split
  · exact paint_zero tint_red
  · exact paint_zero tint_blue

theorem afterglow_dark {curTime : ℚ} (h : 6 ≤ curTime) (lastColorTime : ℚ) :
    (afterglow curTime lastColorTime).color = dark := by
  have hdown : tween curTime fadeDownStart fadeDownEnd = 1 := by
    refine clamp_of_one_le ?_
    unfold fadeDownStart fadeDownEnd
    linarith
  obtain ⟨hlo, -⟩ := clamp_unit (1 - (curTime - lastColorTime + 1 / 10))
  have hzero : min (max (clamp (1 - (curTime - lastColorTime + 1 / 10)) 0 1 * (9 / 10))
      (tween curTime fadeUpStart fadeUpEnd)) (1 - tween curTime fadeDownStart fadeDownEnd) = 0 := by
    rw [hdown, sub_self]
    exact min_eq_right (le_max_of_le_left (by linarith))
  show (paint (_ * _) fun val => ⟨val, val, val⟩).color = dark
  rw [hzero, zero_mul]
  exact paint_zero tint_white

/-- Once the lights are full up, what was drawn plays no part. -/
theorem afterglow_full {curTime : ℚ} (h : 9 / 2 ≤ curTime) (lastColorTime : ℚ) :
    afterglow curTime lastColorTime =
      paint ((1 - tween curTime fadeDownStart fadeDownEnd) * maxLightCounts) fun val => ⟨val, val, val⟩ := by
  have hup : tween curTime fadeUpStart fadeUpEnd = 1 := by
    refine clamp_of_one_le ?_
    unfold fadeUpStart fadeUpEnd
    rw [le_div_iff₀ (by norm_num)]
    linarith
  have hdown : 0 ≤ tween curTime fadeDownStart fadeDownEnd := (clamp_unit _).1
  have hmin : min (max (clamp (1 - (curTime - lastColorTime + 1 / 10)) 0 1 * (9 / 10))
      (tween curTime fadeUpStart fadeUpEnd)) (1 - tween curTime fadeDownStart fadeDownEnd) =
        1 - tween curTime fadeDownStart fadeDownEnd := by
    rw [hup]
    exact min_eq_right ((by linarith : 1 - tween curTime fadeDownStart fadeDownEnd ≤ 1).trans (le_max_right _ _))
  show paint (_ * _) (fun val => ⟨val, val, val⟩) = _
  rw [hmin]

namespace XmasTree

/-- The brightness of the bars, which flash at every whole second. -/
def beat (curTime : ℚ) : ℚ := clamp (6 / 5 - fmod curTime 1 * (6 / 5) * (fmod curTime 1 * (6 / 5))) 0 1

/-- The region of a row of the strip. -/
def bar (row : ℕ) : ℤ :=
  if 3 ≤ row ∧ row < 15 then 3
  else if 18 ≤ row ∧ row < 30 then 2
  else if 33 ≤ row ∧ row < 45 then 1
  else 0

/-- The innermost loop of the constructor: one region of one column. -/
def fillRegion (base : ℕ) (v : ℤ) (region : Vector ℤ N) : Vector ℤ N :=
  (List.range regionSize).foldl (fun region j => region.setIfInBounds (base + j) v) region

theorem getElem_fillRegion (base : ℕ) (v : ℤ) (region : Vector ℤ N) {i : ℕ} (hi : i < N) :
    (fillRegion base v region)[i] = if base ≤ i ∧ i < base + 12 then v else region[i] := by
  have hstores : ∀ len, ((List.range len).foldl (fun region j => region.setIfInBounds (base + j) v) region)[i] =
      if base ≤ i ∧ i < base + len then v else region[i] := by
    intro len
    induction len with
    | zero => simp
    | succ len ih =>
      rw [List.range_succ, List.foldl_append, List.foldl_cons, List.foldl_nil, Vector.getElem_setIfInBounds hi, ih]
      split_ifs <;> first | rfl | omega
  exact hstores 12

theorem fillColumn_eq (x : ℕ) (region : Vector ℤ N) :
    fillColumn x region =
      fillRegion (x * 48 + 33) 1 (fillRegion (x * 48 + 18) 2 (fillRegion (x * 48 + 3) 3 region)) := rfl

theorem getElem_fillColumn (x : ℕ) (region : Vector ℤ N) {i : ℕ} (hi : i < N) :
    (fillColumn x region)[i] = if i / 48 = x ∧ bar (i % 48) ≠ 0 then bar (i % 48) else region[i] := by
  rw [fillColumn_eq, getElem_fillRegion _ _ _ hi, getElem_fillRegion _ _ _ hi, getElem_fillRegion _ _ _ hi]
  unfold bar
  split_ifs <;> first | rfl | omega

/-- Every column has the same three bars, twelve pixels each and three apart. -/
theorem dootRegion_eq {i : ℕ} (hi : i < N) : dootRegion[i]! = bar (i % 48) := by
  have hcolumns : ∀ k, ((List.range k).foldl (fun region x => fillColumn x region) (Vector.replicate N 0))[i] =
      if i / 48 < k then bar (i % 48) else 0 := by
    intro k
    induction k with
    | zero => simp
    | succ k ih =>
      rw [List.range_succ, List.foldl_append, List.foldl_cons, List.foldl_nil, getElem_fillColumn _ _ hi, ih]
      split_ifs <;> first | rfl | omega
  have hcolumn : i / 48 < numHorizontal := by
    have hlength : N = 384 := rfl
    have height : numHorizontal = 8 := rfl
    omega
  have hall := hcolumns numHorizontal
  rw [if_pos hcolumn] at hall
  rw [getElem!_pos dootRegion i hi]
  exact hall

theorem bar_mem (row : ℕ) : bar row ∈ [(0 : ℤ), 1, 2, 3] := by
  unfold bar
  split_ifs <;> decide

theorem dootRegion_mem (i : Fin N) : dootRegion[i.val]! ∈ [(0 : ℤ), 1, 2, 3] := by
  rw [dootRegion_eq i.isLt]
  exact bar_mem _

theorem fmod_one {q : ℚ} (h : 0 ≤ q) : fmod q 1 = Int.fract q := by
  rw [fmod, div_one, truncate_of_nonneg h, mul_one, Int.fract]

theorem pixel_color (a : XmasTree) (now : ℚ) (i : ℕ) :
    (a.pixel now i).color =
      if now - a.start < dootRegion[i]! then (paint (beat (now - a.start) * maxLightCounts) fun val => ⟨val, val, 0⟩).color
      else dark := by
  have hdark : castUInt8 (0 * maxLightCounts) = 0 := by
    rw [zero_mul]
    decide
  simp only [XmasTree.pixel, hdark, gt_iff_lt]
  split
  · rfl
  · decide

/-- The bars are dark for the last twelfth of every second. -/
theorem beat_dark {curTime : ℚ} (h0 : 0 ≤ curTime) (h : 11 / 12 ≤ Int.fract curTime) : beat curTime = 0 := by
  rw [beat, fmod_one h0]
  refine clamp_of_nonpos ?_
  nlinarith

/-- After three seconds no bar is left, and just before there is no light in any. -/
theorem pixel_dark {a : XmasTree} {now : ℚ} (h : a.start + 35 / 12 ≤ now) (i : Fin N) : (a.pixel now i).color = dark := by
  rw [pixel_color]
  split
  case isTrue hlit =>
    have hregion : dootRegion[i.val]! ≤ 3 := by
      have hmem := dootRegion_mem i
      simp only [List.mem_cons, List.not_mem_nil, or_false] at hmem
      omega
    have hlate : now - a.start < 3 := hlit.trans_le (by exact_mod_cast hregion)
    have hsecond : ⌊now - a.start⌋ = 2 := by
      rw [Int.floor_eq_iff]
      push_cast
      constructor <;> linarith
    have hbeat : beat (now - a.start) = 0 := by
      refine beat_dark (by linarith) ?_
      rw [Int.fract, hsecond]
      push_cast
      linarith
    rw [hbeat, zero_mul]
    exact paint_zero tint_yellow
  case isFalse => rfl

end XmasTree

/-! ### Frames of a run -/

namespace LitRun

/-- When iteration `n` reads the clock for its colours. -/
def colorTime (r : LitRun) (n : ℕ) : ℚ := (r.state n).colorReading (r.input n)

/-- Pixel `i` of the colours iteration `n` shows. -/
def shownPixel (r : LitRun) (n : ℕ) (i : Fin N) : ColorTriplet := (r.output n).colors.get i

/-- A frame shows the object its `Tick` leaves behind. -/
theorem shownPixel_eq (r : LitRun) (n : ℕ) (i : Fin N) :
    r.shownPixel n i = ((r.state (n + 1)).state.pixel (r.scene (n + 1)).lights (r.colorTime n) i).color := by
  show ((r.scene (n + 1)).loop.state.getColors (r.scene (n + 1)).lights
    ((r.scene n).loop.colorReading (r.input n))).get i = _
  rw [scene_loop, scene_loop]
  simp [LedAnimation.getColors, colorTime]

theorem time_le_colorTime (r : LitRun) (n : ℕ) : r.time n ≤ r.colorTime n := r.ordered n (Nat.zero_le _)

theorem colorTime_le_time (r : LitRun) (n : ℕ) : r.colorTime n ≤ r.time (n + 1) := r.follows n _ 0

theorem colorTime_mono (r : LitRun) : Monotone r.colorTime :=
  monotone_nat_of_le_succ fun n => (r.colorTime_le_time n).trans (r.time_le_colorTime (n + 1))

/-- The object a frame shows was built before its colours were read. -/
theorem entryTime_le_colorTime (r : LitRun) (n : ℕ) : r.entryTime (n + 1) ≤ r.colorTime n :=
  (r.entryTime_le n).2.trans (r.ordered n (Nat.le_add_right _ _))

variable {r : LitRun} {gap : ℚ}

/-- A press that is past after a short round was on record before it. -/
theorem latched_before {t now now' d : ℚ} {pressed : Bool} (hshort : now' ≤ now + d)
    (h : d < now' - if now < t ∧ pressed = true then now else t) : t + d < now' := by
  split at h <;> linarith

/-- **Fades end before their states do.** With rounds of at most a twelfth of a second, the
last frame before the machine goes on by itself is dark, be it on from the staging, the
dimmed lights or the countdown; the last frame before the staging has 6 counts at most. -/
theorem handover {n : ℕ} (hpaced : Paced r.time gap (n + 2)) (hgap : gap ≤ 1 / 12)
    (hleaves : r.phase (n + 2) ≠ r.phase (n + 1))
    (htimed : r.phase (n + 1) ∈ [ArenaState.PreStaging, .Staging, .PreCountdown, .Countdown]) (i : Fin N) :
    Dim 6 (r.shownPixel n i) ∧ (r.phase (n + 1) ≠ .PreStaging → r.shownPixel n i = dark) := by
  have hround := hpaced.within n (by omega)
  have hround' := hpaced.within (n + 1) (by omega)
  have hframe := r.time_le_colorTime n
  have hread : ∀ j, (r.input (n + 1)).now j ≤ r.time (n + 2) := fun j => r.follows (n + 1) j 0
  obtain ⟨a, q, b, p, k, ha, -, hb, -, -, ht⟩ := r.observe (n + 1)
  have hfrom : r.phase (n + 1) = a.arenaState := congrArg LedAnimation.arenaState ha
  have hto : r.phase (n + 2) = b.arenaState := congrArg LedAnimation.arenaState hb
  have hall : ∀ {c : ColorTriplet}, c = dark → Dim 6 c ∧ (a.arenaState ≠ .PreStaging → c = dark) :=
    fun hc => ⟨dim_of_dark hc, fun _ => hc⟩
  rw [hfrom] at hleaves htimed ⊢
  rw [hto] at hleaves
  rw [shownPixel_eq, ha]
  cases ht with
  | stage a q pressed =>
    have hnow := hread 1
    rw [Arithmetic.exact_seconds, PreStagingAnim.latch_startingTime] at pressed
    have hpressed := latched_before (by linarith) pressed
    refine ⟨preStaging_dim (by linarith) ?_ (by decide), fun hother => absurd rfl hother⟩
    push_cast
    linarith
  | dim a q red blue =>
    have hnow1 := hread 1
    have hnow2 := hread 2
    rw [Arithmetic.exact_seconds, StagingAnim.latch_redStart] at red
    rw [Arithmetic.exact_seconds, StagingAnim.latch_blueStart] at blue
    have hred := latched_before (by linarith) red
    have hblue := latched_before (by linarith) blue
    exact hall (staging_dark (by linarith) (by linarith) i)
  | countDown a q elapsed =>
    have hnow := hread 0
    rw [Arithmetic.exact_seconds] at elapsed
    exact hall (afterglow_dark (by linarith) _)
  | start a q elapsed =>
    have hnow : r.time (n + 1) = (r.input (n + 1)).now 0 := rfl
    rw [Arithmetic.exact_seconds] at elapsed
    exact hall (XmasTree.pixel_dark (by linarith) i)
  | awaitReferee | awaitTeams | animate | count => exact absurd rfl hleaves
  | fight | tapOut | pause | hold | resume | abandon | rest | restart => simp [LedAnimation.arenaState] at htimed

/-- A run with a round every twelfth of a second, each with one clock reading, for a
minute and more; then the clock stands still. -/
def twelfths (redButton blueButton refButton : ℕ → Bool) : LitRun where
  began := 0
  input := fun n =>
    { redButton := redButton n
      blueButton := blueButton n
      refButton := refButton n
      resetButton := false
      now := fun _ => (min n 1000 : ℕ) / 12
      remTime := 0 }
  ordered := fun _ _ _ _ => le_refl _
  follows := fun n _ _ => by
    have h : min n 1000 ≤ min (n + 1) 1000 := by omega
    have hq : ((min n 1000 : ℕ) : ℚ) ≤ (min (n + 1) 1000 : ℕ) := by exact_mod_cast h
    linarith
  after := fun _ => by simp
  representable := fun n _ => by
    have h : min n 1000 ≤ 1000 := Nat.min_le_right ..
    have hq : ((min n 1000 : ℕ) : ℚ) ≤ 1000 := by exact_mod_cast h
    calc ((min n 1000 : ℕ) : ℚ) / 12 ≤ 1000 := by linarith
      _ ≤ timePointMax := by norm_num [timePointMax]
  rng := fun _ _ => .origin

theorem twelfths_paced (red blue ref : ℕ → Bool) (N : ℕ) : Paced (twelfths red blue ref).time (1 / 12) N where
  mono := Run.time_mono _
  gap_nonneg := by norm_num
  within n _ := by
    show ((min (n + 1) 1000 : ℕ) : ℚ) / 12 ≤ ((min n 1000 : ℕ) : ℚ) / 12 + 1 / 12
    have h : min (n + 1) 1000 ≤ min n 1000 + 1 := by omega
    have hq : ((min (n + 1) 1000 : ℕ) : ℚ) ≤ (min n 1000 : ℕ) + 1 := by exact_mod_cast h
    linarith

/-- The lights of a staging that both teams are ready for at once, when it is left. -/
theorem handover_staging :
    (twelfths (· == 20) (· == 20) (· == 0)).shownPixel 62 ⟨7, by decide⟩ = dark :=
  (handover (twelfths_paced _ _ _ 64) le_rfl (by decide +kernel) (by decide +kernel) ⟨7, by decide⟩).2 (by decide +kernel)

/-! ### Draws -/

/-- What a frame shows does not depend on the lights, once they are full up. -/
theorem pixel_confined {a : LedAnimation} {now : ℚ} (h : a.arenaState = .PreCountdown → a.start + 9 / 2 ≤ now)
    (lights lights' : Lights) (i : ℕ) : a.pixel lights' now i = a.pixel lights now i := by
  cases a with
  | preCountdownAnimation a =>
    have hup : a.start + 9 / 2 ≤ now := h rfl
    show afterglow (now - a.start) lights'.lastColorTime[i]! = afterglow (now - a.start) lights.lastColorTime[i]!
    rw [afterglow_full (by linarith), afterglow_full (by linarith)]
  | _ => rfl

/-- **Draws stay where they belong.** Whatever two executions of a run draw for their particles,
the button LEDs and the displays are the same in every iteration, and so is the strip, but
for the first four and a half seconds of the dimmed lights. -/
theorem draws_confined (run : Run) (rng rng' : ℕ → ℕ → Draw) (n : ℕ) :
    (LitRun.output ⟨run, rng'⟩ n).buttonLeds = (LitRun.output ⟨run, rng⟩ n).buttonLeds ∧
      (LitRun.output ⟨run, rng'⟩ n).segmentLed = (LitRun.output ⟨run, rng⟩ n).segmentLed ∧
      ((run.phase (n + 1) = .PreCountdown → run.entryTime (n + 1) + 9 / 2 ≤ LitRun.colorTime ⟨run, rng⟩ n) →
        (LitRun.output ⟨run, rng'⟩ n).colors = (LitRun.output ⟨run, rng⟩ n).colors) := by
  refine ⟨?_, ?_, fun hup => ?_⟩
  · show ((LitRun.scene ⟨run, rng'⟩ (n + 1)).loop.state).getButtonLeds = ((LitRun.scene ⟨run, rng⟩ (n + 1)).loop.state).getButtonLeds
    rw [scene_loop, scene_loop]
  · rw [output_segmentLed, output_segmentLed]
  · refine Vector.ext fun i hi => ?_
    have hpixel := congrArg Pixel.color (pixel_confined hup (LitRun.scene ⟨run, rng⟩ (n + 1)).lights
      (LitRun.scene ⟨run, rng'⟩ (n + 1)).lights i)
    have hshown := shownPixel_eq ⟨run, rng⟩ n ⟨i, hi⟩
    have hshown' := shownPixel_eq ⟨run, rng'⟩ n ⟨i, hi⟩
    exact hshown'.trans (hpixel.trans hshown.symm)

/-- Five seconds into the dimmed lights, with all particles in one place or in another. -/
theorem draws_confined_flash :
    (LitRun.output ⟨(twelfths (· == 20) (· == 20) (· == 0)).toRun, fun _ _ => ⟨3, 5, by decide, by decide⟩⟩ 123).colors =
      (LitRun.output ⟨(twelfths (· == 20) (· == 20) (· == 0)).toRun, fun _ _ => .origin⟩ 123).colors :=
  (draws_confined _ _ _ 123).2.2 fun _ => by decide +kernel

/-! ### Lights that go out -/

/-- The states that begin lit and go dark, in three seconds. -/
def Fading (s : ArenaState) : Prop := s = .Fighting ∨ s = .Paused ∨ s = .End

/-- What a brightness looks like there. -/
def fadingColor (s : ArenaState) (val : UInt8) : ColorTriplet :=
  if s = .Fighting then ⟨0, val, 0⟩ else ⟨val, val, 0⟩

theorem fading_pixel {a : LedAnimation} (h : Fading a.arenaState) (lights : Lights) (now : ℚ) (i : ℕ) :
    (a.pixel lights now i).color =
      fadingColor a.arenaState (castUInt8 (fadeOut (now - a.start) * maxLightCounts)) := by
  cases a with
  | fighting | pausedAnim | endAnim => rfl
  | _ => simp [Fading, LedAnimation.arenaState] at h

theorem fadingColor_mono (s : ArenaState) {val val' : UInt8} (h : val ≤ val') :
    NoBrighter (fadingColor s val) (fadingColor s val') := by
  unfold fadingColor
  split
  · exact ⟨UInt8.le_refl _, h, UInt8.le_refl _⟩
  · exact ⟨h, h, UInt8.le_refl _⟩

theorem fadingColor_dark (s : ArenaState) : fadingColor s (castUInt8 (0 * maxLightCounts)) = dark := by
  have hzero : castUInt8 0 = 0 := by decide
  rw [zero_mul, hzero]
  unfold fadingColor
  split <;> rfl

theorem fading_dark {a : LedAnimation} (h : Fading a.arenaState) {now : ℚ} (hlate : a.start + 3 ≤ now) (lights : Lights)
    (i : ℕ) : (a.pixel lights now i).color = dark := by
  have hout : fadeOut (now - a.start) = 0 := clamp_of_nonpos (by linarith)
  rw [fading_pixel h, hout, fadingColor_dark]

/-- A frame is described by its state and how long that lasts. -/
theorem shown_fading {n : ℕ} (h : Fading (r.phase (n + 1))) (i : Fin N) :
    r.shownPixel n i = fadingColor (r.phase (n + 1))
      (castUInt8 (fadeOut (r.colorTime n - r.entryTime (n + 1)) * maxLightCounts)) := by
  rw [shownPixel_eq]
  exact fading_pixel h _ _ _

theorem entryTime_constant {m n : ℕ} (hmn : m ≤ n) (hstays : Stays r.phase m n) : r.entryTime m = r.entryTime n := by
  refine hstays.constant hmn fun k hk hnext => r.entryTime_succ k ?_
  rw [hnext, hk]

/-- **A fade goes one way.** In a fight, a pause or at the end, no frame of the visit is
brighter anywhere than an earlier one, every pixel is the same, and from three seconds
after the entry on all is dark. -/
theorem fades {m n : ℕ} (hmn : m ≤ n) (hstays : Stays r.phase (m + 1) (n + 1)) (h : Fading (r.phase (n + 1)))
    (i : Fin N) :
    NoBrighter (r.shownPixel n i) (r.shownPixel m i) ∧ (∀ j, r.shownPixel n j = r.shownPixel n i) ∧
      (r.entryTime (n + 1) + 3 ≤ r.colorTime n → r.shownPixel n i = dark) := by
  have hsame : r.phase (m + 1) = r.phase (n + 1) := hstays _ le_rfl (by omega)
  have hentry : r.entryTime (m + 1) = r.entryTime (n + 1) := entryTime_constant (by omega) hstays
  have hlater := r.colorTime_mono hmn
  have hunit := fun q : ℚ => clamp_unit (1 - q / 3)
  refine ⟨?_, fun j => ?_, fun hover => ?_⟩
  · rw [shown_fading h, shown_fading (hsame ▸ h), hsame, hentry]
    refine fadingColor_mono _ (castUInt8_mono ?_ ?_ ?_)
    · exact mul_nonneg (hunit _).1 (by norm_num [maxLightCounts])
    · refine mul_le_mul_of_nonneg_right (clamp_mono ?_) (by norm_num [maxLightCounts])
      linarith
    · have hle := (hunit (r.colorTime m - r.entryTime (n + 1))).2
      unfold fadeOut maxLightCounts
      linarith
  · rw [shown_fading h, shown_fading h]
  · rw [shownPixel_eq]
    exact fading_dark h hover _ _

/-- The pause at 28 s, a round later. -/
theorem fades_interrupted :
    NoBrighter ((LitRun.mk Run.interrupted fun _ _ => .origin).shownPixel 8 ⟨7, by decide⟩)
        ((LitRun.mk Run.interrupted fun _ _ => .origin).shownPixel 7 ⟨7, by decide⟩) ∧
      (LitRun.mk Run.interrupted fun _ _ => .origin).shownPixel 8 ⟨7, by decide⟩ = dark := by
  have hstays : Stays Run.interrupted.phase 8 9 := by
    intro k hk hk'
    interval_cases k <;> decide +kernel
  have hpaused : Run.interrupted.phase 9 = .Paused := by decide +kernel
  obtain ⟨hless, -, hover⟩ := fades (r := ⟨Run.interrupted, fun _ _ => .origin⟩) (m := 7) (n := 8) (by decide) hstays
    (.inr (.inl hpaused)) ⟨7, by decide⟩
  exact ⟨hless, hover (by decide +kernel)⟩

/-! ### Lights that come up -/

/-- The half that pixel `i` is in shows the team's brightness. -/
theorem staging_color (a : StagingAnim) (now : ℚ) (i : ℕ) :
    (a.pixel now i).color =
      let maxValue := clamp (1 - (min (now - a.redStart) (now - a.blueStart) - StagingAnim.fadeOutStart) /
        StagingAnim.fadeOutDuration) 0 1
      if i < N / 2 then ⟨castUInt8 (StagingAnim.glow (now - a.redStart) maxValue * maxLightCounts), 0, 0⟩
      else ⟨0, 0, castUInt8 (StagingAnim.glow (now - a.blueStart) maxValue * maxLightCounts)⟩ := by
  unfold StagingAnim.pixel
  dsimp only
  split <;> rfl

/-- Nothing is dimmed until a second and a half after the later press. -/
theorem undimmed {minTime : ℚ} (h : minTime ≤ 3 / 2) :
    clamp (1 - (minTime - StagingAnim.fadeOutStart) / StagingAnim.fadeOutDuration) 0 1 = 1 := by
  refine clamp_of_one_le ?_
  unfold StagingAnim.fadeOutStart StagingAnim.fadeOutDuration
  linarith

/-- A team's glow grows with the time since its press. -/
theorem glow_mono {time time' : ℚ} (h : time ≤ time') (maxValue : ℚ) :
    StagingAnim.glow time maxValue ≤ StagingAnim.glow time' 1 := by
  obtain ⟨hlo, -⟩ := clamp_unit (time' * time')
  unfold StagingAnim.glow
  refine le_min ((min_le_left _ _).trans ?_) ((min_le_left _ _).trans ?_)
  · split
    case isTrue hpos =>
      have hpos' : time' > 0 := lt_of_lt_of_le hpos h
      have hsquare : clamp (time * time) 0 1 ≤ clamp (time' * time') 0 1 := clamp_mono (by nlinarith)
      rw [if_pos hpos']
      linarith
    case isFalse =>
      split <;> linarith
  · have hle := (clamp_unit (time * time)).2
    split <;> linarith

theorem glow_unpressed {time : ℚ} (h : time ≤ 0) : StagingAnim.glow time 1 = 1 / 10 := by
  unfold StagingAnim.glow
  rw [if_neg (not_lt.mpr h)]
  norm_num

/-- Latches only ever go back in time. -/
theorem latched_antitone {m n : ℕ} (hmn : m ≤ n) (hstays : Stays r.phase m n) {a : StagingAnim}
    (ha : (r.state n).state = .stagingAnim a) :
    ∃ a', (r.state m).state = .stagingAnim a' ∧ a.redStart ≤ a'.redStart ∧ a.blueStart ≤ a'.blueStart := by
  induction n, hmn using Nat.le_induction generalizing a with
  | base => exact ⟨a, ha, le_rfl, le_rfl⟩
  | succ n hmn ih =>
    obtain ⟨a', q, b, p, k, ha', -, hb, -, -, ht⟩ := r.observe n
    have hsame : a'.arenaState = .Staging := by
      rw [← ha']
      show r.phase n = _
      rw [hstays n hmn (Nat.le_succ n)]
      exact congrArg LedAnimation.arenaState ha
    rw [hb] at ha
    cases ht with
    | awaitTeams a' q waits =>
      obtain rfl := LedAnimation.stagingAnim.inj ha
      obtain ⟨a'', ha'', hred, hblue⟩ := ih (hstays.upTo hmn (Nat.le_succ n)) ha'
      rw [StagingAnim.latch_redStart, StagingAnim.latch_blueStart]
      exact ⟨a'', ha'', Run.latch_le.1.trans hred, Run.latch_le.1.trans hblue⟩
    | dim => cases ha
    | _ => cases hsame

/-- A button that was not pressed in the visit is not on record. -/
theorem sentinel_of_unpressed {button : Iteration → Bool} {t : ℚ} {n : ℕ} (h : r.Latched button t n)
    (hnone : ¬ During r.phase (fun j => button (r.input j) = true) n) : t = timePointMax := by
  rcases h with hmax | ⟨m, hm, hstays, hpress, -⟩
  · exact hmax
  · exact absurd ⟨m, hm, hstays, hpress⟩ hnone

/-- **The staging only brightens** until both teams are ready: no frame is darker anywhere
than an earlier one of the visit, and the half of a team that has not pressed is at 12
counts. -/
theorem staging_rises {m n : ℕ} (hmn : m ≤ n) (hstays : Stays r.phase (m + 1) (n + 1))
    (h : r.phase (n + 1) = .Staging)
    (hwaits : ¬ (During r.phase (fun j => (r.input j).redButton = true) (n + 1) ∧
      During r.phase (fun j => (r.input j).blueButton = true) (n + 1))) (i : Fin N) :
    NoBrighter (r.shownPixel m i) (r.shownPixel n i) ∧
      (¬ During r.phase (fun j => (r.input j).redButton = true) (n + 1) → i < N / 2 → r.shownPixel n i = ⟨12, 0, 0⟩) ∧
      (¬ During r.phase (fun j => (r.input j).blueButton = true) (n + 1) → N / 2 ≤ i.val →
        r.shownPixel n i = ⟨0, 0, 12⟩) := by
  have hmem := r.remembers (n + 1)
  have hmax : r.colorTime n ≤ timePointMax := r.representable n _
  have hlater := r.colorTime_mono hmn
  have htwelve : castUInt8 (1 / 10 * maxLightCounts) = 12 := by decide +kernel
  cases ha : (r.state (n + 1)).state with
  | stagingAnim a =>
    rw [ha] at hmem
    obtain ⟨a', ha', hred, hblue⟩ := latched_antitone (by omega) hstays ha
    have hfull : clamp (1 - (min (r.colorTime n - a.redStart) (r.colorTime n - a.blueStart) - StagingAnim.fadeOutStart) /
        StagingAnim.fadeOutDuration) 0 1 = 1 := by
      refine undimmed ?_
      rcases not_and_or.mp hwaits with hnone | hnone
      · have hsentinel := sentinel_of_unpressed hmem.1 hnone
        exact (min_le_left _ _).trans (by linarith)
      · have hsentinel := sentinel_of_unpressed hmem.2 hnone
        exact (min_le_right _ _).trans (by linarith)
    have hglow : ∀ {time time' maxValue : ℚ}, time ≤ time' → 0 ≤ maxValue →
        castUInt8 (StagingAnim.glow time maxValue * maxLightCounts) ≤ castUInt8 (StagingAnim.glow time' 1 * maxLightCounts) := by
      intro time time' maxValue hle hpos
      have hunit := (glow_unit (zero_le_one' ℚ) time').2
      refine castUInt8_mono (mul_nonneg (glow_nonneg time hpos) (by norm_num [maxLightCounts]))
        (mul_le_mul_of_nonneg_right (glow_mono hle maxValue) (by norm_num [maxLightCounts])) ?_
      unfold maxLightCounts
      linarith
    rw [shownPixel_eq, shownPixel_eq, ha, ha']
    show NoBrighter (a'.pixel _ _).color (a.pixel _ _).color ∧ (_ → _ → (a.pixel _ _).color = _) ∧
      (_ → _ → (a.pixel _ _).color = _)
    rw [staging_color, staging_color, hfull]
    refine ⟨?_, fun hnone hi => ?_, fun hnone hi => ?_⟩
    · dsimp only
      split
      · exact ⟨hglow (by linarith) (clamp_unit _).1, UInt8.le_refl _, UInt8.le_refl _⟩
      · exact ⟨UInt8.le_refl _, UInt8.le_refl _, hglow (by linarith) (clamp_unit _).1⟩
    · have hsentinel := sentinel_of_unpressed hmem.1 hnone
      dsimp only
      rw [if_pos hi, glow_unpressed (by linarith), htwelve]
    · have hsentinel := sentinel_of_unpressed hmem.2 hnone
      dsimp only
      rw [if_neg (not_lt.mpr hi), glow_unpressed (by linarith), htwelve]
  | _ =>
    rw [Run.phase, ha] at h
    cases h

/-- Red pressed at 8 s; blue lets it wait. -/
theorem staging_rises_waiting :
    NoBrighter ((LitRun.mk (Run.paced (· == 2) (fun _ => false) (· == 0) (fun _ => false) fun _ => 0)
        fun _ _ => .origin).shownPixel 1 ⟨7, by decide⟩)
      ((LitRun.mk (Run.paced (· == 2) (fun _ => false) (· == 0) (fun _ => false) fun _ => 0)
        fun _ _ => .origin).shownPixel 4 ⟨7, by decide⟩) := by
  have hstays : Stays (Run.paced (· == 2) (fun _ => false) (· == 0) (fun _ => false) fun _ => 0).phase 2 5 := by
    intro k hk hk'
    interval_cases k <;> decide +kernel
  refine (staging_rises (m := 1) (n := 4) (by decide) hstays (by decide +kernel) ?_ _).1
  rintro ⟨-, j, -, -, hpressed⟩
  cases hpressed

end LitRun

end Botgeddon.Arena
