import Botgeddon.Arena.Animations
import Botgeddon.Arena.Lights
import Botgeddon.Strip.LedSegment

/-! What the strip and the button LEDs are given.

Brightness is computed between 0 and 1, scaled to counts and cast to a byte, all in
exact rationals. The cast of a negative number, or of 256 and more, is undefined, so a
`Pixel` keeps the operands of its casts beside the colour they make. -/
namespace Botgeddon.Arena
open Conversions
open LedAnimation (numVertical numHorizontal N)
open Strip (ColorTriplet)

def maxLightCounts : ℚ := 120
def midLightCounts : ℚ := 60

/-- `std::clamp`, as the file defines it. -/
def clamp (x lower upper : ℚ) : ℚ := min upper (max x lower)

/-- `tween`; `stop` is its parameter `end`. -/
def tween (t start stop : ℚ) : ℚ := clamp ((t - start) / (stop - start)) 0 1

/-- `std::fmod`. -/
def fmod (x y : ℚ) : ℚ := x - truncate (x / y) * y

/-- `static_cast<uint8_t>`, where it is defined. -/
def castUInt8 (q : ℚ) : UInt8 := toByte (truncate q)

structure Pixel where
  color : ColorTriplet
  casts : List ℚ

/-- `auto val = static_cast<uint8_t>(operand)`, and a colour made of it. -/
def paint (operand : ℚ) (color : UInt8 → ColorTriplet) : Pixel := ⟨color (castUInt8 operand), [operand]⟩

/-! ### `GetColors`, class by class -/

def PreStagingAnim.pixel (self : PreStagingAnim) (now : ℚ) : Pixel :=
  let curTime := now - self.start
  let timeSinceDoot := curTime / 3
  let startingTime := now - self.startingTime
  let dootiness :=
    if startingTime > 0 then clamp (1 - startingTime / fadeOutStart) 0 1
    else clamp (timeSinceDoot / fadeOutStart) 0 1
  paint (dootiness * midLightCounts) fun val => ⟨val, val, val⟩

namespace StagingAnim

def fadeOutStart : ℚ := 3 / 2
def fadeOutDuration : ℚ := 3 / 2

/-- The brightness of a team's half, `time` after its press; both halves compute it alike. -/
def glow (time maxValue : ℚ) : ℚ :=
  let s := if time > 0 then clamp (time * time) 0 1 * (9 / 10) + 1 / 10 else 1 / 10
  min s maxValue

def pixel (self : StagingAnim) (now : ℚ) (i : ℕ) : Pixel :=
  let redTime := now - self.redStart
  let blueTime := now - self.blueStart
  let minTime := min redTime blueTime
  let maxValue := clamp (1 - (minTime - fadeOutStart) / fadeOutDuration) 0 1
  if i < N / 2 then paint (glow redTime maxValue * maxLightCounts) fun val => ⟨val, 0, 0⟩
  else paint (glow blueTime maxValue * maxLightCounts) fun val => ⟨0, 0, val⟩

end StagingAnim

/-! `PreCountdownAnimation` and `WooWoosha` fade at the same times, and end `GetColors` alike. -/

def fadeUpStart : ℚ := 3
def fadeUpEnd : ℚ := 9 / 2
def fadeDownStart : ℚ := 5
def fadeDownEnd : ℚ := 6

def afterglow (curTime lastColorTime : ℚ) : Pixel :=
  let minBrightness := tween curTime fadeUpStart fadeUpEnd
  let maxBrightness := 1 - tween curTime fadeDownStart fadeDownEnd
  let timeSince := curTime - lastColorTime
  let juice := clamp (1 - (timeSince + 1 / 10)) 0 1 * (9 / 10)
  paint (min (max juice minBrightness) maxBrightness * maxLightCounts) fun val => ⟨val, val, val⟩

/-- From the members as the loops leave them. -/
def PreCountdownAnimation.pixel (self : PreCountdownAnimation) (lights : Lights) (now : ℚ) (i : ℕ) : Pixel :=
  afterglow (now - self.start) lights.lastColorTime[i]!

/-- From the members as the loop leaves them. -/
def WooWoosha.pixel (self : WooWoosha) (curTime : ℚ) (i : ℕ) : Pixel :=
  afterglow curTime self.lastColorTime[i]!

namespace XmasTree

def regionPadding : ℕ := 3
def outSizeSpacing : ℕ := 5
def numRegions : ℕ := 3
def regionSize : ℕ := (numVertical - outSizeSpacing - (numRegions - 1) * regionPadding) / numRegions

/-- One column of `_dootRegion`, region by region, from the pixel `startPx`. -/
def fillColumn (x : ℕ) (region : Vector ℤ N) : Vector ℤ N :=
  let startPx := numVertical / 2 - (regionSize * numRegions + regionPadding * (numRegions - 1)) / 2
  ((List.range numRegions).foldl (fun (region, startPx) i =>
    ((List.range regionSize).foldl (fun region j =>
      region.setIfInBounds (x * numVertical + startPx + j) (3 - i)) region,
      startPx + (regionSize + regionPadding))) (region, startPx)).1

/-- `_dootRegion`, which the constructor fills the same for every object. -/
def dootRegion : Vector ℤ N :=
  (List.range numHorizontal).foldl (fun region x => fillColumn x region) (Vector.replicate N 0)

def pixel (self : XmasTree) (now : ℚ) (i : ℕ) : Pixel :=
  let curTime := now - self.start
  let timeSinceDoot := fmod curTime 1 * (6 / 5)
  let dootiness := clamp (6 / 5 - timeSinceDoot * timeSinceDoot) 0 1
  let ambientVal := 0
  if (dootRegion[i]! : ℚ) > curTime then paint (dootiness * maxLightCounts) fun val => ⟨val, val, 0⟩
  else
    let val := castUInt8 (ambientVal * maxLightCounts)
    ⟨⟨val, val, castUInt8 (val.toNat / 4 : ℕ)⟩, [ambientVal * maxLightCounts, (val.toNat / 4 : ℕ)]⟩

end XmasTree

/-- The fade `Fighting`, `PausedAnim` and `End` begin with. -/
def fadeOut (curTime : ℚ) : ℚ :=
  let timeSinceDoot := curTime / 3
  clamp (1 - timeSinceDoot) 0 1

def Fighting.pixel (self : Fighting) (now : ℚ) : Pixel :=
  paint (fadeOut (now - self.start) * maxLightCounts) fun val => ⟨0, val, 0⟩

def PausedAnim.pixel (self : PausedAnim) (now : ℚ) : Pixel :=
  paint (fadeOut (now - self.start) * maxLightCounts) fun val => ⟨val, val, 0⟩

def End.pixel (self : End) (now : ℚ) : Pixel :=
  paint (fadeOut (now - self.start) * maxLightCounts) fun val => ⟨val, val, 0⟩

namespace LedAnimation

/-- Pixel `i` of the colours `GetColors` returns at `now`. -/
def pixel (lights : Lights) (now : ℚ) (i : ℕ) : LedAnimation → Pixel
  | .preStagingAnim a => a.pixel now
  | .stagingAnim a => a.pixel now i
  | .preCountdownAnimation a => a.pixel lights now i
  | .xmasTree a => a.pixel now i
  | .fighting a => a.pixel now
  | .pausedAnim a => a.pixel now
  | .endAnim a => a.pixel now

/-- `GetColors` at `now`, from the members as its loops leave them. -/
def getColors (lights : Lights) (now : ℚ) (a : LedAnimation) : Vector ColorTriplet N :=
  Vector.ofFn fun i => (a.pixel lights now i).color

/-- `GetButtonLeds`: the red button's and the blue one's. -/
def getButtonLeds : LedAnimation → Bool × Bool
  | .stagingAnim a => (a.redStart = timePointMax, a.blueStart = timePointMax)
  | .fighting _ => (true, true)
  | _ => (false, false)

end LedAnimation

/-! ### The budget -/

/-- No cast is undefined or wraps, its operand being in range, and no channel is above the limit. -/
structure Pixel.Within (limit : ℕ) (p : Pixel) : Prop where
  casts : ∀ q ∈ p.casts, 0 ≤ q ∧ q ≤ limit ∧ ((castUInt8 q).toNat : ℤ) = truncate q
  r : p.color.r.toNat ≤ limit
  g : p.color.g.toNat ≤ limit
  b : p.color.b.toNat ≤ limit

theorem clamp_unit (x : ℚ) : 0 ≤ clamp x 0 1 ∧ clamp x 0 1 ≤ 1 :=
  ⟨le_min (by norm_num) (le_max_right _ _), min_le_left _ _⟩

theorem castUInt8_toNat {q : ℚ} (h0 : 0 ≤ q) (h : q < 256) : ((castUInt8 q).toNat : ℤ) = truncate q := by
  have hlo : 0 ≤ truncate q := by
    rw [truncate_of_nonneg h0]
    exact Int.floor_nonneg.mpr h0
  have hhi : truncate q < 256 := by exact_mod_cast (truncate_le h0).trans_lt h
  rw [castUInt8, toByte_toNat]
  exact Int.emod_eq_of_lt hlo hhi

theorem castUInt8_le {q : ℚ} {limit : ℕ} (h0 : 0 ≤ q) (h : q ≤ limit) (hlimit : limit < 256) :
    (castUInt8 q).toNat ≤ limit := by
  have hbyte : q < 256 := h.trans_lt (by exact_mod_cast hlimit)
  have hcast := castUInt8_toNat h0 hbyte
  have hle : (truncate q : ℚ) ≤ limit := (truncate_le h0).trans h
  rw [← hcast] at hle
  exact_mod_cast hle

/-- Every channel is the value or off. -/
def Tint (color : UInt8 → ColorTriplet) : Prop :=
  ∀ val, ∀ channel ∈ [(color val).r, (color val).g, (color val).b], channel = val ∨ channel = 0

/-- A brightness between 0 and 1, scaled to the limit, may be cast and painted. -/
theorem paint_within {limit : ℕ} (hlimit : limit < 256) {q : ℚ} (h : 0 ≤ q ∧ q ≤ 1) {color : UInt8 → ColorTriplet}
    (hcolor : Tint color) : (paint (q * limit) color).Within limit := by
  have h0 : 0 ≤ q * limit := mul_nonneg h.1 limit.cast_nonneg
  have hle : q * limit ≤ limit := mul_le_of_le_one_left limit.cast_nonneg h.2
  have hchannel : ∀ channel : UInt8, channel = castUInt8 (q * limit) ∨ channel = 0 → channel.toNat ≤ limit := by
    rintro channel (rfl | rfl)
    · exact castUInt8_le h0 hle hlimit
    · exact Nat.zero_le _
  refine ⟨fun q' hq' => ?_, ?_, ?_, ?_⟩
  · obtain rfl := List.mem_singleton.mp hq'
    exact ⟨h0, hle, castUInt8_toNat h0 (hle.trans_lt (by exact_mod_cast hlimit))⟩
  all_goals exact hchannel _ (hcolor _ _ (by simp [paint]))

theorem tint_white : Tint fun val => ⟨val, val, val⟩ := by simp [Tint]

theorem tint_red : Tint fun val => ⟨val, 0, 0⟩ := by simp [Tint]

theorem tint_green : Tint fun val => ⟨0, val, 0⟩ := by simp [Tint]

theorem tint_blue : Tint fun val => ⟨0, 0, val⟩ := by simp [Tint]

theorem tint_yellow : Tint fun val => ⟨val, val, 0⟩ := by simp [Tint]

theorem preStaging_within (a : PreStagingAnim) (now : ℚ) : (a.pixel now).Within 60 := by
  show (paint (_ * _) fun val => ⟨val, val, val⟩).Within _
  refine paint_within (by decide) ?_ tint_white
  split <;> exact clamp_unit _

/-- A team that has not pressed yet glows a little, and nobody glows beyond 1. -/
theorem glow_unit {maxValue : ℚ} (h : 0 ≤ maxValue) (time : ℚ) :
    0 ≤ StagingAnim.glow time maxValue ∧ StagingAnim.glow time maxValue ≤ 1 := by
  have hglow : ∀ s : ℚ, 0 ≤ s ∧ s ≤ 1 → 0 ≤ min s maxValue ∧ min s maxValue ≤ 1 :=
    fun s hs => ⟨le_min hs.1 h, (min_le_left _ _).trans hs.2⟩
  refine hglow _ ?_
  obtain ⟨hlo, hhi⟩ := clamp_unit (time * time)
  split
  · constructor <;> linarith
  · norm_num

theorem staging_within (a : StagingAnim) (now : ℚ) (i : ℕ) : (a.pixel now i).Within 120 := by
  unfold StagingAnim.pixel
  split
  · exact paint_within (by decide) (glow_unit (clamp_unit _).1 _) tint_red
  · exact paint_within (by decide) (glow_unit (clamp_unit _).1 _) tint_blue

theorem afterglow_within (curTime lastColorTime : ℚ) : (afterglow curTime lastColorTime).Within 120 := by
  show (paint (_ * _) fun val => ⟨val, val, val⟩).Within _
  refine paint_within (by decide) ?_ tint_white
  obtain ⟨hlo, -⟩ := clamp_unit (1 - (curTime - lastColorTime + 1 / 10))
  obtain ⟨hdown, hdown'⟩ := clamp_unit ((curTime - fadeDownStart) / (fadeDownEnd - fadeDownStart))
  have hjuice : 0 ≤ clamp (1 - (curTime - lastColorTime + 1 / 10)) 0 1 * (9 / 10) := by linarith
  have hmax : 0 ≤ 1 - tween curTime fadeDownStart fadeDownEnd ∧
      1 - tween curTime fadeDownStart fadeDownEnd ≤ 1 := by
    unfold tween
    constructor <;> linarith
  exact ⟨le_min (hjuice.trans (le_max_left _ _)) hmax.1, (min_le_right _ _).trans hmax.2⟩

theorem countdown_within (a : XmasTree) (now : ℚ) (i : ℕ) : (a.pixel now i).Within 120 := by
  have hdark : castUInt8 (0 * maxLightCounts) = 0 := by
    rw [zero_mul]
    decide
  have hambient : Pixel.Within 120 ⟨⟨0, 0, castUInt8 ((0 : UInt8).toNat / 4 : ℕ)⟩,
      [0 * maxLightCounts, ((0 : UInt8).toNat / 4 : ℕ)]⟩ := by
    refine ⟨fun q hq => ?_, by decide, by decide, by decide⟩
    have hzero : q = 0 := by simpa using hq
    rw [hzero]
    decide
  unfold XmasTree.pixel
  simp only [hdark]
  split
  · exact paint_within (by decide) (clamp_unit _) tint_yellow
  · exact hambient

theorem fadeOut_within (curTime : ℚ) {color : UInt8 → ColorTriplet} (hcolor : Tint color) :
    (paint (fadeOut curTime * maxLightCounts) color).Within 120 :=
  paint_within (by decide) (clamp_unit _) hcolor

/-- **The brightness budget.** Whatever the members hold, whenever `GetColors` is called
and whatever was drawn, every operand of a cast is between 0 and 120 and no channel is
above 120; before staging, 60. -/
theorem brightness_budget :
    (∀ (a : LedAnimation) (lights : Lights) (now : ℚ) (i : ℕ), (a.pixel lights now i).Within 120) ∧
      (∀ (a : PreStagingAnim) (now : ℚ), (a.pixel now).Within 60) ∧
      ∀ (w : WooWoosha) (curTime : ℚ) (i : ℕ), (w.pixel curTime i).Within 120 := by
  refine ⟨fun a lights now i => ?_, preStaging_within, fun w curTime i => afterglow_within _ _⟩
  cases a with
  | preStagingAnim a =>
    obtain ⟨hcasts, hr, hg, hb⟩ := preStaging_within a now
    have hdouble : ∀ n : ℕ, n ≤ 60 → n ≤ 120 := fun n hn => by omega
    refine ⟨fun q hq => ?_, hdouble _ hr, hdouble _ hg, hdouble _ hb⟩
    obtain ⟨h0, hle, hcast⟩ := hcasts q hq
    exact ⟨h0, hle.trans (by norm_num), hcast⟩
  | stagingAnim a => exact staging_within a now i
  | preCountdownAnimation a => exact afterglow_within _ _
  | xmasTree a => exact countdown_within a now i
  | fighting a => exact fadeOut_within _ tint_green
  | pausedAnim a => exact fadeOut_within _ tint_yellow
  | endAnim a => exact fadeOut_within _ tint_yellow

end Botgeddon.Arena
