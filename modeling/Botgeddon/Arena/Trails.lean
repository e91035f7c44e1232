import Botgeddon.Arena.Particles
import Botgeddon.Lib.LastWriter

/-! The trails of the particles.

A pixel remembers when it was last lit, which every particle on it overwrites; the older
the particle, the less it lights. Until the lights come up, this memory is all there is to
see: light comes from particles only, is never the full brightness, and fades once they
are gone. -/
namespace Botgeddon.Arena
open Visits
open LedAnimation (N)

namespace Lights

theorem store_getElem! (times : Vector ℚ N) {i : ℤ} (hi : OnStrip i) (time : ℚ) (j : Fin N) :
    (store times i time)[j.val]! = if i = (j : ℤ) then time else times[j.val]! := by
  obtain ⟨hlo, hhi⟩ := hi
  obtain ⟨k, rfl⟩ := Int.eq_ofNat_of_zero_le hlo
  rw [getElem!_pos (store times k time) j.val j.isLt, getElem!_pos times j.val j.isLt, store,
    Vector.getElem_setIfInBounds j.isLt]
  simp only [Int.toNat_natCast, Nat.cast_inj]

/-- What a call leaves in a pixel's memory: the time some particle on it gave, or what was
there if there is none. -/
theorem update_remembers (t : ℚ) (l : Lights) (i : Fin N) :
    (∃ p ∈ (l.spawner.update t).particles, p.pixel = some (i : ℤ) ∧ (l.update t).lastColorTime[i.val]! = t - p.age * (3 / 10)) ∨
      (∀ p ∈ (l.spawner.update t).particles, p.pixel ≠ some (i : ℤ)) ∧
        (l.update t).lastColorTime[i.val]! = l.lastColorTime[i.val]! := by
  have hholds : LastWriter.Holds (fun _ (w : ℤ × ℚ) => if w.1 = (i : ℤ) then some w.2 else none)
      l.lastColorTime[i.val]! (l.writes t) (l.update t).lastColorTime[i.val]! := by
    refine @LastWriter.holds_foldl _ _ _ _ (fun times w => store times w.1 w.2) (fun times => times[i.val]!)
      l.lastColorTime (l.writes t) fun before w after heq => ?_
    have honStrip : OnStrip w.1 := writes_onStrip (t := t) (l := l) (by rw [heq]; simp)
    rw [store_getElem! _ honStrip]
    split <;> rfl
  rcases hholds with ⟨before, w, after, heq, hwrote, -⟩ | ⟨huntouched, hsame⟩
  · have hmem : w ∈ l.writes t := by rw [heq]; simp
    obtain ⟨p, hp, hpixel⟩ := List.mem_filterMap.mp hmem
    obtain ⟨j, hj, rfl⟩ := Option.map_eq_some_iff.mp hpixel
    dsimp only at hwrote
    split at hwrote
    case isTrue hij =>
      obtain rfl := hij
      exact .inl ⟨p, hp, hj, (Option.some.inj hwrote).symm⟩
    case isFalse => cases hwrote
  · refine .inr ⟨fun p hp hpixel => ?_, hsame⟩
    have hmem : ((i : ℤ), t - p.age * (3 / 10)) ∈ l.writes t := by
      refine List.mem_filterMap.mpr ⟨p, hp, ?_⟩
      rw [hpixel]
      rfl
    obtain ⟨before, after, heq⟩ := List.append_of_mem hmem
    have hnone := huntouched before _ after heq
    simp at hnone

end Lights

namespace LitRun

variable {r : LitRun}

/-- A particle is on pixel `i` in iteration `n`'s frame. -/
def Visited (r : LitRun) (n : ℕ) (i : Fin N) : Prop :=
  ∃ p ∈ (r.scene (n + 1)).lights.spawner.particles, p.pixel = some (i : ℤ)

instance (r : LitRun) (n : ℕ) (i : Fin N) : Decidable (r.Visited n i) :=
  inferInstanceAs (Decidable (∃ p ∈ (r.scene (n + 1)).lights.spawner.particles, p.pixel = some (i : ℤ)))

/-- What pixel `i` remembers after iteration `n`'s frame. -/
def lastColor (r : LitRun) (n : ℕ) (i : Fin N) : ℚ := (r.scene (n + 1)).lights.lastColorTime[i.val]!

/-- Particles only get older. -/
theorem age_nonneg {n : ℕ} (h : r.phase (n + 1) = .PreCountdown) :
    ∀ p ∈ (r.scene (n + 1)).lights.spawner.particles, 0 ≤ p.age := by
  obtain ⟨m, hm, hent, hstays⟩ := dimmed_entered h
  obtain ⟨k, ⟨hdue, -⟩, hparticles⟩ := particles_shown hm hent hstays
  intro p hp
  rw [hparticles] at hp
  obtain ⟨j, hj, rfl⟩ := List.mem_map.mp hp
  have hpast := hdue j (List.mem_range.mp hj)
  have hspeed : 0 < (Spawner.particle (r.rng m) j).speed :=
    lt_of_lt_of_le (by norm_num [particleSpeed]) (Spawner.particle (r.rng m) j).slow
  have hrows : 0 ≤ Spawner.rows (r.colorTime n - r.entryTime (n + 1)) (r.rng m) j := by
    have hceil : 0 < ⌈(r.colorTime n - r.entryTime (n + 1) - Spawner.spawnTime j) / (Spawner.particle (r.rng m) j).speed⌉ :=
      Int.ceil_pos.mpr (div_pos (by linarith) hspeed)
    unfold Spawner.rows
    omega
  exact mul_nonneg (by exact_mod_cast hrows) hspeed.le

/-- What a frame does to a pixel's memory. -/
theorem lastColor_cases {n : ℕ} (h : r.phase (n + 1) = .PreCountdown) (i : Fin N) :
    (r.Visited n i ∧ r.lastColor n i ≤ r.colorTime n - r.entryTime (n + 1)) ∨
      (¬ r.Visited n i ∧ r.lastColor n i =
        if r.phase n = .PreCountdown then (r.scene n).lights.lastColorTime[i.val]! else -100) := by
  have hlights := r.scene_lights n h
  have hage := age_nonneg h
  rcases Lights.update_remembers (r.colorTime n - r.entryTime (n + 1))
    (if r.phase n = .PreCountdown then (r.scene n).lights else .new (r.rng n)) i with
    ⟨p, hp, hpixel, hlast⟩ | ⟨hnone, hlast⟩
  · rw [← hlights] at hlast
    have hmem : p ∈ (r.scene (n + 1)).lights.spawner.particles := by
      rw [hlights]
      exact hp
    refine .inl ⟨⟨p, hmem, hpixel⟩, ?_⟩
    have hold := hage p hmem
    rw [lastColor, hlast]
    linarith
  · rw [← hlights] at hlast
    refine .inr ⟨?_, ?_⟩
    · rintro ⟨p, hp, hpixel⟩
      rw [hlights] at hp
      exact hnone p hp hpixel
    · rw [lastColor, hlast]
      split
      · rfl
      · have hunlit : ∀ j : Fin N, unlit[j.val]! = -100 := fun j => by
          rw [getElem!_pos unlit j.val j.isLt, unlit, Vector.getElem_replicate]
        exact hunlit i

section Visit
variable {m n : ℕ} (hent : Enters r.phase m .PreCountdown)
include hent

theorem dimmed_phase (hmn : m ≤ n) (hstays : Stays r.phase (m + 1) (n + 1)) : r.phase (n + 1) = .PreCountdown :=
  (hstays (m + 1) le_rfl (by omega)).symm.trans hent.2

/-- A frame without a particle on the pixel leaves its memory alone. -/
theorem lastColor_succ (hmn : m ≤ n) (hstays : Stays r.phase (m + 1) (n + 1 + 1)) {i : Fin N}
    (hnone : ¬ r.Visited (n + 1) i) : r.lastColor (n + 1) i = r.lastColor n i := by
  have hsame : r.phase (n + 1) = .PreCountdown := dimmed_phase hent hmn (hstays.upTo (by omega) (Nat.le_succ (n + 1)))
  rcases lastColor_cases (dimmed_phase hent (by omega) hstays) i with ⟨hvisited, -⟩ | ⟨-, hlast⟩
  · exact absurd hvisited hnone
  · rw [hlast, if_pos hsame, lastColor]

/-- No pixel remembers a time to come. -/
theorem lastColor_le (hmn : m ≤ n) (hstays : Stays r.phase (m + 1) (n + 1)) (i : Fin N) :
    r.lastColor n i ≤ r.colorTime n - r.entryTime (n + 1) := by
  induction n, hmn using Nat.le_induction with
  | base =>
    have hentry := r.entryTime_le_colorTime m
    rcases lastColor_cases hent.2 i with ⟨-, hle⟩ | ⟨-, hlast⟩
    · exact hle
    · rw [hlast, if_neg hent.1]
      linarith
  | succ n hmn ih =>
    have hphase := dimmed_phase hent (by omega) hstays
    have hbefore := hstays.upTo (by omega) (Nat.le_succ (n + 1))
    rcases lastColor_cases hphase i with ⟨-, hle⟩ | ⟨hnone, -⟩
    · exact hle
    · have hentry : r.entryTime (n + 1 + 1) = r.entryTime (n + 1) :=
        r.entryTime_succ (n + 1) (hphase.trans (dimmed_phase hent hmn hbefore).symm)
      have hlater := r.colorTime_mono (Nat.le_succ n)
      have hold := ih hbefore
      rw [lastColor_succ hent hmn hstays hnone, hentry]
      linarith

/-- A pixel remembers nothing else while no particle is on it. -/
theorem lastColor_kept {j : ℕ} (hmj : m ≤ j) (hjn : j ≤ n) (hstays : Stays r.phase (m + 1) (n + 1)) {i : Fin N}
    (hnone : ∀ k, j < k → k ≤ n → ¬ r.Visited k i) : r.lastColor n i = r.lastColor j i := by
  induction n, hjn using Nat.le_induction with
  | base => rfl
  | succ n hjn ih =>
    rw [lastColor_succ hent (hmj.trans hjn) hstays (hnone (n + 1) (by omega) le_rfl)]
    exact ih (hstays.upTo (by omega) (Nat.le_succ _)) fun k hk hk' => hnone k hk (by omega)

/-- A pixel that no particle was on remembers nothing. -/
theorem lastColor_unvisited (hmn : m ≤ n) (hstays : Stays r.phase (m + 1) (n + 1)) {i : Fin N}
    (hnone : ∀ k, m ≤ k → k ≤ n → ¬ r.Visited k i) : r.lastColor n i = -100 := by
  rw [lastColor_kept hent le_rfl hmn hstays fun k hk hk' => hnone k hk.le hk']
  rcases lastColor_cases hent.2 i with ⟨hvisited, -⟩ | ⟨-, hlast⟩
  · exact absurd hvisited (hnone m le_rfl hmn)
  · rw [hlast, if_neg hent.1]

end Visit

end LitRun

/-! ### What is seen of them -/

/-- How much of a pixel's last light is left. -/
def juice (curTime lastColorTime : ℚ) : ℚ := clamp (1 - (curTime - lastColorTime + 1 / 10)) 0 1 * (9 / 10)

/-- Before the lights come up, that is all there is. -/
theorem afterglow_early {curTime : ℚ} (h : curTime ≤ 3) (lastColorTime : ℚ) :
    afterglow curTime lastColorTime = paint (juice curTime lastColorTime * maxLightCounts) fun val => ⟨val, val, val⟩ := by
  have hup : tween curTime fadeUpStart fadeUpEnd = 0 := by
    refine clamp_of_nonpos (div_nonpos_of_nonpos_of_nonneg ?_ (by norm_num [fadeUpStart, fadeUpEnd]))
    unfold fadeUpStart
    linarith
  have hdown : tween curTime fadeDownStart fadeDownEnd = 0 := by
    refine clamp_of_nonpos ?_
    unfold fadeDownStart fadeDownEnd
    linarith
  obtain ⟨hlo, hhi⟩ := clamp_unit (1 - (curTime - lastColorTime + 1 / 10))
  have hjuice : min (max (juice curTime lastColorTime) (tween curTime fadeUpStart fadeUpEnd))
      (1 - tween curTime fadeDownStart fadeDownEnd) = juice curTime lastColorTime := by
    unfold juice
    rw [hup, hdown, max_eq_left (by linarith), min_eq_left (by linarith)]
  show paint (_ * _) (fun val => ⟨val, val, val⟩) = _
  rw [← hjuice]
  rfl

theorem juice_nonneg (curTime lastColorTime : ℚ) : 0 ≤ juice curTime lastColorTime * maxLightCounts := by
  have hlo := (clamp_unit (1 - (curTime - lastColorTime + 1 / 10))).1
  unfold juice maxLightCounts
  linarith

/-- Even a new particle's pixel is at four fifths only. -/
theorem juice_le {curTime lastColorTime : ℚ} (h : lastColorTime ≤ curTime) :
    juice curTime lastColorTime * maxLightCounts ≤ 486 / 5 := by
  have hle : clamp (1 - (curTime - lastColorTime + 1 / 10)) 0 1 ≤ 9 / 10 := clamp_le (by linarith) (by norm_num)
  unfold juice maxLightCounts
  linarith

theorem juice_antitone {t t' : ℚ} (h : t ≤ t') (lastColorTime : ℚ) :
    juice t' lastColorTime * maxLightCounts ≤ juice t lastColorTime * maxLightCounts := by
  have hle : clamp (1 - (t' - lastColorTime + 1 / 10)) 0 1 ≤ clamp (1 - (t - lastColorTime + 1 / 10)) 0 1 :=
    clamp_mono (by linarith)
  unfold juice maxLightCounts
  linarith

namespace LitRun

variable {r : LitRun}

theorem shown_early {n : ℕ} (h : r.phase (n + 1) = .PreCountdown) (hearly : r.colorTime n ≤ r.entryTime (n + 1) + 3)
    (i : Fin N) :
    r.shownPixel n i =
      (paint (juice (r.colorTime n - r.entryTime (n + 1)) (r.lastColor n i) * maxLightCounts) fun val => ⟨val, val, val⟩).color := by
  obtain ⟨a, ha, hstart⟩ := dimmed_object h
  rw [shownPixel_eq, ha, ← afterglow_early (by linarith), ← hstart]
  rfl

/-- **Light comes from particles.** In the first three seconds of the dimmed lights no pixel is
above 97 counts, one that no particle has been on is dark, and one that no particle has been on
since a frame is no brighter than it was then. -/
theorem trails {m n : ℕ} (hmn : m ≤ n) (hent : Enters r.phase m .PreCountdown) (hstays : Stays r.phase (m + 1) (n + 1))
    (hearly : r.colorTime n ≤ r.entryTime (n + 1) + 3) (i : Fin N) :
    Dim 97 (r.shownPixel n i) ∧ ((∀ k, m ≤ k → k ≤ n → ¬ r.Visited k i) → r.shownPixel n i = dark) ∧
      ∀ j, m ≤ j → j ≤ n → (∀ k, j < k → k ≤ n → ¬ r.Visited k i) → NoBrighter (r.shownPixel n i) (r.shownPixel j i) := by
  have hphase := dimmed_phase hent hmn hstays
  have hlast := lastColor_le hent hmn hstays i
  have hentry := r.entryTime_le_colorTime n
  rw [shown_early hphase hearly]
  refine ⟨paint_dim (juice_nonneg _ _) ?_ (by decide) tint_white, fun hnone => ?_, fun j hmj hjn hnone => ?_⟩
  · refine (juice_le hlast).trans_lt ?_
    norm_num
  · have hdone : juice (r.colorTime n - r.entryTime (n + 1)) (-100) = 0 := by
      rw [juice, clamp_of_nonpos (by linarith), zero_mul]
    rw [lastColor_unvisited hent hmn hstays hnone, hdone, zero_mul]
    exact paint_zero tint_white
  · have hbefore := hstays.upTo (by omega) (Nat.succ_le_succ hjn)
    have hsame : r.entryTime (j + 1) = r.entryTime (n + 1) :=
      entryTime_constant (by omega) fun k hk hk' => hstays k (by omega) hk'
    have hlater := r.colorTime_mono hjn
    rw [shown_early (dimmed_phase hent hmj hbefore) (by linarith), lastColor_kept hent hmj hjn hstays hnone, hsame]
    have hbyte : castUInt8 (juice (r.colorTime n - r.entryTime (n + 1)) (r.lastColor j i) * maxLightCounts) ≤
        castUInt8 (juice (r.colorTime j - r.entryTime (n + 1)) (r.lastColor j i) * maxLightCounts) := by
      have hpast := lastColor_le hent hmj hbefore i
      rw [hsame] at hpast
      refine castUInt8_mono (juice_nonneg _ _) (juice_antitone (by linarith) _) ((juice_le hpast).trans_lt ?_)
      norm_num
    exact ⟨hbyte, hbyte, hbyte⟩

/-- In the eighth frame of dimmed lights the first particle is on pixel 8; it was on pixel 3
four frames before, and never on pixel 100. -/
theorem trails_eighth :
    Dim 97 ((twelfths (· == 20) (· == 20) (· == 0)).shownPixel 70 ⟨8, by decide⟩) ∧
      (twelfths (· == 20) (· == 20) (· == 0)).shownPixel 70 ⟨100, by decide⟩ = dark ∧
      NoBrighter ((twelfths (· == 20) (· == 20) (· == 0)).shownPixel 70 ⟨3, by decide⟩)
        ((twelfths (· == 20) (· == 20) (· == 0)).shownPixel 66 ⟨3, by decide⟩) := by
  have hent : Enters (twelfths (· == 20) (· == 20) (· == 0)).phase 63 .PreCountdown :=
    ⟨by decide +kernel, by decide +kernel⟩
  have hstays : Stays (twelfths (· == 20) (· == 20) (· == 0)).phase 64 71 := by
    intro k hk hk'
    interval_cases k <;> decide +kernel
  have hlaw := trails (m := 63) (n := 70) (by decide) hent hstays (by decide +kernel)
  have hnever : ∀ k ≤ 70, 63 ≤ k → ¬ (twelfths (· == 20) (· == 20) (· == 0)).Visited k ⟨100, by decide⟩ := by
    decide +kernel
  have hgone : ∀ k ≤ 70, 66 < k → ¬ (twelfths (· == 20) (· == 20) (· == 0)).Visited k ⟨3, by decide⟩ := by
    decide +kernel
  exact ⟨(hlaw _).1, (hlaw _).2.1 fun k hk hk' => hnever k hk' hk,
    (hlaw _).2.2 66 (by decide) (by decide) fun k hk hk' => hgone k hk' hk⟩

end LitRun

end Botgeddon.Arena
