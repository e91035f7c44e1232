import Botgeddon.Arena.Fades

/-! The particles of the dimmed lights, in a run.

`GetColors` moves the particles from frame to frame, with a catch-up loop for each. What
a frame finds is nevertheless a function of the time and of the draws (`particles_shown`):
when the `k`-th particle is spawned, how fast it is and where it has got to can all be
written down. That also bounds how many there can be and how far a frame has to move them. -/
namespace Botgeddon.Arena
open Visits Deadline

/-! ### The schedule -/

namespace Spawner

/-- `_speed` after `k` particles: it falls six times and stays. -/
def speedAfter (k : ℕ) : ℚ := (7 / 10) ^ (min k 6 + 1)

/-- When the `k`-th particle is spawned. -/
def spawnTime : ℕ → ℚ
  | 0 => 0
  | k + 1 => spawnTime k + speedAfter k

theorem speedAfter_pos (k : ℕ) : 0 < speedAfter k := pow_pos (by norm_num) _

theorem speedAfter_six : speedAfter 6 = 823543 / 10000000 := by norm_num [speedAfter]

theorem speedAfter_slowest (k : ℕ) : speedAfter 6 ≤ speedAfter k :=
  pow_le_pow_of_le_one (by norm_num) (by norm_num) (by omega)

theorem speedAfter_succ (k : ℕ) :
    (if speedAfter k > 1 / 10 then speedAfter k * (7 / 10) else speedAfter k) = speedAfter (k + 1) := by
  rcases Nat.lt_or_ge k 6 with hlt | hge
  · have hfast : speedAfter k > 1 / 10 := by
      have hle : (7 / 10 : ℚ) ^ 6 ≤ (7 / 10) ^ (k + 1) := pow_le_pow_of_le_one (by norm_num) (by norm_num) (by omega)
      rw [speedAfter, min_eq_left hlt.le]
      norm_num at hle
      linarith
    rw [if_pos hfast, speedAfter, speedAfter, min_eq_left hlt.le, min_eq_left (by omega)]
    exact (pow_succ _ _).symm
  · have hslow : ¬ speedAfter k > 1 / 10 := by
      rw [speedAfter, min_eq_right hge]
      norm_num
    rw [if_neg hslow, speedAfter, speedAfter, min_eq_right hge, min_eq_right (by omega)]

/-- The `k`-th particle as it is spawned. -/
def particle (rng : ℕ → Draw) (k : ℕ) : Particle where
  x := (rng k).x
  y := (rng k).y
  startTime := spawnTime k
  age := 0
  speed := max (speedAfter k * (1 / 10)) particleSpeed
  column := (rng k).column
  slow := le_max_right _ _

/-- What the spawning loop has done after `k` rounds. -/
theorem iterate_spawn (rng : ℕ → Draw) (k : ℕ) :
    (spawn^[k] (new rng)).lastSegmentTime = spawnTime k ∧ (spawn^[k] (new rng)).speed = speedAfter k ∧
      (spawn^[k] (new rng)).particles = (List.range k).map (particle rng) ∧
      (spawn^[k] (new rng)).rng = fun j => rng (k + j) := by
  induction k with
  | zero => exact ⟨rfl, by norm_num [new, speedAfter], rfl, by simp [new]⟩
  | succ k ih =>
    obtain ⟨htime, hspeed, hparticles, hrng⟩ := ih
    rw [Function.iterate_succ_apply']
    refine ⟨?_, ?_, ?_, ?_⟩
    · simp only [spawn, htime, hspeed, spawnTime]
    · simp only [spawn, hspeed, speedAfter_succ]
    · simp only [spawn, newParticle, htime, hspeed, hparticles, hrng, List.range_succ, List.map_append,
        List.map_cons, List.map_nil, particle, add_zero]
    · funext j
      simp only [spawn, hrng, Nat.add_assoc, Nat.add_comm 1 j]

/-- As many particles as were due. -/
structure Spawned (t : ℚ) (k : ℕ) : Prop where
  due : ∀ j < k, spawnTime j < t
  last : t ≤ spawnTime k

theorem spawned_eq (t : ℚ) (rng : ℕ → Draw) : ∃ k, Spawned t k ∧ spawned t rng = (List.range k).map (particle rng) := by
  obtain ⟨k, hrun, hbefore, hafter⟩ := loop.run_exits t (new rng)
  have hdue : ∀ j, loop.due (loop.advance^[j] (new rng)) = spawnTime j := fun j => (iterate_spawn rng j).1
  refine ⟨k, ⟨fun j hj => ?_, ?_⟩, ?_⟩
  · rw [← hdue]
    exact hbefore j hj
  · rw [← hdue, ← hrun]
    exact hafter
  · rw [spawned, hrun]
    exact (iterate_spawn rng k).2.2.1

/-- How many rows the `k`-th particle has climbed at time `t`. -/
def rows (t : ℚ) (rng : ℕ → Draw) (k : ℕ) : ℤ := ⌈(t - spawnTime k) / (particle rng k).speed⌉ - 1

/-- The `k`-th particle at time `t`. -/
def position (t : ℚ) (rng : ℕ → Draw) (k : ℕ) : Particle :=
  { particle rng k with
    y := (rng k).y + rows t rng k
    startTime := spawnTime k + rows t rng k * (particle rng k).speed
    age := rows t rng k * (particle rng k).speed }

theorem run_particle {t : ℚ} {rng : ℕ → Draw} {k : ℕ} (h : spawnTime k < t) :
    Particle.loop.run t (particle rng k) = position t rng k := by
  obtain ⟨hx, hspeed, hrow, hage⟩ := Particle.climbed (q := particle rng k) rfl h
  -- A step adds the same to a particle's time and to its age.
  have hstart : (Particle.loop.run t (particle rng k)).startTime - (Particle.loop.run t (particle rng k)).age = spawnTime k := by
    refine @CatchUp.run_induction _ _ _ _ _ _ Particle.loop t (particle rng k)
      (fun p => p.startTime - p.age = spawnTime k) (sub_zero _) ?_
    intro p _ hp
    show p.startTime + p.speed - (p.age + p.speed) = spawnTime k
    rw [add_sub_add_right_eq_sub, hp]
  have hrows : (Particle.loop.run t (particle rng k)).y = (rng k).y + rows t rng k := by
    rw [hrow, rows, ← add_sub_assoc]
    rfl
  have hage' : (Particle.loop.run t (particle rng k)).age = rows t rng k * (particle rng k).speed := by
    rw [hage, hrows]
    simp only [particle]
    push_cast
    ring
  rw [hage'] at hstart
  rw [Particle.mk.injEq]
  exact ⟨hx, hrows, eq_add_of_sub_eq hstart, hage', hspeed⟩

/-- What the particles are at time `t`. -/
theorem update_new (t : ℚ) (rng : ℕ → Draw) :
    ∃ k, Spawned t k ∧ ((new rng).update t).particles = (List.range k).map (position t rng) := by
  obtain ⟨k, hk, hspawned⟩ := spawned_eq t rng
  refine ⟨k, hk, ?_⟩
  show (spawned t rng).map (Particle.loop.run t) = _
  rw [hspawned, List.map_map]
  refine List.map_congr_left fun j hj => run_particle (hk.due j ?_)
  exact List.mem_range.mp hj

/-- Particles are at least as far apart as in the end. -/
theorem spawnTime_add (k j : ℕ) : spawnTime k + j * speedAfter 6 ≤ spawnTime (k + j) := by
  induction j with
  | zero => simp
  | succ j ih =>
    have hslow := speedAfter_slowest (k + j)
    rw [← Nat.add_assoc, spawnTime]
    push_cast
    linarith

end Spawner

/-! ### The frames of a visit -/

namespace LitRun

variable {r : LitRun}

/-- When the frames from `m` to `n` are read, counted from the entry. -/
def frameTimes (r : LitRun) (m n : ℕ) : List ℚ :=
  (List.range (n + 1 - m)).map fun k => r.colorTime (m + k) - r.entryTime (m + 1)

theorem frameTimes_self (r : LitRun) (n : ℕ) : r.frameTimes n n = [r.colorTime n - r.entryTime (n + 1)] := by
  have hone : n + 1 - n = 1 := by omega
  simp [frameTimes, hone]

theorem frameTimes_succ (r : LitRun) {m n : ℕ} (hmn : m ≤ n) :
    r.frameTimes m (n + 1) = r.frameTimes m n ++ [r.colorTime (n + 1) - r.entryTime (m + 1)] := by
  have hlast : n + 1 + 1 - m = n + 1 - m + 1 := by omega
  have hindex : m + (n + 1 - m) = n + 1 := by omega
  rw [frameTimes, hlast, List.range_succ, List.map_append, List.map_cons, List.map_nil, hindex]
  rfl

theorem frameTimes_le (r : LitRun) (m n : ℕ) : ∀ u ∈ r.frameTimes m n, u ≤ r.colorTime n - r.entryTime (m + 1) := by
  intro u hu
  obtain ⟨k, hk, rfl⟩ := List.mem_map.mp hu
  have hindex : m + k ≤ n := by
    have hlt := List.mem_range.mp hk
    omega
  exact sub_le_sub_right (r.colorTime_mono hindex) _

/-- The object of dimmed lights. -/
theorem dimmed_object {n : ℕ} (h : r.phase n = .PreCountdown) :
    ∃ a : PreCountdownAnimation, (r.state n).state = .preCountdownAnimation a ∧ a.start = r.entryTime n := by
  cases ha : (r.state n).state with
  | preCountdownAnimation a => exact ⟨a, rfl, (congrArg LedAnimation.start ha).symm⟩
  | _ =>
    rw [Run.phase, ha] at h
    cases h

/-- A frame moves the lights that its `Tick` leaves. -/
theorem scene_lights (r : LitRun) (n : ℕ) (h : r.phase (n + 1) = .PreCountdown) :
    (r.scene (n + 1)).lights =
      (if r.phase n = .PreCountdown then (r.scene n).lights else .new (r.rng n)).update
        (r.colorTime n - r.entryTime (n + 1)) := by
  have hlights : (r.scene (n + 1)).lights =
      ((r.scene n).loop.step (r.input n)).state.light ((r.scene n).built (r.litInput n))
        ((r.scene n).loop.colorReading (r.input n)) := rfl
  have hbuilt : (r.scene n).built (r.litInput n) =
      if r.phase n = .PreCountdown then (r.scene n).lights else .new (r.rng n) := by
    have hchanges := changes_nil_iff (r.input n) (r.state n)
    have hnext : ((r.state n).step (r.input n)).state.arenaState = .PreCountdown := h
    rw [hnext] at hchanges
    simp only [Scene.built, scene_loop, litInput, hchanges, eq_comm (a := ArenaState.PreCountdown)]
    rfl
  rw [hlights, hbuilt, scene_loop]
  obtain ⟨a, ha, hstart⟩ := dimmed_object h
  show (r.state (n + 1)).state.light _ (r.colorTime n) = _
  rw [ha, ← hstart]
  rfl

/-- The lights are those of an object that was only ever called for its frames. -/
theorem lights_calls {m n : ℕ} (hmn : m ≤ n) (hent : Enters r.phase m .PreCountdown)
    (hstays : Stays r.phase (m + 1) (n + 1)) :
    (r.scene (n + 1)).lights = (Lights.new (r.rng m)).calls (r.frameTimes m n) := by
  induction n, hmn using Nat.le_induction with
  | base =>
    rw [r.scene_lights m hent.2, if_neg hent.1, frameTimes_self]
    rfl
  | succ n hmn ih =>
    have hphase : r.phase (n + 1 + 1) = .PreCountdown := by rw [← hstays (m + 1) le_rfl (by omega), hent.2]
    have hbefore : r.phase (n + 1) = .PreCountdown := by rw [hstays (n + 1) (by omega) (Nat.le_succ _), hphase]
    have hentry : r.entryTime (m + 1) = r.entryTime (n + 1 + 1) := entryTime_constant (by omega) hstays
    rw [r.scene_lights (n + 1) hphase, if_pos hbefore, ih (hstays.upTo (by omega) (Nat.le_succ _)),
      r.frameTimes_succ hmn, hentry, Lights.calls, Lights.calls, List.foldl_append]
    rfl

/-- **The particles are a function of time.** However the frames of a visit fall, a frame
finds those particles that were due, each where its own schedule and draws put it. -/
theorem particles_shown {m n : ℕ} (hmn : m ≤ n) (hent : Enters r.phase m .PreCountdown)
    (hstays : Stays r.phase (m + 1) (n + 1)) :
    ∃ k, Spawner.Spawned (r.colorTime n - r.entryTime (n + 1)) k ∧
      (r.scene (n + 1)).lights.spawner.particles =
        (List.range k).map (Spawner.position (r.colorTime n - r.entryTime (n + 1)) (r.rng m)) := by
  have hentry : r.entryTime (m + 1) = r.entryTime (n + 1) := entryTime_constant (by omega) hstays
  have hlast : (r.scene (n + 1)).lights.spawner =
      (Spawner.new (r.rng m)).update (r.colorTime n - r.entryTime (n + 1)) := by
    have hle := r.frameTimes_le m n
    rw [lights_calls hmn hent hstays, ← hentry]
    rcases Nat.lt_or_eq_of_le hmn with hlt | rfl
    · obtain ⟨n, rfl⟩ : ∃ n', n = n' + 1 := ⟨n - 1, by omega⟩
      rw [r.frameTimes_succ (by omega)] at hle ⊢
      exact Lights.spawner_calls_append (fun u hu => hle u (List.mem_append_left _ hu)) _
    · rw [frameTimes_self]
      rfl
  rw [hlast]
  exact Spawner.update_new _ _

/-- Four seconds into the dimmed lights of a run with a frame every four seconds. -/
theorem particles_shown_interrupted :
    ∃ k, Spawner.Spawned 4 k ∧ (LitRun.scene ⟨Run.interrupted, fun _ _ => .origin⟩ 5).lights.spawner.particles =
      (List.range k).map (Spawner.position 4 fun _ => .origin) := by
  have hstays : Stays Run.interrupted.phase 4 5 := by
    intro k hk hk'
    interval_cases k <;> decide +kernel
  have hfour : (LitRun.mk Run.interrupted fun _ _ => .origin).colorTime 4 - Run.interrupted.entryTime 5 = 4 := by
    decide +kernel
  rw [← hfour]
  exact particles_shown (r := ⟨Run.interrupted, fun _ _ => .origin⟩) (m := 3) (n := 4) (by decide)
    ⟨by decide +kernel, by decide +kernel⟩ hstays

/-- Dimmed lights were entered at some iteration. -/
theorem dimmed_entered {n : ℕ} (h : r.phase (n + 1) = .PreCountdown) :
    ∃ m ≤ n, Enters r.phase m .PreCountdown ∧ Stays r.phase (m + 1) (n + 1) := by
  have hother : r.phase (n + 1) ≠ r.phase 0 := by
    rw [h, Run.phase_zero]
    decide
  obtain ⟨m, hm, hent, hstays⟩ := entered r.phase hother
  rw [h] at hent
  exact ⟨m, by omega, hent, hstays⟩

/-- How long after the entry the frames of the dimmed lights are read. -/
theorem colorTime_dimmed {n : ℕ} (h : r.phase (n + 1) = .PreCountdown) {gap : ℚ}
    (hround : r.time (n + 1) ≤ r.time n + gap) : r.colorTime n ≤ r.entryTime (n + 1) + 7 + gap := by
  have hframe := r.colorTime_le_time n
  obtain ⟨a, q, b, p, k, ha, -, hb, -, -, ht⟩ := r.observe n
  have hstart : r.entryTime (n + 1) = b.start := congrArg LedAnimation.start hb
  have hphase : b.arenaState = .PreCountdown := (congrArg LedAnimation.arenaState hb).symm.trans h
  rw [hstart]
  cases ht with
  | animate a q early =>
    have hnow : r.time n = (r.input n).now 0 := rfl
    rw [Arithmetic.exact_seconds] at early
    simp only [LedAnimation.start]
    linarith
  | dim a q red blue =>
    have hread : r.time n ≤ (r.input n).now 3 := r.ordered n (Nat.zero_le _)
    simp only [LedAnimation.start]
    linarith
  | _ => cases hphase

/-- **The particles stay few.** If the next round begins at most a twelfth of a second later,
there are no more than 68. -/
theorem particles_few {n : ℕ} (h : r.phase (n + 1) = .PreCountdown) (hround : r.time (n + 1) ≤ r.time n + 1 / 12) :
    (r.scene (n + 1)).lights.spawner.particles.length ≤ 68 := by
  obtain ⟨m, hm, hent, hstays⟩ := dimmed_entered h
  obtain ⟨k, ⟨hdue, -⟩, hparticles⟩ := particles_shown hm hent hstays
  have hdimmed := colorTime_dimmed h hround
  rw [hparticles, List.length_map, List.length_range]
  by_contra hmany
  have hlast := hdue 68 (by omega)
  have hspaced := Spawner.spawnTime_add 6 62
  have hsix : Spawner.spawnTime 6 = 2058819 / 1000000 := by norm_num [Spawner.spawnTime, Spawner.speedAfter]
  rw [hsix, Spawner.speedAfter_six] at hspaced
  norm_num at hspaced
  linarith

/-- The last frame of seven seconds of dimmed lights. -/
theorem particles_few_last :
    ((twelfths (· == 20) (· == 20) (· == 0)).scene (147 + 1)).lights.spawner.particles.length ≤ 68 :=
  particles_few (n := 147) (by decide +kernel) (by decide +kernel)

/-- How far a particle climbs in between. -/
theorem rows_later {t t' : ℚ} (h : t ≤ t') (hsoon : t' ≤ t + 1 / 12) (rng : ℕ → Draw) (k : ℕ) :
    Spawner.rows t rng k ≤ Spawner.rows t' rng k ∧ Spawner.rows t' rng k ≤ Spawner.rows t rng k + 5 := by
  have hslow : 1 / 50 ≤ (Spawner.particle rng k).speed := (Spawner.particle rng k).slow
  have hpos : 0 < (Spawner.particle rng k).speed := by linarith
  constructor
  · have hle : (t - Spawner.spawnTime k) / (Spawner.particle rng k).speed ≤
        (t' - Spawner.spawnTime k) / (Spawner.particle rng k).speed := by gcongr
    exact sub_le_sub_right (Int.ceil_le_ceil hle) 1
  · have hle : (t' - Spawner.spawnTime k) / (Spawner.particle rng k).speed ≤
        (t - Spawner.spawnTime k) / (Spawner.particle rng k).speed + (5 : ℤ) := by
      rw [div_le_iff₀ hpos, add_mul, div_mul_cancel₀ _ hpos.ne']
      push_cast
      linarith
    have hceil := Int.ceil_le_ceil hle
    rw [Int.ceil_add_intCast] at hceil
    unfold Spawner.rows
    omega

/-- **A frame has little to do.** If a frame is read at most a twelfth of a second after the one
before, each of the particles stays in its column and climbs five rows at most, and at most
two are new. -/
theorem particles_climb {n : ℕ} (h : r.phase (n + 1) = .PreCountdown) (h' : r.phase (n + 2) = .PreCountdown)
    (hsoon : r.colorTime (n + 1) ≤ r.colorTime n + 1 / 12) :
    ∃ old new, (r.scene (n + 2)).lights.spawner.particles = old ++ new ∧ new.length ≤ 2 ∧
      List.Forall₂ (fun p q : Particle => q.x = p.x ∧ p.y ≤ q.y ∧ q.y ≤ p.y + 5)
        (r.scene (n + 1)).lights.spawner.particles old := by
  obtain ⟨m, hm, hent, hstays⟩ := dimmed_entered h
  have hsame : r.phase (n + 2) = r.phase (n + 1) := h'.trans h.symm
  have hentry := r.entryTime_succ (n + 1) hsame
  have hlater := r.colorTime_mono (Nat.le_succ n)
  obtain ⟨k, ⟨hdue, hlast⟩, hparticles⟩ := particles_shown hm hent hstays
  obtain ⟨k', ⟨hdue', hlast'⟩, hparticles'⟩ := particles_shown (by omega) hent (hstays.succ hsame)
  rw [hentry] at hdue' hlast' hparticles'
  have hmore : k ≤ k' := by
    by_contra hless
    have hold := hdue k' (by omega)
    linarith
  have hfew : k' ≤ k + 2 := by
    by_contra hmany
    have hnew := hdue' (k + 2) (by omega)
    have hspaced := Spawner.spawnTime_add k 2
    rw [Spawner.speedAfter_six] at hspaced
    push_cast at hspaced
    linarith
  obtain ⟨i, rfl⟩ := Nat.exists_eq_add_of_le hmore
  rw [List.range_add, List.map_append] at hparticles'
  refine ⟨_, _, hparticles', by simp only [List.length_map, List.length_range]; omega, ?_⟩
  rw [hparticles, List.forall₂_map_left_iff, List.forall₂_map_right_iff, List.forall₂_same]
  intro j _
  have hago : r.colorTime n - r.entryTime (n + 1) ≤ r.colorTime (n + 1) - r.entryTime (n + 1) := by linarith
  obtain ⟨hlo, hhi⟩ := rows_later hago (by linarith) (r.rng m) j
  simp only [Spawner.position]
  exact ⟨trivial, by omega, by omega⟩

/-- The last two frames of seven seconds of dimmed lights. -/
theorem particles_climb_last :
    ∃ old new, ((twelfths (· == 20) (· == 20) (· == 0)).scene (146 + 2)).lights.spawner.particles = old ++ new ∧
      new.length ≤ 2 ∧ List.Forall₂ (fun p q : Particle => q.x = p.x ∧ p.y ≤ q.y ∧ q.y ≤ p.y + 5)
        ((twelfths (· == 20) (· == 20) (· == 0)).scene (146 + 1)).lights.spawner.particles old :=
  particles_climb (n := 146) (by decide +kernel) (by decide +kernel) (by decide +kernel)

end LitRun

end Botgeddon.Arena
