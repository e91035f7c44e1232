import Botgeddon.Lib.CatchUp
import Botgeddon.Arena.World

/-! The moving lights.

Two animations move pixels at a speed of their own, and when `GetColors` is called
they make up for the time since the last call: `PreCountdownAnimation` spawns
particles at a growing rate and lets each climb its column, and `WooWoosha` sends a
single pixel back and forth over the strip, faster and faster. Speeds are bounded
from below by what the loops check before they shorten them, and the structures
carry that bound. -/
namespace Botgeddon.Arena

/-! ### The strip -/

namespace LedAnimation

def numVertical : ℕ := 48
def numHorizontal : ℕ := 8
def N : ℕ := numVertical * numHorizontal

end LedAnimation
open LedAnimation (numVertical numHorizontal N)

/-- `_lastColorTime`: when each pixel was last lit. -/
def unlit : Vector ℚ N := Vector.replicate N (-100)

/-- An assignment to `_lastColorTime[i]`. -/
def store (lastColorTime : Vector ℚ N) (i : ℤ) (time : ℚ) : Vector ℚ N :=
  lastColorTime.setIfInBounds i.toNat time

/-- The index is one of the strip's pixels. -/
def OnStrip (i : ℤ) : Prop := 0 ≤ i ∧ i < N

/-! ### Particles -/

/-- What the two distributions give for a new particle. -/
structure Draw where
  x : ℤ
  y : ℤ
  column : 0 ≤ x ∧ x ≤ numHorizontal - 1
  row : -(numVertical / 4 : ℕ) ≤ y ∧ y ≤ (numVertical / 2 : ℕ) - 1

/-- The first pixel. -/
def Draw.origin : Draw := ⟨0, 0, by decide, by decide⟩

def particleSpeed : ℚ := 1 / 50

structure Particle where
  x : ℤ
  y : ℤ
  startTime : ℚ
  age : ℚ
  speed : ℚ
  column : 0 ≤ x ∧ x ≤ numHorizontal - 1
  slow : particleSpeed ≤ speed

namespace Particle

/-- The body of the particle's loop. -/
def climb (p : Particle) : Particle :=
  { p with y := p.y + 1, startTime := p.startTime + p.speed, age := p.age + p.speed }

/-- `while (curTime > particle.startTime + particle.speed)`. -/
def loop : CatchUp ℚ Particle where
  due p := p.startTime + p.speed
  advance := climb
  pace := particleSpeed
  pace_pos := by norm_num [particleSpeed]
  due_advance p := by
    show p.startTime + p.speed + particleSpeed ≤ p.startTime + p.speed + p.speed
    linarith [p.slow]

/-- The pixel the particle lights, if it is on the strip. -/
def pixel (p : Particle) : Option ℤ :=
  if p.y < numVertical ∧ p.y ≥ 0 then some (p.y + p.x * numVertical) else none

end Particle

/-! ### `PreCountdownAnimation` -/

/-- `_lastSegmentTime`, `_speed`, `_particles` and `_rng`. The last stands for what it
will give, particle by particle. -/
structure Spawner where
  lastSegmentTime : ℚ
  speed : ℚ
  particles : List Particle
  rng : ℕ → Draw
  brisk : 7 / 100 ≤ speed

namespace Spawner

def new (rng : ℕ → Draw) : Spawner := ⟨0, 7 / 10, [], rng, by norm_num⟩

/-- The particle `push_back` adds. -/
def newParticle (s : Spawner) : Particle where
  x := (s.rng 0).x
  y := (s.rng 0).y
  startTime := s.lastSegmentTime
  age := 0
  speed := max (s.speed * (1 / 10)) particleSpeed
  column := (s.rng 0).column
  slow := le_max_right _ _

/-- The body of the spawning loop. -/
def spawn (s : Spawner) : Spawner where
  lastSegmentTime := s.lastSegmentTime + s.speed
  speed := if s.speed > 1 / 10 then s.speed * (7 / 10) else s.speed
  particles := s.particles ++ [s.newParticle]
  rng := fun k => s.rng (k + 1)
  brisk := by
    split
    · linarith
    · exact s.brisk

/-- `while (curTime > _lastSegmentTime)`. -/
def loop : CatchUp ℚ Spawner where
  due := lastSegmentTime
  advance := spawn
  pace := 7 / 100
  pace_pos := by norm_num
  due_advance s := by
    show s.lastSegmentTime + 7 / 100 ≤ s.lastSegmentTime + s.speed
    linarith [s.brisk]

/-- Every particle catches up. -/
def moved (t : ℚ) (s : Spawner) : Spawner :=
  { s with particles := s.particles.map (Particle.loop.run t) }

/-- Both loops of `GetColors`. -/
def update (t : ℚ) (s : Spawner) : Spawner := (loop.run t s).moved t

/-- The particles as they are spawned up to time `t`. -/
def spawned (t : ℚ) (rng : ℕ → Draw) : List Particle := (loop.run t (new rng)).particles

end Spawner

/-- The members of a `PreCountdownAnimation` that only its `GetColors` uses. -/
structure Lights where
  spawner : Spawner
  lastColorTime : Vector ℚ N

namespace Lights

def new (rng : ℕ → Draw) : Lights := ⟨.new rng, unlit⟩

/-- The assignments to `_lastColorTime` in a call at `t`. -/
def writes (t : ℚ) (l : Lights) : List (ℤ × ℚ) :=
  (l.spawner.update t).particles.filterMap fun p => p.pixel.map fun i => (i, t - p.age * (3 / 10))

/-- What a call of `GetColors` at `t` leaves in the members. -/
def update (t : ℚ) (l : Lights) : Lights where
  spawner := l.spawner.update t
  lastColorTime := (l.writes t).foldl (fun times (i, time) => store times i time) l.lastColorTime

/-- The members after calls at the given times. -/
def calls (times : List ℚ) (l : Lights) : Lights := times.foldl (fun l u => l.update u) l

end Lights

/-! ### `WooWoosha` -/

structure WooWoosha where
  lastSegmentIdx : ℤ
  lastSegmentTime : ℚ
  speed : ℚ
  dir : ℤ
  lastColorTime : Vector ℚ N
  brisk : 99 / 50000 ≤ speed

namespace WooWoosha

def new : WooWoosha := ⟨0, 0, 1 / 25, 1, unlit, by norm_num⟩

/-- The index the loop's body goes on to. -/
def nextIdx (w : WooWoosha) : ℤ := w.lastSegmentIdx + w.dir

/-- The body of the loop. -/
def bounce (w : WooWoosha) : WooWoosha where
  lastSegmentIdx := w.nextIdx
  dir := if w.nextIdx = 0 ∨ w.nextIdx = N - 1 then -w.dir else w.dir
  lastSegmentTime := w.lastSegmentTime + w.speed
  speed := if w.speed > 1 / 500 then w.speed * (99 / 100) else w.speed
  lastColorTime := store w.lastColorTime w.nextIdx (w.lastSegmentTime + w.speed)
  brisk := by
    split
    · linarith
    · exact w.brisk

/-- `while (curTime > _lastSegmentTime + _speed)`. -/
def loop : CatchUp ℚ WooWoosha where
  due w := w.lastSegmentTime + w.speed
  advance := bounce
  pace := 99 / 50000
  pace_pos := by norm_num
  due_advance w := by
    show _ ≤ w.lastSegmentTime + w.speed + w.bounce.speed
    linarith [w.bounce.brisk]

/-- What a call of `GetColors` at `t` leaves in the members. -/
def update (t : ℚ) (w : WooWoosha) : WooWoosha := loop.run t w

/-- The members after calls at the given times. -/
def calls (times : List ℚ) (w : WooWoosha) : WooWoosha := times.foldl (fun w u => w.update u) w

end WooWoosha

/-! ### How far a particle climbs -/

namespace Particle

theorem iterate_climb (p : Particle) (n : ℕ) :
    climb^[n] p = { p with
      y := p.y + n
      startTime := p.startTime + n * p.speed
      age := p.age + n * p.speed } := by
  induction n with
  | zero => simp
  | succ n ih =>
    rw [Function.iterate_succ_apply', ih, climb]
    simp only [Particle.mk.injEq, true_and, and_true]
    push_cast
    refine ⟨?_, ?_, ?_⟩ <;> ring

/-- Where a particle is that was spawned as `q`. -/
structure Climbed (t : ℚ) (q p : Particle) : Prop where
  x : p.x = q.x
  speed : p.speed = q.speed
  row : p.y = q.y + ⌈(t - q.startTime) / q.speed⌉ - 1
  age : p.age = (p.y - q.y) * q.speed

theorem climbed {t : ℚ} {q : Particle} (hage : q.age = 0) (hstart : q.startTime < t) :
    Climbed t q (loop.run t q) := by
  obtain ⟨n, hrun, hbefore, hafter⟩ := loop.run_exits t q
  have hpos : 0 < q.speed := lt_of_lt_of_le (by norm_num [particleSpeed]) q.slow
  have hiterate : ∀ i, loop.due (loop.advance^[i] q) = q.startTime + i * q.speed + q.speed := fun i => by
    rw [show loop.advance^[i] q = _ from iterate_climb q i]
    rfl
  rw [hrun, hiterate] at hafter
  have hceil : ⌈(t - q.startTime) / q.speed⌉ = n + 1 := by
    rw [Int.ceil_eq_iff, lt_div_iff₀ hpos, div_le_iff₀ hpos]
    push_cast
    refine ⟨?_, by linarith⟩
    cases n with
    | zero => simpa using hstart
    | succ n =>
      have hlast := hbefore n (Nat.lt_succ_self n)
      rw [hiterate] at hlast
      push_cast
      linarith
  rw [hrun, show loop.advance^[n] q = _ from iterate_climb q n]
  refine ⟨rfl, rfl, ?_, ?_⟩
  · rw [hceil]
    ring
  · show q.age + n * q.speed = ((q.y + (n : ℤ) : ℤ) - q.y : ℚ) * q.speed
    rw [hage]
    push_cast
    ring

/-- A particle lights pixels of its column. -/
theorem pixel_onStrip {p : Particle} {i : ℤ} (h : p.pixel = some i) : OnStrip i := by
  obtain ⟨hlo, hhi⟩ := p.column
  simp only [pixel] at h
  split at h
  case isTrue hrow =>
    obtain rfl := Option.some.inj h
    simp only [OnStrip, N, numVertical, numHorizontal] at hhi hrow ⊢
    push_cast at hhi hrow ⊢
    omega
  case isFalse => cases h

end Particle

/-! ### Calls on the way -/

namespace Spawner

theorem moved_moved {t t' : ℚ} (h : t ≤ t') (s : Spawner) : (s.moved t).moved t' = s.moved t' := by
  simp only [moved, List.map_map, Spawner.mk.injEq, true_and, and_true]
  exact List.map_congr_left fun p _ => Particle.loop.run_run h p

theorem moved_spawn {t t' : ℚ} (h : t ≤ t') (s : Spawner) : ((s.moved t).spawn).moved t' = s.spawn.moved t' := by
  have hold := congrArg particles (moved_moved h s)
  simp only [moved] at hold
  simp only [moved, spawn, List.map_append, hold]
  rfl

/-- A call on the way leaves what the later call would have made of it. -/
theorem update_update {t t' : ℚ} (h : t ≤ t') (s : Spawner) : (s.update t).update t' = s.update t' := by
  have hmoved : ∀ a b : Spawner, a.moved t' = b.moved t' → (loop.run t' a).moved t' = (loop.run t' b).moved t' := by
    intro a b hab
    refine @CatchUp.run_related _ _ _ _ _ _ loop (fun a b => a.moved t' = b.moved t') ?_ ?_ a b hab t'
    · intro a b hab
      have hdue := congrArg lastSegmentTime hab
      exact hdue
    · intro a b hab
      show a.spawn.moved t' = b.spawn.moved t'
      rw [← moved_spawn (le_refl t') a, hab, moved_spawn]
      exact le_refl t'
  rw [update, update, hmoved _ _ (moved_moved h (loop.run t s)), loop.run_run h, update]

theorem update_schedule {times : List ℚ} {t : ℚ} (h : ∀ u ∈ times, u ≤ t) (s : Spawner) :
    (times.foldl (fun s u => s.update u) s).update t = s.update t := by
  induction times generalizing s with
  | nil => rfl
  | cons u times ih =>
    rw [List.foldl_cons, ih fun v hv => h v (List.mem_cons_of_mem u hv),
      update_update (h u List.mem_cons_self)]

theorem spawned_fresh (t : ℚ) (rng : ℕ → Draw) : ∀ q ∈ spawned t rng, q.age = 0 ∧ q.startTime < t := by
  refine @CatchUp.run_induction _ _ _ _ _ _ loop t (new rng)
    (fun s => ∀ q ∈ s.particles, q.age = 0 ∧ q.startTime < t) ?_ ?_
  · intro q hq
    cases hq
  · intro s hdue ih q hq
    rcases List.mem_append.mp hq with hold | hnew
    · exact ih q hold
    · obtain rfl := List.mem_singleton.mp hnew
      exact ⟨rfl, hdue⟩

theorem update_particles (t : ℚ) (rng : ℕ → Draw) :
    List.Forall₂ (Particle.Climbed t) (spawned t rng) ((new rng).update t).particles := by
  show List.Forall₂ _ _ ((spawned t rng).map _)
  rw [List.forall₂_map_right_iff, List.forall₂_same]
  intro q hq
  obtain ⟨hage, hstart⟩ := spawned_fresh t rng q hq
  exact Particle.climbed hage hstart

end Spawner

namespace Lights

theorem writes_onStrip {t : ℚ} {l : Lights} {w : ℤ × ℚ} (h : w ∈ l.writes t) : OnStrip w.1 := by
  obtain ⟨p, -, hp⟩ := List.mem_filterMap.mp h
  obtain ⟨i, hi, rfl⟩ := Option.map_eq_some_iff.mp hp
  exact Particle.pixel_onStrip hi

theorem spawner_calls (times : List ℚ) (l : Lights) :
    (l.calls times).spawner = times.foldl (fun s u => s.update u) l.spawner := by
  induction times generalizing l with
  | nil => rfl
  | cons u times ih => exact ih (l.update u)

theorem spawner_calls_append {times : List ℚ} {t : ℚ} (h : ∀ u ∈ times, u ≤ t) (l : Lights) :
    (l.calls (times ++ [t])).spawner = l.spawner.update t := by
  rw [spawner_calls, List.foldl_append]
  exact Spawner.update_schedule h l.spawner

end Lights

namespace WooWoosha

/-- The pixel is on the strip and about to move along it. -/
structure Bouncing (w : WooWoosha) : Prop where
  onStrip : OnStrip w.lastSegmentIdx
  dir : w.dir = 1 ∨ w.dir = -1
  first : w.lastSegmentIdx = 0 → w.dir = 1
  last : w.lastSegmentIdx = N - 1 → w.dir = -1

theorem new_bouncing : Bouncing new := by
  refine ⟨⟨le_refl _, by decide⟩, .inl rfl, fun _ => rfl, fun h => ?_⟩
  exact absurd h (by decide)

theorem Bouncing.bounce {w : WooWoosha} (h : w.Bouncing) : w.bounce.Bouncing := by
  obtain ⟨⟨hlo, hhi⟩, hdir, hfirst, hlast⟩ := h
  have hlength : (N : ℤ) = 384 := rfl
  have hidx : w.bounce.lastSegmentIdx = w.lastSegmentIdx + w.dir := rfl
  have hnext : w.bounce.dir =
      if w.lastSegmentIdx + w.dir = 0 ∨ w.lastSegmentIdx + w.dir = N - 1 then -w.dir else w.dir := rfl
  -- At an end the pixel has turned; elsewhere one step does not lead past it.
  have hinside : 0 ≤ w.lastSegmentIdx + w.dir ∧ w.lastSegmentIdx + w.dir < N := by
    rcases hdir with hdir | hdir <;> rw [hdir] at hfirst hlast ⊢ <;> omega
  refine ⟨by rwa [OnStrip, hidx], ?_, fun hzero => ?_, fun htop => ?_⟩
  · rw [hnext]
    split <;> omega
  · rw [hidx] at hzero
    rw [hnext, if_pos (.inl hzero)]
    omega
  · rw [hidx] at htop
    rw [hnext, if_pos (.inr htop)]
    omega

theorem Bouncing.update {w : WooWoosha} (h : w.Bouncing) (t : ℚ) : (w.update t).Bouncing :=
  CatchUp.run_induction h fun _ _ hw => hw.bounce

theorem bouncing_iterate (n : ℕ) : (bounce^[n] new).Bouncing := by
  induction n with
  | zero => exact new_bouncing
  | succ n ih =>
    rw [Function.iterate_succ_apply']
    exact ih.bounce

theorem calls_append {times : List ℚ} {t : ℚ} (h : ∀ u ∈ times, u ≤ t) (w : WooWoosha) :
    w.calls (times ++ [t]) = w.update t := by
  rw [calls, List.foldl_append]
  exact loop.run_schedule h w

end WooWoosha

/-- **The lights do not depend on the frame rate.** The loops end; whenever `GetColors`
was called before, a call at `t` leaves the same particles in the same places, each
where its own speed takes it from where it was spawned, and the same bouncing pixel;
and only pixels of the strip are ever lit. -/
theorem frame_rate_independent (rng : ℕ → Draw) {times : List ℚ} {t : ℚ} (h : ∀ u ∈ times, u ≤ t) :
    ((Lights.new rng).calls (times ++ [t])).spawner = ((Lights.new rng).calls [t]).spawner ∧
      List.Forall₂ (Particle.Climbed t) (Spawner.spawned t rng)
        ((Lights.new rng).calls (times ++ [t])).spawner.particles ∧
      (∀ q ∈ Spawner.spawned t rng, q.age = 0 ∧ q.startTime < t ∧ 1 / 50 ≤ q.speed) ∧
      (∀ l u, ∀ w ∈ Lights.writes u l, OnStrip w.1) ∧
      WooWoosha.new.calls (times ++ [t]) = WooWoosha.new.calls [t] ∧
      OnStrip (WooWoosha.new.calls (times ++ [t])).lastSegmentIdx ∧
      (∀ n, OnStrip (WooWoosha.bounce^[n] WooWoosha.new).lastSegmentIdx) ∧
      (∀ u s, Spawner.loop.Exits u s (Spawner.loop.run u s)) ∧
      (∀ u p, Particle.loop.Exits u p (Particle.loop.run u p)) ∧
      ∀ u w, WooWoosha.loop.Exits u w (WooWoosha.loop.run u w) := by
  have hspawner := Lights.spawner_calls_append h (Lights.new rng)
  have hbounce := WooWoosha.calls_append h WooWoosha.new
  refine ⟨hspawner, ?_, fun q hq => ?_, fun l u w hw => Lights.writes_onStrip hw, hbounce, ?_,
    fun n => (WooWoosha.bouncing_iterate n).onStrip, fun u s => CatchUp.run_exits u s,
    fun u p => CatchUp.run_exits u p, fun u w => CatchUp.run_exits u w⟩
  · rw [hspawner]
    exact Spawner.update_particles t rng
  · obtain ⟨hage, hstart⟩ := Spawner.spawned_fresh t rng q hq
    exact ⟨hage, hstart, q.slow⟩
  · rw [hbounce]
    exact (WooWoosha.new_bouncing.update t).onStrip

/-- Sixty calls in a second are as good as the last of them. -/
theorem frame_rate_independent_sixty :
    WooWoosha.new.calls (((List.range 60).map fun i : ℕ => (i : ℚ) / 60) ++ [1]) =
      WooWoosha.new.calls [1] := by
  have hbefore : ∀ u ∈ (List.range 60).map fun i : ℕ => (i : ℚ) / 60, u ≤ 1 := by
    intro u hu
    obtain ⟨i, hi, rfl⟩ := List.mem_map.mp hu
    rw [div_le_one (by norm_num)]
    exact_mod_cast (List.mem_range.mp hi).le
  obtain ⟨-, -, -, -, hsame, -⟩ := frame_rate_independent (fun _ => .origin) hbefore
  exact hsame

end Botgeddon.Arena
