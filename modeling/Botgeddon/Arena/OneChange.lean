import Botgeddon.Arena.Transition

/-! One state change per `Tick`.

`ChangeState` destroys the animation whose `Tick` called it. Five of the seven
`Tick`s return right after it, or touch only the world. `Fighting` and
`PausedAnim` go on to test another button, so a second press in the same
iteration reads members of the destroyed object and changes state again. -/
namespace Botgeddon.Arena

section Law

variable [Arithmetic]

/-- The iteration changes state at most once, and the `Tick` that did so reads no
member of its object afterwards. -/
def ChangesOnce (it : Iteration) (s : Loop) : Prop :=
  (s.tick it).changes.length ≤ 1 ∧ (s.tick it).staleReads = 0

/-- A tap-out in a fight ends it. -/
def TapOutEnds (it : Iteration) (s : Loop) : Prop :=
  s.state.arenaState = .Fighting → it.redButton = true ∨ it.blueButton = true →
    (s.step it).state.arenaState = .End

/-- A second button asks for another state in the same iteration. -/
def Collides (it : Iteration) : LedAnimation → Prop
  | .fighting _ => (it.redButton = true ∨ it.blueButton = true) ∧ it.refButton = true
  | .pausedAnim a => it.refButton = true ∧ it.resetButton = true ∧ a.releasedPause = true
  | _ => False

/-- The `Tick`s that end with their only `ChangeState`. -/
theorem changesOnce_of_plain (it : Iteration) (w : WorldState) (a : LedAnimation)
    (hf : a.arenaState ≠ .Fighting) (hp : a.arenaState ≠ .Paused) : ChangesOnce it ⟨w, a⟩ := by
  cases a with
  | fighting => exact absurd rfl hf
  | pausedAnim => exact absurd rfl hp
  | preStagingAnim | stagingAnim | preCountdownAnimation | xmasTree | endAnim =>
    simp only [ChangesOnce, Loop.tick, LedAnimation.tick, PreStagingAnim.tick, StagingAnim.tick,
      PreCountdownAnimation.tick, XmasTree.tick, End.tick, Ticking.now, Ticking.read, Ticking.member,
      Ticking.viaState, Ticking.changeState, Ticking.setTimeRemaining]
    split <;> simp

/-- In a fight the second change is the referee's, after a tap-out. -/
theorem changesOnce_fighting (it : Iteration) (w : WorldState) (a : Fighting) :
    ChangesOnce it ⟨w, .fighting a⟩ ↔ ¬ Collides it (.fighting a) := by
  simp only [ChangesOnce, Collides, Loop.tick, LedAnimation.tick, Fighting.tick, Ticking.now,
    Ticking.read, Ticking.member, Ticking.viaState, Ticking.changeState, Ticking.setTimeRemaining,
    WorldState.press]
  by_cases href : it.refButton = true <;>
    by_cases htap : (it.redButton || it.blueButton) = true <;> simp_all

/-- In a pause it is the reset button's, after the referee's. -/
theorem changesOnce_paused (it : Iteration) (w : WorldState) (a : PausedAnim) :
    ChangesOnce it ⟨w, .pausedAnim a⟩ ↔ ¬ Collides it (.pausedAnim a) := by
  simp only [ChangesOnce, Collides, Loop.tick, LedAnimation.tick, PausedAnim.tick, PausedAnim.update,
    Ticking.now, Ticking.member, Ticking.viaState, Ticking.changeState, WorldState.press]
  by_cases href : it.refButton = true <;> by_cases hres : it.resetButton = true <;>
    by_cases hrel : a.releasedPause = true <;> simp_all

theorem changesOnce_iff (it : Iteration) (s : Loop) : ChangesOnce it s ↔ ¬ Collides it s.state := by
  obtain ⟨w, a⟩ := s
  cases a with
  | fighting a => exact changesOnce_fighting it w a
  | pausedAnim a => exact changesOnce_paused it w a
  | _ =>
    exact iff_of_true (changesOnce_of_plain it w _ (by simp [LedAnimation.arenaState])
      (by simp [LedAnimation.arenaState])) (by simp [Collides])

/-- Without a collision a tap-out is the only thing that happens. -/
theorem tapOutEnds (it : Iteration) (s : Loop) (h : ¬ Collides it s.state) : TapOutEnds it s := by
  intro hfight htap
  obtain ⟨a, q, b, p, k, ha, -, hb, -, -, ht⟩ := Loop.observe it s
  rw [ha] at h hfight
  rw [hb]
  cases ht with
  | tapOut => rfl
  | fight a q red blue referee => simp [red, blue] at htap
  | pause a q referee => exact absurd ⟨htap, referee⟩ h
  | _ => cases hfight

/-- **One transition per `Tick`, exactly when no second button collides.** -/
theorem one_change_iff (it : Iteration) (s : Loop) :
    ChangesOnce it s ∧ TapOutEnds it s ↔ ¬ Collides it s.state :=
  ⟨fun h => (changesOnce_iff it s).mp h.1, fun h => ⟨(changesOnce_iff it s).mpr h, tapOutEnds it s h⟩⟩

end Law

/-- A match in which red taps out while the referee presses: the fight is paused,
not over, after two changes and two reads of the destroyed `Fighting`. -/
def contested : Run :=
  .paced (fun n => n == 2 || n == 7) (· == 2) (fun n => n == 0 || n == 7) (fun _ => false) fun _ => 0

theorem contested_tapOut :
    contested.phase 7 = .Fighting ∧ (contested.input 7).redButton = true ∧
      contested.phase 8 = .Paused ∧
      ((contested.state 7).tick (contested.input 7)).changes = [.End, .Paused] ∧
      ((contested.state 7).tick (contested.input 7)).staleReads = 2 ∧
      ¬ (ChangesOnce (contested.input 7) (contested.state 7) ∧
        TapOutEnds (contested.input 7) (contested.state 7)) := by
  have hphase : contested.phase 7 = .Fighting := by decide +kernel
  have hpaused : contested.phase 8 = .Paused := by decide +kernel
  refine ⟨hphase, rfl, hpaused, by decide +kernel, by decide +kernel, fun h => ?_⟩
  have hend : contested.phase 8 = .End := h.2 hphase (.inl rfl)
  rw [hpaused] at hend
  cases hend

end Botgeddon.Arena
