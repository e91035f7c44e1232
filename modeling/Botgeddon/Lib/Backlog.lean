import Botgeddon.Lib.Fifo

/-! When a bounded queue keeps up.

A queue that serves one item at a time drops something exactly if in some stretch of
its run more items arrive than are served and fit in (`lossless_iff`): being served
while empty earns no credit for later, which is why every stretch counts and not only
those from the start. A queue that in every round is served as often as items arrive
needs room for the items of two rounds (`lossless_rounds`). -/
namespace Botgeddon.Fifo

variable {α β : Type*}

/-- How many items arrive. -/
def arrived (ops : List (Op α)) : ℕ := (arrivals ops).length

def Op.isServe : Op α → Bool
  | .arrive _ => false
  | .serve => true

/-- How often the queue is served, empty or not. -/
def served (ops : List (Op α)) : ℕ := ops.countP Op.isServe

@[simp] theorem arrived_nil : arrived ([] : List (Op α)) = 0 := rfl

@[simp] theorem served_nil : served ([] : List (Op α)) = 0 := rfl

@[simp] theorem arrived_arrive (a : α) (ops : List (Op α)) : arrived (.arrive a :: ops) = arrived ops + 1 := rfl

@[simp] theorem arrived_serve (ops : List (Op α)) : arrived (.serve :: ops) = arrived ops := rfl

@[simp] theorem served_arrive (a : α) (ops : List (Op α)) : served (.arrive a :: ops) = served ops := by
  simp [served, Op.isServe]

@[simp] theorem served_serve (ops : List (Op α)) : served (.serve :: ops) = served ops + 1 :=
  List.countP_cons_of_pos rfl

@[simp] theorem arrived_append (ops ops' : List (Op α)) : arrived (ops ++ ops') = arrived ops + arrived ops' := by
  simp [arrived, arrivals]

@[simp] theorem served_append (ops ops' : List (Op α)) : served (ops ++ ops') = served ops + served ops' :=
  List.countP_append ..

theorem length_arrive {capacity : ℕ} {f : Fifo α} (h : f.queue.length < capacity) (a : α) :
    (f.step capacity (.arrive a)).queue.length = f.queue.length + 1 := by
  simp [step, h]

theorem length_serve (capacity : ℕ) (f : Fifo α) :
    (f.step capacity .serve).queue.length = f.queue.length - 1 := by
  obtain ⟨queue, handed⟩ := f
  cases queue <;> rfl

theorem lossless_append {capacity : ℕ} {f : Fifo α} {ops ops' : List (Op α)} :
    f.Lossless capacity (ops ++ ops') ↔ f.Lossless capacity ops ∧ (f.run capacity ops).Lossless capacity ops' := by
  induction ops generalizing f with
  | nil => exact (and_iff_right trivial).symm
  | cons op ops ih =>
    show _ ∧ Fifo.Lossless capacity (f.step capacity op) (ops ++ ops') ↔ (_ ∧ _) ∧ _
    rw [ih, and_assoc]
    rfl

/-- If as much got in as arrived, nothing was dropped. -/
theorem lossless_of_accepted {capacity : ℕ} {f : Fifo α} {ops : List (Op α)}
    (h : (f.run capacity ops).accepted.length = f.accepted.length + arrived ops) : f.Lossless capacity ops := by
  induction ops generalizing f with
  | nil => trivial
  | cons op ops ih =>
    cases op with
    | serve =>
      refine ⟨fun a ha => (nomatch ha), ih ?_⟩
      rw [step_serve_accepted]
      exact h
    | arrive a =>
      rw [run_cons, arrived_arrive] at h
      have hstep := step_arrive_accepted capacity f a
      have hmost := (accepted_sublist capacity (f.step capacity (.arrive a)) ops).length_le
      rw [List.length_append] at hmost
      by_cases hroom : f.queue.length < capacity
      · rw [if_pos hroom] at hstep
        refine ⟨fun _ _ => hroom, ih ?_⟩
        rw [h, hstep, List.length_append, List.length_singleton]
        omega
      · rw [if_neg hroom] at hstep
        rw [hstep] at hmost
        have harrived : (arrivals ops).length = arrived ops := rfl
        omega

theorem accepted_eq_iff {capacity : ℕ} {f : Fifo α} {ops : List (Op α)} :
    (f.run capacity ops).accepted = f.accepted ++ arrivals ops ↔ f.Lossless capacity ops := by
  refine ⟨fun h => lossless_of_accepted ?_, accepted_eq⟩
  rw [h, List.length_append]
  rfl

/-! ### Stretches that only bring, or only serve -/

theorem lossless_arriving {capacity : ℕ} {f : Fifo α} {ops : List (Op α)} (h : f.queue.length ≤ capacity)
    (hops : served ops = 0) :
    (f.Lossless capacity ops ↔ f.queue.length + arrived ops ≤ capacity) ∧
      (f.Lossless capacity ops → (f.run capacity ops).queue.length = f.queue.length + arrived ops) := by
  induction ops generalizing f with
  | nil => exact ⟨iff_of_true trivial h, fun _ => rfl⟩
  | cons op ops ih =>
    cases op with
    | serve => simp at hops
    | arrive a =>
      rw [served_arrive] at hops
      have hroom : f.Lossless capacity (.arrive a :: ops) ↔
          f.queue.length < capacity ∧ (f.step capacity (.arrive a)).Lossless capacity ops :=
        and_congr_left fun _ => ⟨fun hall => hall a rfl, fun hlt _ _ => hlt⟩
      rw [hroom, arrived_arrive, run_cons]
      by_cases hlt : f.queue.length < capacity
      · have hnext := length_arrive hlt a
        obtain ⟨hiff, hlength⟩ := ih (by omega : (f.step capacity (.arrive a)).queue.length ≤ capacity) hops
        rw [hnext] at hiff hlength
        refine ⟨?_, fun hloss => ?_⟩
        · rw [hiff]
          omega
        · rw [hlength hloss.2]
          omega
      · exact ⟨⟨fun hloss => absurd hloss.1 hlt, fun hle => by omega⟩, fun hloss => absurd hloss.1 hlt⟩

theorem lossless_serving {capacity : ℕ} {f : Fifo α} {ops : List (Op α)} (hops : arrived ops = 0) :
    f.Lossless capacity ops ∧ (f.run capacity ops).queue.length = f.queue.length - served ops := by
  induction ops generalizing f with
  | nil => exact ⟨trivial, rfl⟩
  | cons op ops ih =>
    cases op with
    | arrive a => simp at hops
    | serve =>
      rw [arrived_serve] at hops
      obtain ⟨hloss, hlength⟩ := @ih (f.step capacity .serve) hops
      refine ⟨⟨fun a ha => (nomatch ha), hloss⟩, ?_⟩
      rw [run_cons, hlength, length_serve, served_serve]
      omega

/-! ### Every stretch counts -/

/-- The stretch `w` brings at most `room` items more than it serves. -/
def Bears (g : β → List (Op α)) (room : ℕ) (w : List β) : Prop :=
  arrived (w.flatMap g) ≤ served (w.flatMap g) + room

/-- Every stretch of `l` can be borne, those from the start with `waiting` items before them. -/
structure Fits (g : β → List (Op α)) (room waiting : ℕ) (l : List β) : Prop where
  start : ∀ w, w <+: l → waiting + arrived (w.flatMap g) ≤ served (w.flatMap g) + room
  stretch : ∀ w, w <:+: l → Bears g room w

theorem fits_nil {g : β → List (Op α)} {room waiting : ℕ} (h : waiting ≤ room) : Fits g room waiting [] where
  start w hw := by
    rw [List.prefix_nil.mp hw]
    simpa using h
  stretch w hw := by
    rw [List.infix_nil.mp hw]
    simp [Bears]

theorem fits_cons {g : β → List (Op α)} {room waiting : ℕ} (h : waiting ≤ room) (x : β) (l : List β) :
    Fits g room waiting (x :: l) ↔
      (∀ w, w <+: l → waiting + (arrived (g x) + arrived (w.flatMap g)) ≤
        served (g x) + served (w.flatMap g) + room) ∧ ∀ w, w <:+: l → Bears g room w := by
  constructor
  · intro hfits
    refine ⟨fun w hw => ?_, fun w hw => hfits.stretch w (List.infix_cons_iff.mpr (.inr hw))⟩
    have hstart := hfits.start (x :: w) (List.prefix_cons_iff.mpr (.inr ⟨w, rfl, hw⟩))
    simpa only [List.flatMap_cons, arrived_append, served_append] using hstart
  · rintro ⟨hstart, hstretch⟩
    have hfirst : ∀ w, w <+: x :: l → waiting + arrived (w.flatMap g) ≤ served (w.flatMap g) + room := by
      intro w hw
      rcases List.prefix_cons_iff.mp hw with rfl | ⟨t, rfl, ht⟩
      · simpa using h
      · simpa only [List.flatMap_cons, arrived_append, served_append] using hstart t ht
    refine ⟨hfirst, fun w hw => ?_⟩
    rcases List.infix_cons_iff.mp hw with hprefix | hinfix
    · exact (Nat.le_add_left _ _).trans (hfirst w hprefix)
    · exact hstretch w hinfix

/-- What only brings makes the stretches after it begin with more waiting. -/
theorem fits_cons_arriving {g : β → List (Op α)} {room waiting : ℕ} (h : waiting ≤ room) {x : β}
    (hx : served (g x) = 0) (l : List β) :
    Fits g room waiting (x :: l) ↔ waiting + arrived (g x) ≤ room ∧ Fits g room (waiting + arrived (g x)) l := by
  rw [fits_cons h, hx]
  constructor
  · rintro ⟨hstart, hstretch⟩
    have hnone := hstart [] List.nil_prefix
    simp only [List.flatMap_nil, arrived_nil, served_nil] at hnone
    refine ⟨by omega, fun w hw => ?_, hstretch⟩
    have := hstart w hw
    omega
  · rintro ⟨-, hstart, hstretch⟩
    refine ⟨fun w hw => ?_, hstretch⟩
    have := hstart w hw
    omega

/-- What only serves makes them begin with less. Where it finds too little waiting, the
stretches without it are the bound. -/
theorem fits_cons_serving {g : β → List (Op α)} {room waiting : ℕ} (h : waiting ≤ room) {x : β}
    (hx : arrived (g x) = 0) (l : List β) :
    Fits g room waiting (x :: l) ↔ Fits g room (waiting - served (g x)) l := by
  rw [fits_cons h, hx]
  constructor
  · rintro ⟨hstart, hstretch⟩
    refine ⟨fun w hw => ?_, hstretch⟩
    have hwith := hstart w hw
    have hwithout : arrived (w.flatMap g) ≤ served (w.flatMap g) + room := hstretch w hw.isInfix
    omega
  · rintro ⟨hstart, hstretch⟩
    refine ⟨fun w hw => ?_, hstretch⟩
    have := hstart w hw
    omega

theorem lossless_flatMap_iff {capacity : ℕ} {g : β → List (Op α)}
    (hg : ∀ x, served (g x) = 0 ∨ arrived (g x) = 0) {f : Fifo α} (h : f.queue.length ≤ capacity) (l : List β) :
    f.Lossless capacity (l.flatMap g) ↔ Fits g capacity f.queue.length l := by
  induction l generalizing f with
  | nil => exact iff_of_true trivial (fits_nil h)
  | cons x l ih =>
    rw [List.flatMap_cons, lossless_append]
    rcases hg x with hbrings | hserves
    · obtain ⟨hiff, hlength⟩ := lossless_arriving h hbrings
      rw [fits_cons_arriving h hbrings, ← hiff]
      refine and_congr_right fun hfirst => ?_
      have hnext := hlength hfirst
      rw [ih (by rw [hnext]; exact hiff.mp hfirst), hnext]
    · obtain ⟨hfirst, hnext⟩ := @lossless_serving _ capacity f _ hserves
      rw [fits_cons_serving h hserves, and_iff_right hfirst, ih (by omega), hnext]

/-- **Nothing is lost** exactly if every stretch brings at most `capacity` items more
than it has served. -/
theorem lossless_iff {capacity : ℕ} {g : β → List (Op α)} (hg : ∀ x, served (g x) = 0 ∨ arrived (g x) = 0)
    (l : List β) :
    Fifo.empty.Lossless capacity (l.flatMap g) ↔ ∀ w, w <:+: l → Bears g capacity w := by
  rw [lossless_flatMap_iff hg (Nat.zero_le _)]
  refine ⟨Fits.stretch, fun h => ⟨fun w hw => ?_, h⟩⟩
  have hbears : arrived (w.flatMap g) ≤ served (w.flatMap g) + capacity := h w hw.isInfix
  simpa [Fifo.empty] using hbears

/-! ### Rounds -/

/-- With room for all that arrives nothing is lost, and what is left over arrived in the
stretch, or every service found something. -/
theorem lossless_stretch {capacity : ℕ} {f : Fifo α} {ops : List (Op α)}
    (h : f.queue.length + arrived ops ≤ capacity) :
    f.Lossless capacity ops ∧
      ((f.run capacity ops).queue.length ≤ arrived ops ∨
        (f.run capacity ops).queue.length + served ops ≤ f.queue.length + arrived ops) := by
  induction ops generalizing f with
  | nil => exact ⟨trivial, .inr le_rfl⟩
  | cons op ops ih =>
    cases op with
    | arrive a =>
      rw [arrived_arrive] at h ⊢
      have hlt : f.queue.length < capacity := by omega
      have hnext := length_arrive hlt a
      obtain ⟨hloss, hleft⟩ := @ih (f.step capacity (.arrive a)) (by omega)
      refine ⟨⟨fun _ _ => hlt, hloss⟩, ?_⟩
      rw [run_cons, served_arrive]
      omega
    | serve =>
      rw [arrived_serve] at h ⊢
      have hnext := length_serve capacity f
      obtain ⟨hloss, hleft⟩ := @ih (f.step capacity .serve) (by omega)
      refine ⟨⟨fun a ha => (nomatch ha), hloss⟩, ?_⟩
      rw [run_cons, served_serve]
      omega

/-- **Rounds that serve what they bring lose nothing**, in any order within a round, if
the queue has room for two of them. -/
theorem lossless_rounds {capacity burst : ℕ} (hroom : 2 * burst ≤ capacity) {rounds : List (List (Op α))}
    (h : ∀ w ∈ rounds, arrived w ≤ burst ∧ burst ≤ served w) :
    Fifo.empty.Lossless capacity rounds.flatten := by
  have hall : ∀ f : Fifo α, f.queue.length ≤ burst → f.Lossless capacity rounds.flatten := by
    induction rounds with
    | nil => exact fun _ _ => trivial
    | cons w rounds ih =>
      intro f hf
      obtain ⟨hfew, hoften⟩ := h w List.mem_cons_self
      obtain ⟨hloss, hleft⟩ := @lossless_stretch _ capacity f w (by omega)
      rw [List.flatten_cons, lossless_append]
      refine ⟨hloss, ih (fun w' hw' => h w' (List.mem_cons_of_mem w hw')) _ ?_⟩
      omega
  exact hall Fifo.empty (Nat.zero_le _)

/-! ### Bursts that are worked off -/

theorem arrived_replicate (k : ℕ) : arrived (List.replicate k (Op.serve : Op α)) = 0 := by
  induction k with
  | zero => rfl
  | succ k ih => rw [List.replicate_succ, arrived_serve, ih]

theorem served_replicate (k : ℕ) : served (List.replicate k (Op.serve : Op α)) = k := by
  induction k with
  | zero => rfl
  | succ k ih => rw [List.replicate_succ, served_serve, ih]

/-- A burst that fits in and is then served leaves nothing. -/
theorem burst_served {capacity k : ℕ} {f : Fifo α} (hf : f.queue = []) {ops : List (Op α)} (hops : served ops = 0)
    (hk : arrived ops ≤ k) (hroom : k ≤ capacity) :
    f.Lossless capacity (ops ++ List.replicate k .serve) ∧
      (f.run capacity (ops ++ List.replicate k .serve)).queue = [] := by
  have hnone : f.queue.length = 0 := by rw [hf, List.length_nil]
  obtain ⟨hlossless, hlength⟩ := lossless_arriving (hnone.trans_le (Nat.zero_le capacity)) hops
  have hfits : f.Lossless capacity ops := hlossless.mpr (by omega)
  obtain ⟨hserving, hleft⟩ := @lossless_serving _ capacity (f.run capacity ops) (List.replicate k .serve)
    (arrived_replicate k)
  refine ⟨lossless_append.mpr ⟨hfits, hserving⟩, ?_⟩
  rw [run_append, ← List.length_eq_zero_iff, hleft, hlength hfits, served_replicate]
  omega

/-- Bursts that are worked off one after the other. -/
theorem bursts_served {capacity : ℕ} {rounds : List (List (Op α))}
    (h : ∀ w ∈ rounds, ∀ f : Fifo α, f.queue = [] → f.Lossless capacity w ∧ (f.run capacity w).queue = [])
    {f : Fifo α} (hf : f.queue = []) :
    f.Lossless capacity rounds.flatten ∧ (f.run capacity rounds.flatten).queue = [] := by
  induction rounds generalizing f with
  | nil => exact ⟨trivial, hf⟩
  | cons w rounds ih =>
    obtain ⟨hfirst, hempty⟩ := h w List.mem_cons_self f hf
    obtain ⟨hrest, hdone⟩ := ih (fun w hw => h w (List.mem_cons_of_mem _ hw)) hempty
    rw [List.flatten_cons, run_append]
    exact ⟨lossless_append.mpr ⟨hfirst, hrest⟩, hdone⟩

end Botgeddon.Fifo
