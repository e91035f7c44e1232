import Mathlib

/-! A ring buffer with one slot kept free.

`head` is where the next item goes and `tail` where the oldest one is; the ring
is empty when they meet, and counts as full when storing one more item would
make them meet. What a ring holds is a queue of fewer items than it has slots,
laid out from the tail on (`Represents`). -/
namespace Botgeddon

structure Ring (α : Type*) (size : ℕ) where
  data : Vector α size
  head : ℕ
  tail : ℕ

namespace Ring

variable {α : Type*} {size : ℕ} [Inhabited α]

/-- The slot after `i`. -/
def after (size i : ℕ) : ℕ := (i + 1) % size

/-- Store an item at the head, whether there is room or not. -/
def write (r : Ring α size) (c : α) : Ring α size :=
  { r with data := r.data.setIfInBounds r.head c, head := after size r.head }

/-- Store an item if there is room. -/
def push (r : Ring α size) (c : α) : Ring α size :=
  if after size r.head ≠ r.tail then r.write c else r

/-- The item at the tail. -/
def oldest (r : Ring α size) : α := r.data[r.tail]!

def pop (r : Ring α size) : Ring α size := { r with tail := after size r.tail }

/-- The items held, oldest first. -/
def pending (r : Ring α size) : List α :=
  (List.range ((r.head + size - r.tail) % size)).map fun k => r.data[(r.tail + k) % size]!

/-- The ring holds the queue `q`. -/
structure Represents (r : Ring α size) (q : List α) : Prop where
  tail_lt : r.tail < size
  length_lt : q.length < size
  head_eq : r.head = (r.tail + q.length) % size
  items : ∀ k (h : k < q.length), r.data[(r.tail + k) % size]! = q[k]

/-! ### Positions around the ring -/

theorem add_mod_eq {t k : ℕ} (ht : t < size) (hk : k < size) :
    (t + k) % size = if t + k < size then t + k else t + k - size := by
  split
  case isTrue h => exact Nat.mod_eq_of_lt h
  case isFalse h =>
    rw [Nat.mod_eq_sub_mod (by omega)]
    exact Nat.mod_eq_of_lt (by omega)

/-- Different distances from the tail are different slots. -/
theorem add_mod_inj {t j k : ℕ} (ht : t < size) (hj : j < size) (hk : k < size)
    (h : (t + j) % size = (t + k) % size) : j = k := by
  rw [add_mod_eq ht hj, add_mod_eq ht hk] at h
  split at h <;> split at h <;> omega

theorem after_add_mod (t k : ℕ) : after size ((t + k) % size) = (t + (k + 1)) % size := by
  rw [after, Nat.mod_add_mod, Nat.add_assoc]

theorem after_mod_add (t k : ℕ) : (after size t + k) % size = (t + (k + 1)) % size := by
  rw [after, Nat.mod_add_mod, Nat.add_right_comm, Nat.add_assoc]

namespace Represents

variable {r : Ring α size} {q : List α}

theorem size_pos (h : r.Represents q) : 0 < size := Nat.zero_lt_of_lt h.tail_lt

theorem head_lt (h : r.Represents q) : r.head < size := by
  rw [h.head_eq]
  exact Nat.mod_lt _ h.size_pos

/-- The pointers meet exactly when nothing is held. -/
theorem empty_iff (h : r.Represents q) : r.head = r.tail ↔ q = [] := by
  constructor
  · intro hmeet
    have hzero : (r.tail + q.length) % size = (r.tail + 0) % size := by
      rw [← h.head_eq, hmeet, Nat.add_zero, Nat.mod_eq_of_lt h.tail_lt]
    exact List.eq_nil_of_length_eq_zero (add_mod_inj h.tail_lt h.length_lt h.size_pos hzero)
  · rintro rfl
    rw [h.head_eq, List.length_nil, Nat.add_zero, Nat.mod_eq_of_lt h.tail_lt]

/-- One more item would make them meet exactly when one slot is left. -/
theorem full_iff (h : r.Represents q) : after size r.head = r.tail ↔ q.length + 1 = size := by
  rw [h.head_eq, after_add_mod]
  constructor
  · intro hmeet
    by_contra hroom
    have hlt : q.length + 1 < size := by have := h.length_lt; omega
    have hzero : (r.tail + (q.length + 1)) % size = (r.tail + 0) % size := by
      rw [hmeet, Nat.add_zero, Nat.mod_eq_of_lt h.tail_lt]
    exact absurd (add_mod_inj h.tail_lt hlt h.size_pos hzero) (Nat.succ_ne_zero _)
  · intro hfull
    rw [hfull, Nat.add_mod_right, Nat.mod_eq_of_lt h.tail_lt]

/-- The queue can be read off the ring. -/
theorem pending_eq (h : r.Represents q) : r.pending = q := by
  have hcount : (r.head + size - r.tail) % size = q.length := by
    have ht := h.tail_lt
    have hq := h.length_lt
    rw [h.head_eq, add_mod_eq ht hq]
    split
    · rw [show r.tail + q.length + size - r.tail = q.length + size by omega, Nat.add_mod_right]
      exact Nat.mod_eq_of_lt hq
    · rw [show r.tail + q.length - size + size - r.tail = q.length by omega]
      exact Nat.mod_eq_of_lt hq
  apply List.ext_getElem
  · rw [pending, List.length_map, List.length_range, hcount]
  · intro k hk hk'
    simp only [pending, List.getElem_map, List.getElem_range]
    exact h.items k hk'

/-! ### The operations -/

theorem write (h : r.Represents q) (hroom : q.length + 1 < size) (c : α) :
    (r.write c).Represents (q ++ [c]) where
  tail_lt := h.tail_lt
  length_lt := by simpa using hroom
  head_eq := by
    show after size r.head = (r.tail + (q ++ [c]).length) % size
    rw [h.head_eq, after_add_mod, List.length_append, List.length_singleton]
  items := by
    intro k hk
    have hhead := h.head_lt
    have hslot : (r.tail + k) % size < size := Nat.mod_lt _ h.size_pos
    show (r.data.setIfInBounds r.head c)[(r.tail + k) % size]! = _
    rw [getElem!_pos (r.data.setIfInBounds r.head c) _ hslot, Vector.getElem_setIfInBounds hslot]
    rcases Nat.lt_or_ge k q.length with hold | hnew
    · have hne : r.head ≠ (r.tail + k) % size := by
        rw [h.head_eq]
        intro heq
        have hsame := add_mod_inj h.tail_lt h.length_lt (by omega) heq
        omega
      rw [if_neg hne, List.getElem_append_left hold, ← h.items k hold, getElem!_pos r.data _ hslot]
    · have heq : k = q.length := by
        rw [List.length_append, List.length_singleton] at hk
        omega
      subst heq
      rw [if_pos h.head_eq]
      simp

/-- Storing appends, or drops the item when one slot is left. -/
theorem push (h : r.Represents q) (c : α) :
    (r.push c).Represents (if q.length + 1 < size then q ++ [c] else q) := by
  have hlt := h.length_lt
  unfold Ring.push
  split
  case isTrue hne =>
    have hroom : q.length + 1 < size := by
      have hnotfull : q.length + 1 ≠ size := fun hfull => hne (h.full_iff.mpr hfull)
      omega
    rw [if_pos hroom]
    exact h.write hroom c
  case isFalse heq =>
    have hfull : q.length + 1 = size := h.full_iff.mp (not_not.mp heq)
    rw [if_neg (by omega)]
    exact h

theorem oldest_eq {c : α} {q : List α} (h : r.Represents (c :: q)) : r.oldest = c := by
  have hitem := h.items 0 (by simp)
  rw [Nat.add_zero, Nat.mod_eq_of_lt h.tail_lt] at hitem
  exact hitem

theorem pop {c : α} {q : List α} (h : r.Represents (c :: q)) : r.pop.Represents q where
  tail_lt := Nat.mod_lt _ h.size_pos
  length_lt := Nat.lt_of_succ_lt h.length_lt
  head_eq := by
    show r.head = (after size r.tail + q.length) % size
    rw [after_mod_add, h.head_eq, List.length_cons]
  items := by
    intro k hk
    show r.data[(after size r.tail + k) % size]! = q[k]
    rw [after_mod_add]
    exact h.items (k + 1) (by simpa using hk)

end Represents

/-- Where the pointers meet, the ring holds nothing. -/
theorem represents_nil (r : Ring α size) (ht : r.tail < size) (h : r.head = r.tail) :
    r.Represents [] where
  tail_lt := ht
  length_lt := Nat.zero_lt_of_lt ht
  head_eq := by rw [h, List.length_nil, Nat.add_zero, Nat.mod_eq_of_lt ht]
  items := fun k hk => absurd hk (Nat.not_lt_zero k)

/-! ### What a ring remembers -/

/-- The ring `b` after the items `accepted` have been stored and `served` of them
taken: slots keep what was last written to them. -/
def history (b : Ring α size) (accepted : List α) (served : ℕ) : Ring α size :=
  { accepted.foldl write b with tail := (after size)^[served] b.tail }

omit [Inhabited α] in
theorem history_write (b : Ring α size) (accepted : List α) (served : ℕ) (c : α) :
    (b.history accepted served).write c = b.history (accepted ++ [c]) served := by
  simp only [history, write, List.foldl_append, List.foldl_cons, List.foldl_nil]

omit [Inhabited α] in
theorem history_pop (b : Ring α size) (accepted : List α) (served : ℕ) :
    (b.history accepted served).pop = b.history accepted (served + 1) := by
  simp only [history, pop, Function.iterate_succ_apply']

end Ring

end Botgeddon
