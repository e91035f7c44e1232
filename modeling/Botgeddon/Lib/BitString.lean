import Mathlib

/-! Bits written one after the other into a buffer of bytes.

Bit `n` of a buffer is bit `n % 8` of byte `n / 8`, the most significant first. A
`Writer` sets bits by `|=` at a running position and records which bytes it has
stored to. On a buffer that is clear from the position on, what is written is
what is read (`bitAt_puts`). -/
namespace Botgeddon.BitString

variable {len : ℕ}

def bitAt (buf : Vector UInt8 len) (n : ℕ) : Bool := (buf[n / 8]!).toNat.testBit (7 - n % 8)

/-- `buf[n / 8] |= (uint8_t)(b << (7 - (n % 8)))`. -/
def orBit (buf : Vector UInt8 len) (n : ℕ) (b : Bool) : Vector UInt8 len :=
  buf.setIfInBounds (n / 8) (buf[n / 8]! ||| UInt8.ofNat (b.toNat <<< (7 - n % 8)))

theorem testBit_mask (b : Bool) (p q : Fin 8) :
    (UInt8.ofNat (b.toNat <<< (7 - p.val))).toNat.testBit (7 - q.val) = (b && decide (q = p)) := by
  revert b p q
  decide

/-- A bit is set, and no other changed. -/
theorem bitAt_orBit {buf : Vector UInt8 len} {n : ℕ} (h : n / 8 < len) (b : Bool) (m : ℕ) :
    bitAt (orBit buf n b) m = (bitAt buf m || (b && decide (m = n))) := by
  unfold bitAt orBit
  by_cases hbyte : m / 8 = n / 8
  · have hmask := testBit_mask b ⟨n % 8, Nat.mod_lt n (by decide)⟩ ⟨m % 8, Nat.mod_lt m (by decide)⟩
    have hsame : decide (m % 8 = n % 8) = decide (m = n) := decide_eq_decide.mpr (by omega)
    simp only [Fin.mk.injEq, hsame] at hmask
    rw [hbyte, getElem!_pos (buf.setIfInBounds (n / 8) _) _ h, Vector.getElem_setIfInBounds h, if_pos rfl,
      UInt8.toNat_or, Nat.testBit_or, hmask]
  · have hne : m ≠ n := fun heq => hbyte (by rw [heq])
    rw [decide_eq_false hne, Bool.and_false, Bool.or_false]
    by_cases hin : m / 8 < len
    · rw [getElem!_pos (buf.setIfInBounds (n / 8) _) _ hin, Vector.getElem_setIfInBounds hin,
        if_neg (fun heq => hbyte heq.symm), getElem!_pos buf _ hin]
    · rw [getElem!_neg (buf.setIfInBounds (n / 8) _) _ hin, getElem!_neg buf _ hin]

theorem bitAt_replicate (len n : ℕ) : bitAt (Vector.replicate len 0) n = false := by
  unfold bitAt
  by_cases hin : n / 8 < len
  · rw [getElem!_pos (Vector.replicate len (0 : UInt8)) _ hin, Vector.getElem_replicate]
    exact Nat.zero_testBit _
  · rw [getElem!_neg (Vector.replicate len (0 : UInt8)) _ hin]
    exact Nat.zero_testBit _

theorem testBit_high (c : UInt8) {j : ℕ} (hj : 8 ≤ j) : c.toNat.testBit j = false :=
  Nat.testBit_lt_two_pow (c.toNat_lt.trans_le (Nat.pow_le_pow_right (by decide) hj))

/-- A byte is its bits from the top down. -/
theorem byte_ext {x y : UInt8} (h : ∀ j < 8, x.toNat.testBit (7 - j) = y.toNat.testBit (7 - j)) : x = y := by
  apply UInt8.toNat_inj.mp
  apply Nat.eq_of_testBit_eq
  intro j
  by_cases hj : j < 8
  · have hbit := h (7 - j) (by omega)
    rwa [show 7 - (7 - j) = j by omega] at hbit
  · rw [testBit_high x (by omega), testBit_high y (by omega)]

/-! ### The writer -/

structure Writer (len : ℕ) where
  buf : Vector UInt8 len
  bitNum : ℕ
  /-- The bytes stored to, first to last. -/
  stores : List ℕ

namespace Writer

def put (w : Writer len) (b : Bool) : Writer len :=
  { buf := orBit w.buf w.bitNum b
    bitNum := w.bitNum + 1
    stores := w.stores ++ [w.bitNum / 8] }

def puts (w : Writer len) (bits : List Bool) : Writer len := bits.foldl put w

@[simp] theorem puts_nil (w : Writer len) : w.puts [] = w := rfl

@[simp] theorem puts_cons (w : Writer len) (b : Bool) (bits : List Bool) :
    w.puts (b :: bits) = (w.put b).puts bits := rfl

theorem puts_append (w : Writer len) (bits bits' : List Bool) :
    w.puts (bits ++ bits') = (w.puts bits).puts bits' := List.foldl_append

/-- The bytes stored to are those the bits are in. -/
theorem stores_puts (w : Writer len) (bits : List Bool) :
    (w.puts bits).stores = w.stores ++ (List.range bits.length).map fun j => (w.bitNum + j) / 8 := by
  induction bits generalizing w with
  | nil => simp
  | cons b bits ih =>
    rw [puts_cons, ih, List.length_cons, List.range_succ_eq_map, List.map_cons, List.map_map]
    show w.stores ++ [w.bitNum / 8] ++ _ = _
    rw [List.append_assoc, List.singleton_append, Nat.add_zero]
    have hshift : (fun j => (w.bitNum + j) / 8) ∘ Nat.succ = fun j => ((w.put b).bitNum + j) / 8 := by
      funext j
      show (w.bitNum + (j + 1)) / 8 = (w.bitNum + 1 + j) / 8
      rw [Nat.add_right_comm, Nat.add_assoc]
    rw [hshift]

/-- What is written on a clear buffer is what is read. -/
theorem bitAt_puts {w : Writer len} {bits : List Bool} (hroom : w.bitNum + bits.length ≤ 8 * len)
    (hclear : ∀ m, w.bitNum ≤ m → bitAt w.buf m = false) (m : ℕ) :
    bitAt (w.puts bits).buf m =
      if m < w.bitNum then bitAt w.buf m else (bits[m - w.bitNum]?).getD false := by
  induction bits generalizing w with
  | nil =>
    rw [puts_nil]
    split
    case isTrue => rfl
    case isFalse hm => simpa using hclear m (not_lt.mp hm)
  | cons b bits ih =>
    rw [List.length_cons] at hroom
    have hput : ∀ k, bitAt (w.put b).buf k = (bitAt w.buf k || (b && decide (k = w.bitNum))) :=
      bitAt_orBit (by omega) b
    have hnext : (w.put b).bitNum = w.bitNum + 1 := rfl
    have hclear' : ∀ k, (w.put b).bitNum ≤ k → bitAt (w.put b).buf k = false := by
      intro k hk
      rw [hput, hclear k (by omega), decide_eq_false (by omega), Bool.and_false, Bool.or_false]
    rw [puts_cons, ih (by omega) hclear', hnext]
    rcases Nat.lt_trichotomy m w.bitNum with hlt | rfl | hgt
    · rw [if_pos (by omega), if_pos hlt, hput, decide_eq_false (by omega), Bool.and_false, Bool.or_false]
    · rw [if_pos (by omega), if_neg (by omega), hput, hclear _ (le_refl _)]
      simp
    · rw [if_neg (by omega), if_neg (by omega)]
      rw [show m - w.bitNum = (m - (w.bitNum + 1)) + 1 by omega, List.getElem?_cons_succ]

end Writer

/-! ### Blocks of bits -/

/-- The `j`-th bit of the `k`-th block, where all blocks have length `c`. -/
theorem getElem?_flatMap_blocks {α β : Type*} {f : α → List β} {c : ℕ} (hf : ∀ a, (f a).length = c)
    (l : List α) (k j : ℕ) (hj : j < c) :
    (l.flatMap f)[c * k + j]? = l[k]?.bind fun a => (f a)[j]? := by
  induction l generalizing k with
  | nil => rfl
  | cons a l ih =>
    rw [List.flatMap_cons]
    cases k with
    | zero =>
      rw [Nat.mul_zero, Nat.zero_add, List.getElem?_append_left (by rw [hf]; exact hj)]
      rfl
    | succ k =>
      have hsplit : c * (k + 1) + j = (f a).length + (c * k + j) := by
        rw [hf, Nat.mul_succ]
        omega
      rw [hsplit, List.getElem?_append_right (Nat.le_add_right _ _), Nat.add_sub_cancel_left, ih]
      rfl

theorem length_flatMap_blocks {α β : Type*} {f : α → List β} {c : ℕ} (hf : ∀ a, (f a).length = c)
    (l : List α) : (l.flatMap f).length = c * l.length := by
  induction l with
  | nil => rfl
  | cons a l ih => rw [List.flatMap_cons, List.length_append, hf, ih, List.length_cons, Nat.mul_succ, Nat.add_comm]

end Botgeddon.BitString
