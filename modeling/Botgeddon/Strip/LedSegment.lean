import Botgeddon.Lib.BitString

/-! The LED strip's encoding.

The strip takes 24 bits a pixel, green first. Each of them is three bits on the
SPI line, 110 for a one and 100 for a zero, so the encoder counts bits and not
bytes; two bytes of zeros after the last pixel latch the frame. -/
namespace Botgeddon.Strip
open BitString

structure ColorTriplet where
  r : UInt8
  g : UInt8
  b : UInt8
deriving DecidableEq

def spiBitsPerPixel : ℕ := 3
def colorBitsPerPixel : ℕ := 24
def paddingBits : ℕ := 16

/-- `DataLen`. -/
def dataLen (N : ℕ) : ℕ := N * colorBitsPerPixel * spiBitsPerPixel / 8 + paddingBits / 8

theorem dataLen_eq (N : ℕ) : dataLen N = 9 * N + 2 := by
  unfold dataLen colorBitsPerPixel spiBitsPerPixel paddingBits
  omega

def ColorTriplet.fullColorBits (c : ColorTriplet) : UInt32 :=
  (c.g.toUInt32 <<< 16) ||| (c.r.toUInt32 <<< 8) ||| c.b.toUInt32

/-- The colour bit `s` of the `i`-th round of the inner loop. -/
def ColorTriplet.colorBit (c : ColorTriplet) (i : ℕ) : Bool :=
  (c.fullColorBits >>> UInt32.ofNat (23 - i)) &&& 1 ≠ 0

variable {len N : ℕ}

/-- The two branches of the inner loop. -/
def putColorBit (w : Writer len) (s : Bool) : Writer len :=
  if s then ((w.put true).put true).put false
  else ((w.put true).put false).put false

def putPixel (w : Writer len) (c : ColorTriplet) : Writer len :=
  (List.range 24).foldl (fun w i => putColorBit w (c.colorBit i)) w

/-- `ConvertNeoToSpi`, from the previous content of `_spiBuf`. `std::fill` stores to
every byte before the first bit is set. -/
def convertNeoToSpi (data : Vector ColorTriplet N) (spiBuf : Vector UInt8 (dataLen N)) :
    Writer (dataLen N) :=
  data.toList.foldl putPixel ⟨spiBuf.map fun _ => 0, 0, List.range (dataLen N)⟩

/-- `Refresh`: the buffer afterwards, and the bytes transferred. -/
def refresh (data : Vector ColorTriplet N) (spiBuf : Vector UInt8 (dataLen N)) :
    Vector UInt8 (dataLen N) × List UInt8 :=
  ((convertNeoToSpi data spiBuf).buf, (convertNeoToSpi data spiBuf).buf.toList.take (dataLen N))

/-! ### The bits of a frame -/

/-- The three SPI bits of a colour bit. -/
def group (s : Bool) : List Bool := [true, s, false]

def pixelBits (c : ColorTriplet) : List Bool := (List.range 24).flatMap fun i => group (c.colorBit i)

def frameBits (data : Vector ColorTriplet N) : List Bool := data.toList.flatMap pixelBits

theorem group_length (s : Bool) : (group s).length = 3 := rfl

theorem pixelBits_length (c : ColorTriplet) : (pixelBits c).length = 72 :=
  length_flatMap_blocks (fun i => group_length (c.colorBit i)) _

theorem frameBits_length (data : Vector ColorTriplet N) : (frameBits data).length = 72 * N := by
  rw [frameBits, length_flatMap_blocks pixelBits_length, Vector.length_toList]

theorem putColorBit_eq (w : Writer len) (s : Bool) : putColorBit w s = w.puts (group s) := by
  cases s <;> rfl

/-- A loop of writes is one write. -/
theorem foldl_puts {α : Type*} (f : α → List Bool) (w : Writer len) (l : List α) :
    l.foldl (fun w a => w.puts (f a)) w = w.puts (l.flatMap f) := by
  induction l generalizing w with
  | nil => rfl
  | cons a l ih => rw [List.foldl_cons, ih, List.flatMap_cons, Writer.puts_append]

theorem putPixel_eq (w : Writer len) (c : ColorTriplet) : putPixel w c = w.puts (pixelBits c) := by
  unfold putPixel pixelBits
  simp only [putColorBit_eq]
  exact foldl_puts _ w _

theorem fill_eq (spiBuf : Vector UInt8 len) : (spiBuf.map fun _ => (0 : UInt8)) = Vector.replicate len 0 := by
  apply Vector.ext
  intro i hi
  rw [Vector.getElem_map, Vector.getElem_replicate]

theorem convertNeoToSpi_eq (data : Vector ColorTriplet N) (spiBuf : Vector UInt8 (dataLen N)) :
    convertNeoToSpi data spiBuf =
      Writer.puts ⟨Vector.replicate (dataLen N) 0, 0, List.range (dataLen N)⟩ (frameBits data) := by
  unfold convertNeoToSpi frameBits
  rw [fill_eq, ← foldl_puts]
  have hpixel : (putPixel : Writer (dataLen N) → ColorTriplet → Writer (dataLen N)) =
      fun w c => w.puts (pixelBits c) := by
    funext w c
    exact putPixel_eq w c
  rw [hpixel]

/-- The buffer holds the frame's bits, and zeros after them. -/
theorem bitAt_convertNeoToSpi (data : Vector ColorTriplet N) (spiBuf : Vector UInt8 (dataLen N)) (m : ℕ) :
    bitAt (convertNeoToSpi data spiBuf).buf m = ((frameBits data)[m]?).getD false := by
  rw [convertNeoToSpi_eq, Writer.bitAt_puts]
  · rfl
  · rw [frameBits_length, dataLen_eq]
    show 0 + 72 * N ≤ 8 * (9 * N + 2)
    omega
  · exact fun m _ => bitAt_replicate _ m

/-- Bit `t` of the `i`-th group of pixel `k`. -/
theorem frameBits_group (data : Vector ColorTriplet N) {k i t : ℕ} (hk : k < N) (hi : i < 24) (ht : t < 3) :
    (frameBits data)[3 * (24 * k + i) + t]? = (group (data[k].colorBit i))[t]? := by
  rw [show 3 * (24 * k + i) + t = 72 * k + (3 * i + t) by omega, frameBits,
    getElem?_flatMap_blocks pixelBits_length _ _ _ (by omega)]
  have hpixel : data.toList[k]? = some data[k] := by
    rw [List.getElem?_eq_getElem (by rw [Vector.length_toList]; exact hk), Vector.getElem_toList]
  have hgroup : ∀ i, (group (data[k].colorBit i)).length = 3 := fun i => group_length _
  rw [hpixel, Option.bind_some, pixelBits, getElem?_flatMap_blocks hgroup _ _ _ ht,
    List.getElem?_range hi]
  rfl

/-! ### Reading a frame back -/

/-- Group `j` of three bits, read as a colour bit. -/
def decodeGroup (buf : Vector UInt8 len) (j : ℕ) : Option Bool :=
  match bitAt buf (3 * j), bitAt buf (3 * j + 1), bitAt buf (3 * j + 2) with
  | true, true, false => some true
  | true, false, false => some false
  | _, _, _ => none

/-- The bytes of a pixel as they go out. -/
def ColorTriplet.wireByte (c : ColorTriplet) : ℕ → UInt8
  | 0 => c.g
  | 1 => c.r
  | _ => c.b

theorem decodeGroup_convertNeoToSpi (data : Vector ColorTriplet N) (spiBuf : Vector UInt8 (dataLen N))
    {k i : ℕ} (hk : k < N) (hi : i < 24) :
    decodeGroup (convertNeoToSpi data spiBuf).buf (24 * k + i) = some (data[k].colorBit i) := by
  have hbit : ∀ t < 3, bitAt (convertNeoToSpi data spiBuf).buf (3 * (24 * k + i) + t) =
      ((group (data[k].colorBit i))[t]?).getD false := fun t ht => by
    rw [bitAt_convertNeoToSpi, frameBits_group data hk hi ht]
  have h0 := hbit 0 (by decide)
  have h1 := hbit 1 (by decide)
  have h2 := hbit 2 (by decide)
  rw [Nat.add_zero] at h0
  unfold decodeGroup
  rw [h0, h1, h2]
  cases data[k].colorBit i <;> rfl

theorem fullColorBits_toNat (c : ColorTriplet) :
    c.fullColorBits.toNat = c.g.toNat <<< 16 ||| c.r.toNat <<< 8 ||| c.b.toNat := by
  have hg := c.g.toNat_lt
  have hr := c.r.toNat_lt
  have hshift : ∀ x s : ℕ, x < 2 ^ 8 → s ≤ 16 → x <<< s % 2 ^ 32 = x <<< s := by
    intro x s hx hs
    refine Nat.mod_eq_of_lt ?_
    calc x <<< s = x * 2 ^ s := Nat.shiftLeft_eq x s
      _ < 2 ^ 8 * 2 ^ s := Nat.mul_lt_mul_of_pos_right hx (Nat.two_pow_pos s)
      _ ≤ 2 ^ 8 * 2 ^ 16 := Nat.mul_le_mul_left _ (Nat.pow_le_pow_right (by decide) hs)
      _ ≤ 2 ^ 32 := by decide
  unfold ColorTriplet.fullColorBits
  simp only [UInt32.toNat_or, UInt32.toNat_shiftLeft, UInt8.toNat_toUInt32]
  rw [show (16 : UInt32).toNat % 32 = 16 from rfl, show (8 : UInt32).toNat % 32 = 8 from rfl,
    hshift _ _ hg (by decide), hshift _ _ hr (by decide)]

/-- Shifting a bit down and masking it tests it. -/
theorem colorBit_testBit (c : ColorTriplet) {i : ℕ} (hi : i < 24) :
    c.colorBit i = c.fullColorBits.toNat.testBit (23 - i) := by
  have hshift : (UInt32.ofNat (23 - i)).toNat % 32 = 23 - i := by
    rw [UInt32.toNat_ofNat']
    omega
  have hzero : ∀ x : UInt32, x ≠ 0 ↔ x.toNat ≠ 0 := fun x => not_congr UInt32.toNat_inj.symm
  have hmasked : ((c.fullColorBits >>> UInt32.ofNat (23 - i)) &&& 1).toNat =
      1 &&& c.fullColorBits.toNat >>> (23 - i) := by
    rw [UInt32.toNat_and, UInt32.toNat_shiftRight, hshift, Nat.and_comm]
    rfl
  unfold ColorTriplet.colorBit Nat.testBit
  rw [Bool.eq_iff_iff, decide_eq_true_iff, hzero, hmasked, bne_iff_ne]

/-- Colour bits are green, red and blue, each from the top bit down. -/
theorem colorBit_eq (c : ColorTriplet) {i : ℕ} (hi : i < 24) :
    c.colorBit i = (c.wireByte (i / 8)).toNat.testBit (7 - i % 8) := by
  rw [colorBit_testBit c hi, fullColorBits_toNat, Nat.testBit_or, Nat.testBit_or,
    Nat.testBit_shiftLeft, Nat.testBit_shiftLeft]
  rcases Nat.lt_or_ge i 8 with hgreen | hrest
  · rw [show i / 8 = 0 by omega, testBit_high c.r (by omega), testBit_high c.b (by omega),
      show 23 - i - 16 = 7 - i % 8 by omega, decide_eq_true (show 23 - i ≥ 16 by omega)]
    simp [ColorTriplet.wireByte]
  · rw [decide_eq_false (show ¬ 23 - i ≥ 16 by omega), Bool.false_and, Bool.false_or]
    rcases Nat.lt_or_ge i 16 with hred | hblue
    · rw [show i / 8 = 1 by omega, testBit_high c.b (by omega), show 23 - i - 8 = 7 - i % 8 by omega,
        decide_eq_true (show 23 - i ≥ 8 by omega)]
      simp [ColorTriplet.wireByte]
    · rw [show i / 8 = 2 by omega, decide_eq_false (show ¬ 23 - i ≥ 8 by omega),
        show 23 - i = 7 - i % 8 by omega]
      simp [ColorTriplet.wireByte]

/-! ### The encoding -/

theorem group_decodes (data : Vector ColorTriplet N) (spiBuf : Vector UInt8 (dataLen N)) {k i : ℕ}
    (hk : k < N) (hi : i < 24) :
    decodeGroup (convertNeoToSpi data spiBuf).buf (24 * k + i) =
      some ((data[k].wireByte (i / 8)).toNat.testBit (7 - i % 8)) := by
  rw [decodeGroup_convertNeoToSpi data spiBuf hk hi, colorBit_eq data[k] hi]

/-- After the fill, only bytes of pixels are stored to. -/
theorem stores_convertNeoToSpi (data : Vector ColorTriplet N) (spiBuf : Vector UInt8 (dataLen N)) :
    ∃ encoded, (convertNeoToSpi data spiBuf).stores = List.range (dataLen N) ++ encoded ∧
      ∀ byte ∈ encoded, byte < 9 * N := by
  refine ⟨(List.range (frameBits data).length).map fun j => (0 + j) / 8, ?_, fun byte hbyte => ?_⟩
  · rw [convertNeoToSpi_eq, Writer.stores_puts]
  · obtain ⟨j, hj, rfl⟩ := List.mem_map.mp hbyte
    rw [List.mem_range, frameBits_length] at hj
    omega

theorem padding_convertNeoToSpi (data : Vector ColorTriplet N) (spiBuf : Vector UInt8 (dataLen N))
    {m : ℕ} (hm : 72 * N ≤ m) : bitAt (convertNeoToSpi data spiBuf).buf m = false := by
  rw [bitAt_convertNeoToSpi, List.getElem?_eq_none (by rw [frameBits_length]; exact hm)]
  rfl

/-- The previous content of the buffer has no part in the result. -/
theorem convertNeoToSpi_buf (data : Vector ColorTriplet N) (spiBuf spiBuf' : Vector UInt8 (dataLen N)) :
    (convertNeoToSpi data spiBuf).buf = (convertNeoToSpi data spiBuf').buf := by
  rw [convertNeoToSpi_eq, convertNeoToSpi_eq]

/-- Frames that look the same on the line are the same. -/
theorem convertNeoToSpi_injective {data data' : Vector ColorTriplet N}
    {spiBuf spiBuf' : Vector UInt8 (dataLen N)}
    (h : (convertNeoToSpi data spiBuf).buf = (convertNeoToSpi data' spiBuf').buf) : data = data' := by
  apply Vector.ext
  intro k hk
  have hbyte : ∀ j < 3, data[k].wireByte j = data'[k].wireByte j := by
    intro j hj
    refine byte_ext fun t ht => ?_
    have hgroup := group_decodes data spiBuf hk (show 8 * j + t < 24 by omega)
    rw [h, group_decodes data' spiBuf' hk (show 8 * j + t < 24 by omega)] at hgroup
    rw [show (8 * j + t) / 8 = j by omega, show (8 * j + t) % 8 = t by omega] at hgroup
    exact (Option.some.inj hgroup).symm
  have hg : data[k].g = data'[k].g := hbyte 0 (by decide)
  have hr : data[k].r = data'[k].r := hbyte 1 (by decide)
  have hb : data[k].b = data'[k].b := hbyte 2 (by decide)
  cases hc : data[k]
  cases hc' : data'[k]
  rw [hc, hc'] at hg hr hb
  simp_all

/-- `Refresh` transfers the whole buffer. -/
theorem refresh_transfers (data : Vector ColorTriplet N) (spiBuf : Vector UInt8 (dataLen N)) :
    (refresh data spiBuf).2 = (convertNeoToSpi data spiBuf).buf.toList := by
  show List.take _ _ = _
  rw [List.take_of_length_le (by rw [Vector.length_toList])]

/-- **The encoding decodes.** The buffer is cleared as a whole, and after that only
the first nine bytes a pixel are stored to; the groups of three bits are the
colours, green, red and blue from the top bit down; the last 16 bits are zero; no
earlier frame shows through, and different frames differ on the line. -/
theorem convertNeoToSpi_round_trip (data : Vector ColorTriplet N) (spiBuf : Vector UInt8 (dataLen N)) :
    dataLen N = 9 * N + 2 ∧
      (∃ encoded, (convertNeoToSpi data spiBuf).stores = List.range (dataLen N) ++ encoded ∧
        ∀ byte ∈ encoded, byte < 9 * N) ∧
      (∀ k (hk : k < N) i, i < 24 → decodeGroup (convertNeoToSpi data spiBuf).buf (24 * k + i) =
        some ((data[k].wireByte (i / 8)).toNat.testBit (7 - i % 8))) ∧
      (∀ m, 72 * N ≤ m → m < 72 * N + 16 → bitAt (convertNeoToSpi data spiBuf).buf m = false) ∧
      (∀ spiBuf', (convertNeoToSpi data spiBuf).buf = (convertNeoToSpi data spiBuf').buf) ∧
      ∀ data' spiBuf', (refresh data spiBuf).2 = (refresh data' spiBuf').2 → data = data' := by
  refine ⟨dataLen_eq N, stores_convertNeoToSpi data spiBuf, fun k hk i hi => group_decodes data spiBuf hk hi,
    fun m hm _ => padding_convertNeoToSpi data spiBuf hm, convertNeoToSpi_buf data spiBuf,
    fun data' spiBuf' h => ?_⟩
  rw [refresh_transfers, refresh_transfers] at h
  exact convertNeoToSpi_injective (Vector.toList_inj.mp h)

/-- One pixel over a buffer of ones: its red byte's bits, and the latch. -/
theorem convertNeoToSpi_round_trip_pixel :
    (∀ i < 8, decodeGroup (convertNeoToSpi #v[⟨0x05, 0xF0, 0x00⟩] (Vector.replicate (dataLen 1) 0xFF)).buf
      (8 + i) = some ((0x05 : UInt8).toNat.testBit (7 - i))) ∧
      bitAt (convertNeoToSpi #v[⟨0x05, 0xF0, 0x00⟩] (Vector.replicate (dataLen 1) 0xFF)).buf 80 = false := by
  have hlaw := convertNeoToSpi_round_trip #v[⟨0x05, 0xF0, 0x00⟩] (Vector.replicate (dataLen 1) 0xFF)
  refine ⟨fun i hi => ?_, hlaw.2.2.2.1 80 (by decide) (by decide)⟩
  have hgroup := hlaw.2.2.1 0 (by decide) (8 + i) (by omega)
  rw [show (8 + i) / 8 = 1 by omega, show (8 + i) % 8 = i by omega, Nat.mul_zero, Nat.zero_add] at hgroup
  exact hgroup

/-- The fill clears the two bytes after the pixels as well. -/
theorem fill_stores_padding :
    (¬ ∀ byte ∈ (convertNeoToSpi #v[⟨0x05, 0xF0, 0x00⟩] (Vector.replicate (dataLen 1) 0xFF)).stores,
      byte < 9 * 1) ∧
      (Vector.replicate (dataLen 1) (0xFF : UInt8))[9 * 1]! = 0xFF ∧
      (convertNeoToSpi #v[⟨0x05, 0xF0, 0x00⟩] (Vector.replicate (dataLen 1) 0xFF)).buf[9 * 1]! = 0 := by
  decide +kernel

end Botgeddon.Strip
