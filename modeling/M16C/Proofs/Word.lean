import Mathlib.Data.Nat.Bitwise
import Mathlib.Data.Nat.Digits.Defs
import Mathlib.Tactic.IntervalCases
import M16C.Register

/-!
Words as rows of bytes. A mask of bytes keeps a value modulo a power of 256,
the sign bit of a size is the top bit of the value cut to that size, and
replacing a span of bytes in a word replaces those bytes and no others. All of
it is proved bit by bit, once for every width and offset.
-/

namespace M16C

/-- A byte of a word, counted from the lowest. Past the fourth they are zero. -/
def byteAt (word : UInt32) (index : Nat) : UInt8 := UInt8.ofNat (word.toNat / 256 ^ index)

/-- The number stored as `bytes`, the lowest byte first. -/
def littleEndian (bytes : List UInt8) : Nat := Nat.ofDigits 256 (bytes.map UInt8.toNat)

/-- The low `size` bytes of a word. -/
def lowBytes (size : Nat) (word : UInt32) : BitVec (8 * size) :=
  word.toBitVec.setWidth (8 * size)

theorem toNat_byteMask (width : Nat) : (byteMask width).toNat = 2 ^ (8 * min width 4) - 1 := by
  match width with
  | 0 | 1 | 2 | 3 => rfl
  | width + 4 =>
      rw [Nat.min_eq_right (Nat.le_add_left 4 width)]
      rfl

theorem toNat_and_byteMask (word : UInt32) (width : Nat) :
    (word &&& byteMask width).toNat = word.toNat % 2 ^ (8 * min width 4) := by
  rw [UInt32.toNat_and, toNat_byteMask, Nat.and_two_pow_sub_one_eq_mod]

theorem toNat_and_byteMask_of_le {width : Nat} (h : width ≤ 4) (word : UInt32) :
    (word &&& byteMask width).toNat = word.toNat % 2 ^ (8 * width) := by
  rw [toNat_and_byteMask, Nat.min_eq_left h]

theorem and_byteMask_and_byteMask {narrow wide : Nat} (h : narrow ≤ wide) (word : UInt32) :
    word &&& byteMask narrow &&& byteMask wide = word &&& byteMask narrow := by
  apply UInt32.toNat.inj
  rw [toNat_and_byteMask _ wide, toNat_and_byteMask]
  apply Nat.mod_eq_of_lt
  calc
    word.toNat % 2 ^ (8 * min narrow 4) < 2 ^ (8 * min narrow 4) := Nat.mod_lt _ (by positivity)
    _ ≤ 2 ^ (8 * min wide 4) := Nat.pow_le_pow_right (by decide) (by omega)

theorem toNat_signBit {size : Nat} (hlow : 1 ≤ size) (hhigh : size ≤ 4) :
    (signBit size).toNat = 2 ^ (8 * size - 1) := by
  interval_cases size <;> rfl

theorem toNat_lowBytes (size : Nat) (word : UInt32) :
    (lowBytes size word).toNat = word.toNat % 2 ^ (8 * size) := by
  rw [lowBytes, BitVec.toNat_setWidth, UInt32.toNat_toBitVec]

theorem lowBytes_eq_ofInt (size : Nat) (word : UInt32) :
    lowBytes size word = BitVec.ofInt (8 * size) word.toNat := by
  apply BitVec.eq_of_toNat_eq
  rw [toNat_lowBytes, BitVec.ofInt_natCast, BitVec.toNat_ofNat]

theorem lowBytes_and_byteMask {size : Nat} (h : size ≤ 4) (word : UInt32) :
    lowBytes size (word &&& byteMask size) = lowBytes size word := by
  apply BitVec.eq_of_toNat_eq
  rw [toNat_lowBytes, toNat_lowBytes, toNat_and_byteMask_of_le h, Nat.mod_mod]

theorem toNat_and_byteMask_eq_toNat_lowBytes {size : Nat} (h : size ≤ 4) (word : UInt32) :
    (word &&& byteMask size).toNat = (lowBytes size word).toNat := by
  rw [toNat_and_byteMask_of_le h, toNat_lowBytes]

/-- A value of `size` bytes as a word. -/
def widened {size : Nat} (value : BitVec (8 * size)) : UInt32 := UInt32.ofBitVec (value.setWidth 32)

section Widened

variable {size : Nat} (h : size ≤ 4)
include h

theorem toNat_widened (value : BitVec (8 * size)) : (widened value).toNat = value.toNat := by
  have hword : value.toNat < 2 ^ 32 :=
    value.isLt.trans_le (Nat.pow_le_pow_right (by decide) (by omega))
  rw [widened, UInt32.toNat_ofBitVec, BitVec.toNat_setWidth, Nat.mod_eq_of_lt hword]

theorem widened_lowBytes (word : UInt32) : widened (lowBytes size word) = word &&& byteMask size := by
  apply UInt32.toNat.inj
  rw [toNat_widened h, toNat_and_byteMask_eq_toNat_lowBytes h]

theorem lowBytes_widened (value : BitVec (8 * size)) : lowBytes size (widened value) = value := by
  apply BitVec.eq_of_toNat_eq
  rw [toNat_lowBytes, toNat_widened h, Nat.mod_eq_of_lt value.isLt]

theorem widened_and_byteMask {width : Nat} (hwidth : size ≤ width) (value : BitVec (8 * size)) :
    widened value &&& byteMask width = widened value := by
  have hcut : widened value = widened value &&& byteMask size := by
    rw [← widened_lowBytes h, lowBytes_widened h]
  rw [hcut, and_byteMask_and_byteMask hwidth]

end Widened

theorem lowBytes_add {size : Nat} (h : size ≤ 4) (a b : UInt32) :
    lowBytes size (a + b) = lowBytes size a + lowBytes size b := by
  rw [lowBytes, UInt32.toBitVec_add]
  exact BitVec.setWidth_add _ _ (by omega)

theorem lowBytes_sub {size : Nat} (h : size ≤ 4) (a b : UInt32) :
    lowBytes size (a - b) = lowBytes size a - lowBytes size b := by
  have hsum := lowBytes_add h (a - b) b
  rw [UInt32.sub_add_cancel] at hsum
  rw [hsum, BitVec.add_sub_cancel]

theorem lowBytes_and (size : Nat) (a b : UInt32) :
    lowBytes size (a &&& b) = lowBytes size a &&& lowBytes size b := by
  rw [lowBytes, UInt32.toBitVec_and, BitVec.setWidth_and, lowBytes, lowBytes]

theorem lowBytes_xor (size : Nat) (a b : UInt32) :
    lowBytes size (a ^^^ b) = lowBytes size a ^^^ lowBytes size b := by
  rw [lowBytes, UInt32.toBitVec_xor, BitVec.setWidth_xor, lowBytes, lowBytes]

/-- The sign of a word at some size is the top bit of its low bytes. -/
theorem and_signBit_ne_zero {size : Nat} (hlow : 1 ≤ size) (hhigh : size ≤ 4) (word : UInt32) :
    (word &&& signBit size != 0) = (lowBytes size word).msb := by
  have hbit : (word &&& signBit size).toNat =
      (word.toNat.testBit (8 * size - 1)).toNat * 2 ^ (8 * size - 1) := by
    rw [UInt32.toNat_and, toNat_signBit hlow hhigh, Nat.and_two_pow]
  have hmsb : (lowBytes size word).msb = word.toNat.testBit (8 * size - 1) := by
    rw [BitVec.msb_eq_getLsbD_last, ← BitVec.testBit_toNat, toNat_lowBytes,
      Nat.testBit_mod_two_pow, decide_eq_true (by omega), Bool.true_and]
  have hzero : word &&& signBit size = 0 ↔ (word &&& signBit size).toNat = 0 :=
    UInt32.toNat_inj.symm
  rw [hmsb, Bool.eq_iff_iff, bne_iff_ne, ne_eq, hzero, hbit]
  cases word.toNat.testBit (8 * size - 1) <;> simp

/-- The sign of differences between words, all at one size. -/
theorem and_xor_and_signBit_ne_zero {size : Nat} (hlow : 1 ≤ size) (hhigh : size ≤ 4)
    (p q r s : UInt32) :
    ((p ^^^ q) &&& (r ^^^ s) &&& signBit size != 0) =
      (((lowBytes size p).msb ^^ (lowBytes size q).msb) &&
        ((lowBytes size r).msb ^^ (lowBytes size s).msb)) := by
  rw [and_signBit_ne_zero hlow hhigh, lowBytes_and, lowBytes_xor, lowBytes_xor, BitVec.msb_and,
    BitVec.msb_xor, BitVec.msb_xor]

theorem pow_256 (count : Nat) : 256 ^ count = 2 ^ (8 * count) := by
  rw [Nat.pow_mul]

theorem testBit_byteAt (word : UInt32) (index bit : Nat) :
    (byteAt word index).toNat.testBit bit =
      (decide (bit < 8) && word.toNat.testBit (8 * index + bit)) := by
  rw [byteAt, UInt8.toNat_ofNat', Nat.testBit_mod_two_pow, pow_256, Nat.testBit_div_two_pow,
    Nat.add_comm]

theorem toNat_shift {offset : Nat} (h : offset < 4) :
    (UInt32.ofNat (8 * offset)).toNat % 32 = 8 * offset := by
  rw [UInt32.toNat_ofNat']
  omega

theorem testBit_shiftLeft {offset : Nat} (h : offset < 4) (word : UInt32) (bit : Nat) :
    (word <<< UInt32.ofNat (8 * offset)).toNat.testBit bit =
      (decide (bit < 32) && (decide (8 * offset ≤ bit) && word.toNat.testBit (bit - 8 * offset))) := by
  rw [UInt32.toNat_shiftLeft, toNat_shift h, Nat.testBit_mod_two_pow, Nat.testBit_shiftLeft]

theorem testBit_not (word : UInt32) (bit : Nat) :
    (~~~word).toNat.testBit bit = (decide (bit < 32) && !word.toNat.testBit bit) := by
  have hbit := @BitVec.getLsbD_not 32 bit word.toBitVec
  rw [← UInt32.toBitVec_not, ← BitVec.testBit_toNat, ← BitVec.testBit_toNat] at hbit
  exact hbit

/-- A word is its bits inside a mask and those outside. -/
theorem and_or_and_not (word mask : UInt32) : word &&& mask ||| word &&& ~~~mask = word := by
  apply UInt32.toBitVec_inj.mp
  ext bit hbit
  simp only [UInt32.toBitVec_or, UInt32.toBitVec_and, UInt32.toBitVec_not, BitVec.getElem_or,
    BitVec.getElem_and, BitVec.getElem_not]
  cases mask.toBitVec[bit] <;> simp

section Replace

variable {inner outer : UInt32} (hinner : inner &&& outer = inner) (word value : UInt32)
include hinner

/-- Replacing bits inside a mask, seen through a wider mask. -/
theorem replace_and :
    (word &&& ~~~inner ||| value &&& inner) &&& outer =
      word &&& outer &&& ~~~inner ||| value &&& inner := by
  rw [← hinner]
  apply UInt32.toBitVec_inj.mp
  ext bit hbit
  simp only [UInt32.toBitVec_or, UInt32.toBitVec_and, UInt32.toBitVec_not, BitVec.getElem_or,
    BitVec.getElem_and, BitVec.getElem_not]
  cases outer.toBitVec[bit] <;> simp

/-- Bits outside the wider mask are not replaced. -/
theorem replace_and_not :
    (word &&& ~~~inner ||| value &&& inner) &&& ~~~outer = word &&& ~~~outer := by
  rw [← hinner]
  apply UInt32.toBitVec_inj.mp
  ext bit hbit
  simp only [UInt32.toBitVec_or, UInt32.toBitVec_and, UInt32.toBitVec_not, BitVec.getElem_or,
    BitVec.getElem_and, BitVec.getElem_not]
  cases outer.toBitVec[bit] <;> simp

end Replace

/-- A span holds the bits of its bytes. -/
theorem testBit_spanMask {offset width : Nat} (hoffset : offset < 4) (hfits : offset + width ≤ 4)
    (bit : Nat) :
    (spanMask offset width).toNat.testBit bit =
      decide (8 * offset ≤ bit ∧ bit < 8 * (offset + width)) := by
  rw [spanMask, testBit_shiftLeft hoffset, toNat_byteMask, Nat.testBit_two_pow_sub_one,
    Bool.eq_iff_iff]
  simp only [Bool.and_eq_true, decide_eq_true_eq]
  omega

/-- Replacing a span of bytes in a word by the low bytes of a value. -/
theorem byteAt_replace {offset width : Nat} (hoffset : offset < 4) (hfits : offset + width ≤ 4)
    (word value : UInt32) (index : Nat) :
    byteAt ((word &&& ~~~spanMask offset width) |||
        ((value <<< UInt32.ofNat (8 * offset)) &&& spanMask offset width)) index =
      if offset ≤ index ∧ index < offset + width then byteAt value (index - offset)
      else byteAt word index := by
  apply UInt8.toNat.inj
  apply Nat.eq_of_testBit_eq
  intro bit
  have hword : 32 ≤ 8 * index + bit → word.toNat.testBit (8 * index + bit) = false := by
    intro hhigh
    exact Nat.testBit_lt_two_pow (word.toNat_lt.trans_le (Nat.pow_le_pow_right (by decide) hhigh))
  rw [testBit_byteAt, UInt32.toNat_or, Nat.testBit_or, UInt32.toNat_and, Nat.testBit_and,
    UInt32.toNat_and, Nat.testBit_and, testBit_not, testBit_spanMask hoffset hfits,
    testBit_shiftLeft hoffset]
  split
  · next hinside =>
      rw [testBit_byteAt]
      by_cases hbit : bit < 8
      · have hplace : 8 * index + bit - 8 * offset = 8 * (index - offset) + bit := by omega
        have hspan : 8 * offset ≤ 8 * index + bit ∧ 8 * index + bit < 8 * (offset + width) := by
          omega
        have hlow : 8 * index + bit < 32 := by omega
        simp [hplace, hspan, hlow]
      · simp [hbit]
  · next houtside =>
      rw [testBit_byteAt]
      by_cases hbit : bit < 8
      · have hspan : ¬ (8 * offset ≤ 8 * index + bit ∧ 8 * index + bit < 8 * (offset + width)) := by
          omega
        by_cases hlow : 8 * index + bit < 32
        · simp [hspan, hlow]
        · simp [hspan, hword (by omega)]
      · simp [hbit]

/-- The value of a span of bytes in a word, shifted down. -/
theorem toNat_span {offset width : Nat} (hoffset : offset < 4) (hfits : offset + width ≤ 4)
    (word : UInt32) :
    ((word &&& spanMask offset width) >>> UInt32.ofNat (8 * offset)).toNat =
      word.toNat / 256 ^ offset % 256 ^ width := by
  apply Nat.eq_of_testBit_eq
  intro bit
  rw [UInt32.toNat_shiftRight, toNat_shift hoffset, Nat.testBit_shiftRight, UInt32.toNat_and,
    Nat.testBit_and, testBit_spanMask hoffset hfits, pow_256, pow_256, Nat.testBit_mod_two_pow,
    Nat.testBit_div_two_pow, Nat.add_comm bit, Bool.and_comm]
  congr 1
  rw [decide_eq_decide]
  omega

theorem littleEndian_cons (byte : UInt8) (bytes : List UInt8) :
    littleEndian (byte :: bytes) = byte.toNat + 256 * littleEndian bytes := by
  rw [littleEndian, List.map_cons, Nat.ofDigits_cons, littleEndian]

/-- A run of bytes of a word, read with the lowest first, is a quotient and a
remainder of the word. -/
theorem littleEndian_bytes (word : UInt32) (offset width : Nat) :
    littleEndian ((List.range width).map fun index => byteAt word (offset + index)) =
      word.toNat / 256 ^ offset % 256 ^ width := by
  induction width generalizing offset with
  | zero => simp [littleEndian, Nat.mod_one]
  | succ width ih =>
      have hfirst : (byteAt word offset).toNat = word.toNat / 256 ^ offset % 256 := by
        rw [byteAt, UInt8.toNat_ofNat']
      have hlater : littleEndian ((List.range width).map fun index =>
          byteAt word (offset + (index + 1))) = word.toNat / 256 ^ offset / 256 % 256 ^ width := by
        rw [Nat.div_div_eq_div_mul, ← Nat.pow_succ, ← ih (offset + 1)]
        simp only [Nat.add_assoc, Nat.add_comm 1]
      rw [List.range_succ_eq_map, List.map_cons, List.map_map, littleEndian_cons, Nat.add_zero,
        hfirst, Nat.pow_succ', Nat.mod_mul, ← hlater]
      rfl

end M16C
