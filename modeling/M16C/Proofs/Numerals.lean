import Mathlib.Algebra.Group.Int.Defs
import M16C.Proofs.Digits
import M16C.Instruction.Line

/-!
Numbers as the tokens of a line show them, and how they are read. Addresses and
displacements are written in hexadecimal, some padded and some with a minus sign
in front; immediates stand behind a `#` and are hexadecimal or decimal. One
reader takes all of them back, so what is written differently is read
differently. The 64-bit value that a token carries is computed apart from its
text, and is what the text says modulo 2^64.
-/

namespace M16C

namespace Numeral

/-- A number in hexadecimal behind `0x`, or in decimal; at least one digit. -/
def magnitude? : List Char → Option Nat
  | '0' :: 'x' :: digits =>
      if digits ≠ [] ∧ digits.all (fun c => (AddressText.digit? 16 c).isSome) = true then
        some (Hex.value digits)
      else none
  | digits =>
      if digits ≠ [] ∧ digits.all Char.isDigit = true then some (Nat.ofDigitChars 10 digits 0)
      else none

/-- A number behind an optional minus sign. -/
def integer? : List Char → Option Int
  | '-' :: digits => (magnitude? digits).map fun n => -(n : Int)
  | digits => (magnitude? digits).map fun n => (n : Int)

/-- A number as the text of a token, behind a `#` when it is an immediate. -/
def shown? : List Char → Option Int
  | '#' :: number => integer? number
  | number => integer? number

theorem isSome_digit?_of_mem_digits {width n : Nat} {c : Char} (h : c ∈ Hex.digits width n) :
    (AddressText.digit? 16 c).isSome = true := by
  obtain ⟨d, hd, rfl⟩ := Hex.exists_of_mem_digits h
  rw [Hex.digit?_digitChar d hd]
  rfl

theorem digits_ne_nil (width n : Nat) : Hex.digits width n ≠ [] := by
  simp [Hex.digits, List.leftpad]

theorem toList_padded (width n : Nat) :
    (Hex.padded width n).toList = '0' :: 'x' :: Hex.digits width n := by
  simp [Hex.padded]

theorem magnitude?_padded (width n : Nat) :
    magnitude? (Hex.padded width n).toList = some n := by
  have hdigits : (Hex.digits width n).all (fun c => (AddressText.digit? 16 c).isSome) = true :=
    List.all_eq_true.mpr fun c hc => isSome_digit?_of_mem_digits hc
  rw [toList_padded, magnitude?, if_pos ⟨digits_ne_nil width n, hdigits⟩, Hex.value_digits]

/-- Decimal digits start with none of the characters that steer the reader. -/
theorem magnitude?_repr (n : Nat) : magnitude? n.repr.toList = some n := by
  have hdigits : ∀ c ∈ n.repr.toList, c.isDigit = true := by
    intro c hc
    rw [Nat.toList_repr] at hc
    exact Nat.isDigit_of_mem_toDigits (by omega) (by omega) hc
  have hne : n.repr.toList ≠ [] := by
    rw [Nat.toList_repr]
    exact Nat.toDigits_ne_nil
  unfold magnitude?
  split
  · next digits hprefixed =>
      have hx : 'x'.isDigit = true := hdigits 'x' (by simp [hprefixed])
      exact absurd hx (by decide)
  · rw [if_pos ⟨hne, List.all_eq_true.mpr hdigits⟩, Nat.toList_repr, Nat.ofDigitChars_ten_toDigits]

/-- No number that can be read as a magnitude carries a sign. -/
theorem integer?_of_magnitude? {text : List Char} {n : Nat} (h : magnitude? text = some n) :
    integer? text = some (n : Int) := by
  unfold integer?
  split
  · -- A minus sign is no digit, in either base.
      simp [magnitude?] at h
  · rw [h]
    rfl

theorem integer?_neg {digits : List Char} {n : Nat} (h : magnitude? digits = some n) :
    integer? ('-' :: digits) = some (-(n : Int)) := by
  rw [integer?, h]
  rfl

theorem integer?_signedHex (n : Int) : integer? (signedHex n).toList = some n := by
  unfold signedHex
  split
  · next hneg =>
      rw [String.toList_append]
      refine (integer?_neg (magnitude?_padded 0 n.natAbs)).trans (congrArg some ?_)
      omega
  · next hpos =>
      refine (integer?_of_magnitude? (magnitude?_padded 0 n.toNat)).trans (congrArg some ?_)
      omega

theorem integer?_repr (n : Int) : integer? n.repr.toList = some n := by
  rw [Int.repr_eq_if]
  split
  · next hpos =>
      refine (integer?_of_magnitude? (magnitude?_repr n.toNat)).trans (congrArg some ?_)
      omega
  · next hneg =>
      rw [String.toList_append]
      refine (integer?_neg (magnitude?_repr (-n).toNat)).trans (congrArg some ?_)
      omega

theorem integer?_padded (width n : Nat) :
    integer? (Hex.padded width n).toList = some (n : Int) :=
  integer?_of_magnitude? (magnitude?_padded width n)

/-- Whatever reads as an integer is shown as it stands, or behind a `#`. -/
theorem shown?_of_integer? {text : List Char} {n : Int} (h : integer? text = some n) :
    shown? text = some n := by
  unfold shown?
  split
  · simp [integer?, magnitude?] at h
  · exact h

theorem shown?_hash {text : String} {n : Int} (h : integer? text.toList = some n) :
    shown? ("#" ++ text).toList = some n := by
  rw [String.toList_append]
  exact h

end Numeral

theorem toNat_tokenValue (n : Int) : ((tokenValue n).toNat : Int) = n % 2 ^ 64 := by
  have hbits : (tokenValue n).toNat = (BitVec.ofInt 64 n).toNat := by
    rw [tokenValue, ← UInt64.toNat_toBitVec, Int64.toBitVec_toUInt64, Int64.toBitVec_ofInt]
  rw [hbits, BitVec.toNat_ofInt]
  omega

end M16C
