/-!
Hexadecimal text. Numbers in messages and operands carry a leading `0x` and
lower-case digits, with zeros in front up to a least number of digits; byte
strings are two digits a byte with nothing between.
-/

namespace M16C.Hex

/-- At least `width` lower-case digits. -/
def digits (width n : Nat) : List Char :=
  List.leftpad width '0' (Nat.toDigits 16 n)

/-- At least `width` upper-case digits. -/
def upperDigits (width n : Nat) : List Char :=
  (digits width n).map Char.toUpper

/-- `0x` and at least `width` digits. -/
def padded (width n : Nat) : String :=
  "0x" ++ String.ofList (digits width n)

/-- `0x` and no more digits than the number has. -/
def plain (n : Nat) : String := padded 0 n

/-- A byte: two digits after `0x`. -/
def byte (b : UInt8) : String := padded 2 b.toNat

/-- A 16-bit address: four digits after `0x`. -/
def word (w : UInt16) : String := padded 4 w.toNat

/-- An address of the 20-bit space: five digits after `0x`, more for numbers
that lie outside it. -/
def address (a : UInt32) : String := padded 5 a.toNat

/-- A byte string such as `7cf210`. -/
def bytes (bs : List UInt8) : String :=
  String.ofList (bs.flatMap fun b => digits 2 b.toNat)

end M16C.Hex
