/-!
Bytes inside 32-bit words. Register views and operation sizes are counted in
bytes, from none to the whole word; a width past four bytes covers the whole
word as well. Words of two bytes are stored with the low byte first.
-/

namespace M16C

/-- The low `width` bytes of a word. -/
def byteMask : Nat → UInt32
  | 0 => 0
  | 1 => 0xFF
  | 2 => 0xFFFF
  | 3 => 0xFFFFFF
  | _ => 0xFFFFFFFF

/-- The sign of a value of `width` bytes: the top bit of its last byte. A value
of no bytes is read as one of a single byte. -/
def signBit : Nat → UInt32
  | 0 | 1 => 0x80
  | 2 => 0x8000
  | 3 => 0x800000
  | _ => 0x80000000

/-- A two-byte value in storage order. -/
def wordBytes (value : UInt16) : List UInt8 :=
  [value.toUInt8, (value / 256).toUInt8]

/-- The two-byte value stored as `low`, `high`. -/
def wordOfBytes (low high : UInt8) : UInt16 :=
  UInt16.ofNat (low.toNat + 256 * high.toNat)

theorem wordOfBytes_wordBytes (value : UInt16) :
    wordOfBytes value.toUInt8 (value / 256).toUInt8 = value := by
  apply UInt16.toNat.inj
  have bound := value.toNat_lt
  simp only [wordOfBytes, UInt16.toNat_ofNat', UInt16.toNat_toUInt8, UInt16.toNat_div]
  simp only [UInt16.reduceToNat]
  omega

end M16C
