/-!
The 20-bit address space. Addresses are carried as 32-bit numbers and are
reduced only where the machine reduces them: a relative branch lands at a
sum taken modulo the size of the space, and the way back is the signed
distance modulo the same size.
-/

namespace M16C

abbrev Address := UInt32

namespace Address

/-- Number of addresses: the program counter has twenty bits that count. -/
def space : Nat := 0x100000

/-- The highest address, which is also the mask that reduces an address. -/
def last : Address := 0xFFFFF

/-- The address reached when counting past the top starts again at zero. -/
def wrap (address : Address) : Address := address &&& last

/-- The address `distance` bytes away from `base` bytes past `address`. -/
def relative (address base : Address) (distance : Int) : Address :=
  UInt32.ofNat ((address.toNat + base.toNat + distance) % space).toNat

/-- The signed distance to `target` from `base` bytes past `address`, the one
of least magnitude in the space. -/
def displacement (target address base : Address) : Int :=
  Int.bmod (target.toNat - (address.toNat + base.toNat)) space

/-- The address of the byte after a run of `length` bytes at `address`. -/
def following (address : Address) (length : Nat) : Address :=
  relative address 0 length

end Address

end M16C
