import M16C.Word

/-!
Operation sizes, chosen by the `.B` or `.W` of a mnemonic and by the lowest
bit of an opcode.
-/

namespace M16C

inductive Size where
  | byte | word
  deriving DecidableEq, Repr

namespace Size

def all : List Size := [.byte, .word]

def name : Size → String
  | .byte => "Byte"
  | .word => "Word"

/-- The size an opcode's lowest bit chooses. -/
def ofBit (opcode : UInt8) : Size := if opcode &&& 1 = 0 then .byte else .word

def bit : Size → UInt8
  | .byte => 0
  | .word => 1

def bytes : Size → Nat
  | .byte => 1
  | .word => 2

def specifier : Size → String
  | .byte => ".B"
  | .word => ".W"

def mask (size : Size) : UInt32 := byteMask size.bytes

end Size

end M16C
