import M16C.Text.Record
import M16C.Register
import M16C.Size

/-!
Operands as instructions name them. A general operand is one of sixteen codes,
some followed by displacement or address bytes; a short operand is one of
five. Register numbers are kept as they are given: an encoding holds two bits
of a data register's number and one of an address register's, and the bits
above them are ignored wherever the number is used.
-/

namespace M16C

/-- A general operand. `dsp` is a displacement, read as unsigned except from
`FB`. -/
inductive Operand where
  | data (index : UInt8)
  | address (index : UInt8)
  | indirect (index : UInt8)
  | dsp8Address (index : UInt8) (dsp : UInt8)
  | dsp8Sb (dsp : UInt8)
  | dsp8Fb (dsp : Int8)
  | dsp16Address (index : UInt8) (dsp : UInt16)
  | dsp16Sb (dsp : UInt16)
  | abs16 (address : UInt16)
  deriving DecidableEq, Repr

/-- The five operands that short formats can name, without their bytes. -/
inductive ShortMode where
  | r0h | r0l | dsp8Sb | dsp8Fb | abs16
  deriving DecidableEq, Repr

/-- The destination of a short format. -/
inductive ShortOperand where
  | r0h
  | r0l
  | dsp8Sb (dsp : UInt8)
  | dsp8Fb (dsp : Int8)
  | abs16 (address : UInt16)
  deriving DecidableEq, Repr

/-- The registers that the short push and pop can name. -/
inductive ShortRegister where
  | r0l | r0h
  deriving DecidableEq, Repr

/-- The data register of a number, at a size. -/
def dataRegister (index : UInt8) : Size → Register
  | .byte => match index.toNat % 4 with
    | 0 => .r0l
    | 1 => .r0h
    | 2 => .r1l
    | _ => .r1h
  | .word => match index.toNat % 4 with
    | 0 => .r0
    | 1 => .r1
    | 2 => .r2
    | _ => .r3

/-- The address register of a number. -/
def addressRegister (index : UInt8) : Register :=
  if index.toNat % 2 = 0 then .a0 else .a1

namespace Operand

/-- The four-bit code of the operand. -/
def code : Operand → UInt8
  | .data index => index % 4
  | .address index => 4 + index % 2
  | .indirect index => 6 + index % 2
  | .dsp8Address index _ => 8 + index % 2
  | .dsp8Sb _ => 10
  | .dsp8Fb _ => 11
  | .dsp16Address index _ => 12 + index % 2
  | .dsp16Sb _ => 14
  | .abs16 _ => 15

/-- The bytes that follow the code. -/
def extension : Operand → List UInt8
  | .data _ | .address _ | .indirect _ => []
  | .dsp8Address _ dsp => [dsp]
  | .dsp8Sb dsp => [dsp]
  | .dsp8Fb dsp => [dsp.toUInt8]
  | .dsp16Address _ dsp => wordBytes dsp
  | .dsp16Sb dsp => wordBytes dsp
  | .abs16 place => wordBytes place

/-- The register that the operand is, when it is one. An address register has
one name at both sizes. -/
def register? (operand : Operand) (size : Size) : Option Register :=
  match operand with
  | .data index => some (dataRegister index size)
  | .address index => some (addressRegister index)
  | _ => none

/-- The register that a memory operand counts from. -/
def base? : Operand → Option Register
  | .indirect index | .dsp8Address index _ | .dsp16Address index _ => some (addressRegister index)
  | .dsp8Sb _ | .dsp16Sb _ => some .sb
  | .dsp8Fb _ => some .fb
  | .data _ | .address _ | .abs16 _ => none

def recordText : Operand → String
  | .data index => Record.single "Data" (toString index.toNat)
  | .address index => Record.single "Address" (toString index.toNat)
  | .indirect index => Record.single "Indirect" (toString index.toNat)
  | .dsp8Address index dsp =>
      Record.fields "Disp8Address" [("index", toString index.toNat), ("dsp", toString dsp.toNat)]
  | .dsp8Sb dsp => Record.single "Disp8Sb" (toString dsp.toNat)
  | .dsp8Fb dsp => Record.single "Disp8Fb" (toString dsp.toInt)
  | .dsp16Address index dsp =>
      Record.fields "Disp16Address" [("index", toString index.toNat), ("dsp", toString dsp.toNat)]
  | .dsp16Sb dsp => Record.single "Disp16Sb" (toString dsp.toNat)
  | .abs16 place => Record.single "Abs16" (toString place.toNat)

end Operand

namespace ShortMode

def all : List ShortMode := [.r0h, .r0l, .dsp8Sb, .dsp8Fb, .abs16]

/-- The three-bit code of the operand in an opcode. -/
def code : ShortMode → UInt8
  | .r0h => 3
  | .r0l => 4
  | .dsp8Sb => 5
  | .dsp8Fb => 6
  | .abs16 => 7

end ShortMode

namespace ShortOperand

def mode : ShortOperand → ShortMode
  | .r0h => .r0h
  | .r0l => .r0l
  | .dsp8Sb _ => .dsp8Sb
  | .dsp8Fb _ => .dsp8Fb
  | .abs16 _ => .abs16

/-- The general operand for the same place. -/
def general : ShortOperand → Operand
  | .r0h => .data 1
  | .r0l => .data 0
  | .dsp8Sb dsp => .dsp8Sb dsp
  | .dsp8Fb dsp => .dsp8Fb dsp
  | .abs16 place => .abs16 place

/-- The bytes that follow the opcode for this operand. -/
def extension (operand : ShortOperand) : List UInt8 := operand.general.extension

def recordText : ShortOperand → String
  | .r0h => "R0H"
  | .r0l => "R0L"
  | .dsp8Sb dsp => Record.single "Disp8Sb" (toString dsp.toNat)
  | .dsp8Fb dsp => Record.single "Disp8Fb" (toString dsp.toInt)
  | .abs16 place => Record.single "Abs16" (toString place.toNat)

end ShortOperand

namespace ShortRegister

def all : List ShortRegister := [.r0l, .r0h]

def name : ShortRegister → String
  | .r0l => "R0L"
  | .r0h => "R0H"

def bit : ShortRegister → UInt8
  | .r0l => 0
  | .r0h => 1

def register : ShortRegister → Register
  | .r0l => .r0l
  | .r0h => .r0h

end ShortRegister

end M16C
