import M16C.Address
import M16C.BranchCondition
import M16C.Operand

/-!
Instructions. Every value of the type can be rendered, analysed and lifted,
also those with fields that no encoding holds, such as an interrupt vector
above 63; only encoding refuses them. Branch targets are addresses, whatever
the distance the branch was written with.
-/

namespace M16C

/-- The distance specifier of a jump: how its target is encoded. -/
inductive JumpDistance where
  | short | byte | word | absolute
  deriving DecidableEq, Repr

/-- The distance specifier of a subroutine call. -/
inductive CallDistance where
  | word | absolute
  deriving DecidableEq, Repr

/-- The operations that have a format with a four-bit signed immediate. -/
inductive QuickOperation where
  | mov | add | cmp
  deriving DecidableEq, Repr

inductive Instruction where
  | brk
  | nop
  | rts
  | reit
  | und
  | wait
  | exitd
  | enter (frame : UInt8)
  | int (vector : UInt8)
  | fset (flag : Flag)
  | fclr (flag : Flag)
  | jmp (distance : JumpDistance) (target : Address)
  | jsr (distance : CallDistance) (target : Address)
  | jcnd (condition : BranchCondition) (target : Address)
  | movG (size : Size) (src dest : Operand)
  | movImm (size : Size) (imm : UInt16) (dest : Operand)
  | quick (operation : QuickOperation) (size : Size) (imm : Int8) (dest : Operand)
  | movS (imm : UInt8) (dest : ShortOperand)
  | movZ (dest : ShortOperand)
  | pushS (register : ShortRegister)
  | popS (register : ShortRegister)
  deriving DecidableEq, Repr

namespace JumpDistance

def all : List JumpDistance := [.short, .byte, .word, .absolute]

def name : JumpDistance → String
  | .short => "Short"
  | .byte => "Byte"
  | .word => "Word"
  | .absolute => "Absolute"

def specifier : JumpDistance → String
  | .short => ".S"
  | .byte => ".B"
  | .word => ".W"
  | .absolute => ".A"

end JumpDistance

namespace CallDistance

def all : List CallDistance := [.word, .absolute]

def name : CallDistance → String
  | .word => "Word"
  | .absolute => "Absolute"

def specifier : CallDistance → String
  | .word => ".W"
  | .absolute => ".A"

end CallDistance

namespace QuickOperation

def all : List QuickOperation := [.mov, .add, .cmp]

def name : QuickOperation → String
  | .mov => "MovQ"
  | .add => "AddQ"
  | .cmp => "CmpQ"

def mnemonic : QuickOperation → String
  | .mov => "MOV"
  | .add => "ADD"
  | .cmp => "CMP"

end QuickOperation

namespace Instruction

/-- The opcode of the one-byte instruction that does nothing. -/
def nopByte : UInt8 := 0x04

/-- Bytes to offer for decoding: no instruction needs more. -/
def maxLength : Nat := 8

/-- Length in bytes. -/
def length : Instruction → Nat
  | .brk | .nop | .rts | .reit | .und | .pushS _ | .popS _ => 1
  | .wait | .exitd | .int _ | .fset _ | .fclr _ => 2
  | .enter _ => 3
  | .jmp distance _ => match distance with
    | .short => 1
    | .byte => 2
    | .word => 3
    | .absolute => 4
  | .jsr distance _ => match distance with
    | .word => 3
    | .absolute => 4
  | .jcnd condition _ => if condition.isShort then 2 else 3
  | .movG _ src dest => 2 + src.extension.length + dest.extension.length
  | .movImm size _ dest => 2 + dest.extension.length + size.bytes
  | .quick _ _ _ dest => 2 + dest.extension.length
  | .movS _ dest => 2 + dest.extension.length
  | .movZ dest => 1 + dest.extension.length

/-- The address of the next instruction in memory. -/
def next (instruction : Instruction) (address : Address) : Address :=
  Address.following address instruction.length

/-- The one-line record form. -/
def recordText : Instruction → String
  | .brk => "Brk"
  | .nop => "Nop"
  | .rts => "Rts"
  | .reit => "Reit"
  | .und => "Und"
  | .wait => "Wait"
  | .exitd => "Exitd"
  | .enter frame => Record.fields "Enter" [("frame", toString frame.toNat)]
  | .int vector => Record.fields "Int" [("vector", toString vector.toNat)]
  | .fset flag => Record.single "Fset" flag.name
  | .fclr flag => Record.single "Fclr" flag.name
  | .jmp distance target =>
      Record.fields "Jmp" [("distance", distance.name), ("target", toString target.toNat)]
  | .jsr distance target =>
      Record.fields "Jsr" [("distance", distance.name), ("target", toString target.toNat)]
  | .jcnd condition target =>
      Record.fields "JCnd" [("condition", condition.name), ("target", toString target.toNat)]
  | .movG size src dest =>
      Record.fields "MovG"
        [("size", size.name), ("src", src.recordText), ("dest", dest.recordText)]
  | .movImm size imm dest =>
      Record.fields "MovImm"
        [("size", size.name), ("imm", toString imm.toNat), ("dest", dest.recordText)]
  | .quick operation size imm dest =>
      Record.fields operation.name
        [("size", size.name), ("imm", toString imm.toInt), ("dest", dest.recordText)]
  | .movS imm dest =>
      Record.fields "MovS" [("imm", toString imm.toNat), ("dest", dest.recordText)]
  | .movZ dest => Record.fields "MovZ" [("dest", dest.recordText)]
  | .pushS register => Record.single "PushS" register.name
  | .popS register => Record.single "PopS" register.name

end Instruction

end M16C
