import M16C.Il.Op
import M16C.Instruction
import M16C.Operand.Location

/-!
Lifting: the intermediate operations of an instruction. An operation of byte
size on an address register reads its low byte and writes the byte extended
with zeros to the whole register, while the flags follow the byte.
-/

namespace M16C

open Il

/-- The value of an operand. -/
def Operand.value (operand : Operand) (size : Size) : Expr :=
  match operand.location size with
  | .register register =>
      if size.bytes < register.width then .lowPart size.bytes (.register register)
      else .register register
  | .memory place => .load size.bytes place

/-- The operation that puts `value` into an operand. -/
def Operand.assign (operand : Operand) (size : Size) (value : Expr) (flags : FlagWrite) : Op :=
  match operand.location size with
  | .register register =>
      if size.bytes < register.width then
        .setRegister register (.zeroExtend register.width value) flags
      else
        .setRegister register value flags
  | .memory place => .store size.bytes place value flags

/-- A signed immediate as a constant of the given size. -/
def signedConst (imm : Int8) (size : Size) : Expr :=
  .const size.bytes (imm.toInt32.toUInt32 &&& size.mask)

/-- A branch target as a constant of the size of the program counter. -/
def targetConst (target : Address) : Expr := .const 3 target

namespace Instruction

/-- The operations of an instruction at `address`. -/
def lift (instruction : Instruction) (address : Address) : List Op :=
  match instruction with
  | .brk => [.breakpoint]
  | .nop => [.nop]
  | .rts | .reit => [.return]
  | .und => [.undefined]
  | .wait => [.intrinsic "wait"]
  | .exitd =>
      [.setRegister .sp (.register .fb) .none,
       .setRegister .fb (.pop 2) .none,
       .return]
  | .enter frame =>
      [.push 2 (.register .fb),
       .setRegister .fb (.register .sp) .none,
       .setRegister .sp (.sub 2 (.register .sp) (.const 2 frame.toUInt32)) .none]
  | .int vector => [.trap vector]
  | .fset flag => [.setFlag flag true]
  | .fclr flag => [.setFlag flag false]
  | .jmp _ target => [.jump (targetConst target)]
  | .jsr _ target => [.call (targetConst target)]
  | .jcnd condition target => [.branch condition.condition target (instruction.next address)]
  | .movG size src dest => [dest.assign size (src.value size) .sz]
  | .movImm size imm dest =>
      [dest.assign size (.const size.bytes (imm.toUInt32 &&& size.mask)) .sz]
  | .quick .mov size imm dest => [dest.assign size (signedConst imm size) .sz]
  | .quick .add size imm dest =>
      [dest.assign size (.add size.bytes (dest.value size) (signedConst imm size)) .oszc]
  | .quick .cmp size imm dest =>
      [.eval (.sub size.bytes (dest.value size) (signedConst imm size)) .oszc]
  | .movS imm dest => [dest.general.assign .byte (.const 1 imm.toUInt32) .sz]
  | .movZ dest => [dest.general.assign .byte (.const 1 0) .sz]
  | .pushS register => [.push 1 (.register register.register)]
  | .popS register => [.setRegister register.register (.pop 1) .none]

end Instruction

end M16C
