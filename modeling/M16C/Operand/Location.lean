import M16C.Il.Expr
import M16C.Operand

/-!
Where an operand is: a register, or memory at an address that the registers
give. Addresses of data are sixteen bits wide, and a sum that passes the top
starts again at zero.
-/

namespace M16C

inductive Location where
  | register (register : Register)
  | memory (address : Il.Expr)
  deriving DecidableEq, Repr

/-- The address `dsp` bytes from a base register. -/
def Il.Expr.based (base : Register) (dsp : UInt16) : Il.Expr :=
  .add 2 (.register base) (.const 2 dsp.toUInt32)

/-- The location of an operand of the given size. -/
def Operand.location (operand : Operand) (size : Size) : Location :=
  match operand with
  | .data index => .register (dataRegister index size)
  | .address index => .register (addressRegister index)
  | .indirect index => .memory (.register (addressRegister index))
  | .dsp8Address index dsp => .memory (.based (addressRegister index) dsp.toUInt16)
  | .dsp8Sb dsp => .memory (.based .sb dsp.toUInt16)
  | .dsp8Fb dsp => .memory (.based .fb dsp.toInt16.toUInt16)
  | .dsp16Address index dsp => .memory (.based (addressRegister index) dsp)
  | .dsp16Sb dsp => .memory (.based .sb dsp)
  | .abs16 place => .memory (.const 2 place.toUInt32)

end M16C
