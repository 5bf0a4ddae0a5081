import M16C.RegisterFile
import M16C.Il.Op

/-!
Running intermediate operations on a register file. Only registers and flags
are there to act on: an operation that touches memory, the stack or control
flow is not carried out, and the file stays as it is.
-/

namespace M16C.RegisterFile

open Il

/-- The value of an expression, cut to its size. Memory and the stack have
none. -/
def evaluate (file : RegisterFile) : Expr → Option UInt32
  | .const size value => some (value &&& byteMask size)
  | .register register => some (file.read register)
  | .flag flag => some (if file.flag flag then 1 else 0)
  | .add size left right => do
      let a ← file.evaluate left
      let b ← file.evaluate right
      return (a + b) &&& byteMask size
  | .sub size left right => do
      let a ← file.evaluate left
      let b ← file.evaluate right
      return (a - b) &&& byteMask size
  | .zeroExtend size value => do
      let a ← file.evaluate value
      return a &&& byteMask size
  | .lowPart size value => do
      let a ← file.evaluate value
      return a &&& byteMask size
  | .load .. | .pop _ => none

/-- Zero and sign of a result of `size` bytes. -/
def setZeroSign (file : RegisterFile) (size : Nat) (result : UInt32) : RegisterFile :=
  (file.setFlag .z (result == 0)).setFlag .s (result &&& signBit size != 0)

/-- Carry and overflow of a sum of `size` bytes. -/
def setSumFlags (file : RegisterFile) (size : Nat) (a b result : UInt32) : RegisterFile :=
  (file.setFlag .c (decide (a.toNat + b.toNat > (byteMask size).toNat))).setFlag .o
    ((a ^^^ result) &&& (b ^^^ result) &&& signBit size != 0)

/-- Carry and overflow of a difference of `size` bytes. The carry says that no
borrow was needed. -/
def setDifferenceFlags (file : RegisterFile) (size : Nat) (a b result : UInt32) : RegisterFile :=
  (file.setFlag .c (decide (b ≤ a))).setFlag .o
    ((a ^^^ b) &&& (a ^^^ result) &&& signBit size != 0)

/-- The flags after `source` gave `result`. Carry and overflow are found by
evaluating the operands of a sum or difference once more, when zero and sign
are already set; other operations leave the two as they are. -/
def updateFlags (file : RegisterFile) (write : FlagWrite) (source : Expr) (result : UInt32) :
    RegisterFile :=
  match write with
  | .none => file
  | .sz => file.setZeroSign source.size (result &&& byteMask source.size)
  | .oszc =>
      let cut := result &&& byteMask source.size
      let marked := file.setZeroSign source.size cut
      match source with
      | .add size left right =>
          match marked.evaluate left, marked.evaluate right with
          | some a, some b =>
              marked.setSumFlags size (a &&& byteMask size) (b &&& byteMask size) cut
          | _, _ => marked
      | .sub size left right =>
          match marked.evaluate left, marked.evaluate right with
          | some a, some b =>
              marked.setDifferenceFlags size (a &&& byteMask size) (b &&& byteMask size) cut
          | _, _ => marked
      | _ => marked

/-- Carries out an operation: whether it was possible, and the file after it. -/
def apply (file : RegisterFile) : Op → Bool × RegisterFile
  | .setRegister dest value flags =>
      match file.evaluate value with
      | some result => (true, (file.updateFlags flags value.flagSource result).write dest result)
      | none => (false, file)
  | .setFlag flag value => (true, file.setFlag flag value)
  | .eval value flags =>
      match file.evaluate value with
      | some result => (true, file.updateFlags flags value.flagSource result)
      | none => (false, file)
  | .nop => (true, file)
  | .store .. | .push .. | .jump _ | .call _ | .return | .branch .. | .trap _ | .breakpoint
  | .intrinsic _ | .undefined => (false, file)

/-- Carries out operations in turn: which were possible, and the file at the
end. -/
def applyAll (file : RegisterFile) : List Op → List Bool × RegisterFile
  | [] => ([], file)
  | op :: rest =>
      let (applied, after) := file.apply op
      let (others, final) := after.applyAll rest
      (applied :: others, final)

end M16C.RegisterFile
