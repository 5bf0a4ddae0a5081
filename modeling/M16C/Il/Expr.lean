import M16C.Text.Record
import M16C.Flag
import M16C.Register

/-!
Expressions of the intermediate language. Each has a size in bytes; registers
and flags bring their own. Reading memory and popping the stack are
expressions too, although they reach outside the registers.
-/

namespace M16C.Il

inductive Expr where
  | const (size : Nat) (value : UInt32)
  | register (register : Register)
  | flag (flag : Flag)
  | add (size : Nat) (left right : Expr)
  | sub (size : Nat) (left right : Expr)
  | zeroExtend (size : Nat) (value : Expr)
  | lowPart (size : Nat) (value : Expr)
  | load (size : Nat) (address : Expr)
  | pop (size : Nat)
  deriving DecidableEq, Repr

namespace Expr

/-- Size of the value in bytes. -/
def size : Expr → Nat
  | .const size _ => size
  | .register r => r.width
  | .flag _ => 1
  | .add size _ _ => size
  | .sub size _ _ => size
  | .zeroExtend size _ => size
  | .lowPart size _ => size
  | .load size _ => size
  | .pop size => size

/-- The operation whose result the flags describe: flags follow the size of
the operation and not of the write, so zero extensions are looked through. -/
def flagSource : Expr → Expr
  | .zeroExtend _ value => value.flagSource
  | expr => expr

/-- The one-line record form. -/
def recordText : Expr → String
  | .const size value =>
      Record.fields "Const" [("size", toString size), ("value", toString value.toNat)]
  | .register r => Record.single "Register" r.name
  | .flag f => Record.single "Flag" f.name
  | .add size left right =>
      Record.fields "Add"
        [("size", toString size), ("left", left.recordText), ("right", right.recordText)]
  | .sub size left right =>
      Record.fields "Sub"
        [("size", toString size), ("left", left.recordText), ("right", right.recordText)]
  | .zeroExtend size value =>
      Record.fields "ZeroExtend" [("size", toString size), ("value", value.recordText)]
  | .lowPart size value =>
      Record.fields "LowPart" [("size", toString size), ("value", value.recordText)]
  | .load size address =>
      Record.fields "Load" [("size", toString size), ("address", address.recordText)]
  | .pop size => Record.fields "Pop" [("size", toString size)]

end Expr

end M16C.Il
