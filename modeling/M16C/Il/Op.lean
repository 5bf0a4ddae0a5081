import M16C.Text.Quoted
import M16C.Address
import M16C.Condition
import M16C.Il.Expr

/-!
Operations of the intermediate language, the steps an instruction is lifted to.
-/

namespace M16C.Il

/-- The flags an operation sets from its result. -/
inductive FlagWrite where
  | none | sz | oszc
  deriving DecidableEq, Repr

namespace FlagWrite

def all : List FlagWrite := [.none, .sz, .oszc]

def name : FlagWrite → String
  | .none => "None"
  | .sz => "Sz"
  | .oszc => "Oszc"

def flags : FlagWrite → List Flag
  | .none => []
  | .sz => [.s, .z]
  | .oszc => [.o, .s, .z, .c]

end FlagWrite

inductive Op where
  | setRegister (dest : Register) (value : Expr) (flags : FlagWrite)
  | store (size : Nat) (address value : Expr) (flags : FlagWrite)
  | setFlag (flag : Flag) (value : Bool)
  | eval (value : Expr) (flags : FlagWrite)
  | push (size : Nat) (value : Expr)
  | jump (target : Expr)
  | call (target : Expr)
  | return
  | branch (condition : Condition) (taken notTaken : Address)
  | trap (vector : UInt8)
  | breakpoint
  | intrinsic (name : String)
  | nop
  | undefined
  deriving DecidableEq, Repr

/-- The one-line record form. -/
def Op.recordText : Op → String
  | .setRegister dest value flags =>
      Record.fields "SetRegister"
        [("dest", dest.name), ("value", value.recordText), ("flags", flags.name)]
  | .store size address value flags =>
      Record.fields "Store"
        [("size", toString size), ("address", address.recordText), ("value", value.recordText),
         ("flags", flags.name)]
  | .setFlag flag value =>
      Record.fields "SetFlag" [("flag", flag.name), ("value", toString value)]
  | .eval value flags =>
      Record.fields "Eval" [("value", value.recordText), ("flags", flags.name)]
  | .push size value =>
      Record.fields "Push" [("size", toString size), ("value", value.recordText)]
  | .jump target => Record.single "Jump" target.recordText
  | .call target => Record.single "Call" target.recordText
  | .return => "Return"
  | .branch condition taken notTaken =>
      Record.fields "If"
        [("condition", condition.name), ("taken", toString taken.toNat),
         ("not_taken", toString notTaken.toNat)]
  | .trap vector => Record.single "Trap" (toString vector.toNat)
  | .breakpoint => "Breakpoint"
  | .intrinsic name => Record.single "Intrinsic" (Text.quoted name)
  | .nop => "Nop"
  | .undefined => "Undefined"

end M16C.Il
