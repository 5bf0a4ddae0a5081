import M16C.Flag

/-!
Conditions on the flags. The carry is set when a subtraction needed no borrow,
so it means "greater or equal" for unsigned numbers. A condition is kept as
the decisions by which it is tested, one flag at a time, because the order of
the tests and the flags left untested are both observable.
-/

namespace M16C

/-- A decision tree over flags. -/
inductive FlagTest where
  | verdict (value : Bool)
  | read (flag : Flag) (onSet onClear : FlagTest)
  deriving DecidableEq, Repr

namespace FlagTest

/-- The leaf reached under the given flags. -/
def eval (flags : Flag → Bool) : FlagTest → Bool
  | .verdict value => value
  | .read flag onSet onClear => if flags flag then onSet.eval flags else onClear.eval flags

/-- The flags looked at on the way to that leaf, in order. -/
def path (flags : Flag → Bool) : FlagTest → List Flag
  | .verdict _ => []
  | .read flag onSet onClear =>
      flag :: if flags flag then onSet.path flags else onClear.path flags

/-- One flag decides. -/
def ofFlag (flag : Flag) : FlagTest := .read flag (.verdict true) (.verdict false)

/-- A clear flag decides. -/
def ofClear (flag : Flag) : FlagTest := .read flag (.verdict false) (.verdict true)

/-- The result is not negative once overflow is taken into account. -/
def signMatches : FlagTest := .read .s (ofFlag .o) (ofClear .o)

/-- The result is negative once overflow is taken into account. -/
def signDiffers : FlagTest := .read .s (ofClear .o) (ofFlag .o)

end FlagTest

inductive Condition where
  | equal | notEqual
  | positive | negative
  | signedGreaterEqual | signedLessThan
  | signedGreaterThan | signedLessEqual
  | unsignedGreaterEqual | unsignedLessThan
  | unsignedGreaterThan | unsignedLessEqual
  | overflow | noOverflow
  deriving DecidableEq, Repr

namespace Condition

def all : List Condition :=
  [.equal, .notEqual, .positive, .negative,
   .signedGreaterEqual, .signedLessThan, .signedGreaterThan, .signedLessEqual,
   .unsignedGreaterEqual, .unsignedLessThan, .unsignedGreaterThan, .unsignedLessEqual,
   .overflow, .noOverflow]

def name : Condition → String
  | .equal => "Equal"
  | .notEqual => "NotEqual"
  | .positive => "Positive"
  | .negative => "Negative"
  | .signedGreaterEqual => "SignedGreaterEqual"
  | .signedLessThan => "SignedLessThan"
  | .signedGreaterThan => "SignedGreaterThan"
  | .signedLessEqual => "SignedLessEqual"
  | .unsignedGreaterEqual => "UnsignedGreaterEqual"
  | .unsignedLessThan => "UnsignedLessThan"
  | .unsignedGreaterThan => "UnsignedGreaterThan"
  | .unsignedLessEqual => "UnsignedLessEqual"
  | .overflow => "Overflow"
  | .noOverflow => "NoOverflow"

def ofName? (name : String) : Option Condition := all.find? (·.name == name)

/-- How the condition is decided. -/
def test : Condition → FlagTest
  | .equal => .ofFlag .z
  | .notEqual => .ofClear .z
  | .positive => .ofClear .s
  | .negative => .ofFlag .s
  | .signedGreaterEqual => .signMatches
  | .signedLessThan => .signDiffers
  | .signedGreaterThan => .read .z (.verdict false) .signMatches
  | .signedLessEqual => .read .z (.verdict true) .signDiffers
  | .unsignedGreaterEqual => .ofFlag .c
  | .unsignedLessThan => .ofClear .c
  | .unsignedGreaterThan => .read .c (.ofClear .z) (.verdict false)
  | .unsignedLessEqual => .read .c (.ofFlag .z) (.verdict true)
  | .overflow => .ofFlag .o
  | .noOverflow => .ofClear .o

/-- Whether the condition holds under the given flags. -/
def holds (condition : Condition) (flags : Flag → Bool) : Bool := condition.test.eval flags

/-- The flags read while the condition is decided, in reading order. -/
def touched (condition : Condition) (flags : Flag → Bool) : List Flag := condition.test.path flags

/-- The flags that must be known for the condition to be decided in any case. -/
def requiredFlags : Condition → List Flag
  | .equal | .notEqual => [.z]
  | .positive | .negative => [.s]
  | .signedGreaterEqual | .signedLessThan => [.s, .o]
  | .signedGreaterThan | .signedLessEqual => [.z, .s, .o]
  | .unsignedGreaterEqual | .unsignedLessThan => [.c]
  | .unsignedGreaterThan | .unsignedLessEqual => [.c, .z]
  | .overflow | .noOverflow => [.o]

def negate : Condition → Condition
  | .equal => .notEqual
  | .notEqual => .equal
  | .positive => .negative
  | .negative => .positive
  | .signedGreaterEqual => .signedLessThan
  | .signedLessThan => .signedGreaterEqual
  | .signedGreaterThan => .signedLessEqual
  | .signedLessEqual => .signedGreaterThan
  | .unsignedGreaterEqual => .unsignedLessThan
  | .unsignedLessThan => .unsignedGreaterEqual
  | .unsignedGreaterThan => .unsignedLessEqual
  | .unsignedLessEqual => .unsignedGreaterThan
  | .overflow => .noOverflow
  | .noOverflow => .overflow

theorem holds_negate (condition : Condition) (flags : Flag → Bool) :
    condition.negate.holds flags = !condition.holds flags := by
  cases condition <;>
    cases hc : flags .c <;> cases hz : flags .z <;> cases hs : flags .s <;> cases ho : flags .o <;>
    simp [holds, negate, test, FlagTest.eval, FlagTest.ofFlag, FlagTest.ofClear,
      FlagTest.signMatches, FlagTest.signDiffers, hc, hz, hs, ho]

end Condition

end M16C
