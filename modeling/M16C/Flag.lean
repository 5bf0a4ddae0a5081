/-!
The flag register. `FLG` holds eight one-bit flags; four of them follow the
results of arithmetic, the others steer the processor.
-/

namespace M16C

/-- A flag, in the bit order of `FLG` from the lowest. -/
inductive Flag where
  | c | d | z | s | b | o | i | u
  deriving DecidableEq, Repr

/-- What a flag says about a result. -/
inductive FlagRole where
  | carry | zero | sign | overflow | special
  deriving DecidableEq, Repr

namespace Flag

def all : List Flag := [.c, .d, .z, .s, .b, .o, .i, .u]

def name : Flag → String
  | .c => "C" | .d => "D" | .z => "Z" | .s => "S"
  | .b => "B" | .o => "O" | .i => "I" | .u => "U"

/-- Position in `FLG`. -/
def bit : Flag → UInt8
  | .c => 0 | .d => 1 | .z => 2 | .s => 3
  | .b => 4 | .o => 5 | .i => 6 | .u => 7

def mask (flag : Flag) : UInt8 := 1 <<< flag.bit

def role : Flag → FlagRole
  | .c => .carry
  | .z => .zero
  | .s => .sign
  | .o => .overflow
  | .d | .b | .i | .u => .special

def ofBit? (bits : UInt8) : Option Flag := all.find? (·.bit == bits)

def ofName? (name : String) : Option Flag := all.find? (·.name == name)

/-- Flags in bit order. -/
def sort (flags : List Flag) : List Flag := flags.mergeSort fun f g => f.bit ≤ g.bit

/-- Whether a flag stands set in a value of `FLG`. -/
def isSet (flag : Flag) (flg : UInt8) : Bool := flg &&& flag.mask != 0

/-- A value of `FLG` with one flag replaced. -/
def put (flag : Flag) (flg : UInt8) (value : Bool) : UInt8 :=
  if value then flg ||| flag.mask else flg &&& ~~~flag.mask

theorem mem_all (flag : Flag) : flag ∈ all := by
  cases flag <;> decide

theorem ofBit?_bit (flag : Flag) : ofBit? flag.bit = some flag := by
  cases flag <;> rfl

theorem isSet_eq_getLsbD (flag : Flag) (flg : UInt8) :
    flag.isSet flg = flg.toBitVec.getLsbD flag.bit.toNat := by
  have bits : ∀ b : BitVec 8, flag.isSet ⟨b⟩ = b.getLsbD flag.bit.toNat := by
    cases flag <;> decide +kernel
  exact bits flg.toBitVec

@[simp] theorem isSet_put (flag other : Flag) (flg : UInt8) (value : Bool) :
    other.isSet (flag.put flg value) = if other = flag then value else other.isSet flg := by
  cases flag <;> cases other <;> cases value <;>
    simp [isSet_eq_getLsbD, put, mask, bit]

end Flag

def FlagRole.name : FlagRole → String
  | .carry => "Carry"
  | .zero => "Zero"
  | .sign => "Sign"
  | .overflow => "Overflow"
  | .special => "Special"

end M16C
