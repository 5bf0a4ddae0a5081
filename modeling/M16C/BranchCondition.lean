import M16C.Condition

/-!
The conditions a conditional jump can name, with their codes. The eight with a
code below eight are also available in the one-byte opcode form; the others
need the two-byte one. Codes eleven and fifteen name no condition.
-/

namespace M16C

inductive BranchCondition where
  | geu | gtu | eq | n | ltu | leu | ne | pz | le | o | ge | gt | no | lt
  deriving DecidableEq, Repr

namespace BranchCondition

def all : List BranchCondition :=
  [.geu, .gtu, .eq, .n, .ltu, .leu, .ne, .pz, .le, .o, .ge, .gt, .no, .lt]

def name : BranchCondition → String
  | .geu => "Geu" | .gtu => "Gtu" | .eq => "Eq" | .n => "N"
  | .ltu => "Ltu" | .leu => "Leu" | .ne => "Ne" | .pz => "Pz"
  | .le => "Le" | .o => "O" | .ge => "Ge" | .gt => "Gt" | .no => "No" | .lt => "Lt"

def ofName? (name : String) : Option BranchCondition := all.find? (·.name == name)

def code : BranchCondition → UInt8
  | .geu => 0 | .gtu => 1 | .eq => 2 | .n => 3
  | .ltu => 4 | .leu => 5 | .ne => 6 | .pz => 7
  | .le => 8 | .o => 9 | .ge => 10 | .gt => 12 | .no => 13 | .lt => 14

def ofCode? (code : UInt8) : Option BranchCondition := all.find? (·.code == code)

/-- Whether the condition fits the one-byte opcode form. -/
def isShort (condition : BranchCondition) : Bool := condition.code < 8

def mnemonic : BranchCondition → String
  | .geu => "JGEU" | .gtu => "JGTU" | .eq => "JEQ" | .n => "JN"
  | .ltu => "JLTU" | .leu => "JLEU" | .ne => "JNE" | .pz => "JPZ"
  | .le => "JLE" | .o => "JO" | .ge => "JGE" | .gt => "JGT" | .no => "JNO" | .lt => "JLT"

/-- The condition on the flags that is tested. -/
def condition : BranchCondition → Condition
  | .geu => .unsignedGreaterEqual
  | .gtu => .unsignedGreaterThan
  | .eq => .equal
  | .n => .negative
  | .ltu => .unsignedLessThan
  | .leu => .unsignedLessEqual
  | .ne => .notEqual
  | .pz => .positive
  | .le => .signedLessEqual
  | .o => .overflow
  | .ge => .signedGreaterEqual
  | .gt => .signedGreaterThan
  | .no => .noOverflow
  | .lt => .signedLessThan

theorem mem_all (condition : BranchCondition) : condition ∈ all := by
  cases condition <;> decide

theorem ofCode?_code (condition : BranchCondition) :
    ofCode? condition.code = some condition := by
  cases condition <;> rfl

end BranchCondition

end M16C
