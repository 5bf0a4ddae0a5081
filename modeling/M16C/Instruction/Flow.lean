import M16C.Instruction

/-!
Where control can go after an instruction, as edges of a control-flow graph.
A fall-through that is the only way on has no edge of its own.
-/

namespace M16C

inductive Edge where
  | unconditional (target : Address)
  | taken (target : Address)
  | notTaken (target : Address)
  | call (target : Address)
  | functionReturn
  | systemCall
  | exception
  | indirect
  deriving DecidableEq, Repr

/-- Whether control can reach the next instruction in spite of the edge. -/
def Edge.fallsThrough : Edge → Bool
  | .call _ | .notTaken _ | .systemCall => true
  | .unconditional _ | .taken _ | .functionReturn | .exception | .indirect => false

/-- The length of an instruction and its edges. -/
structure Flow where
  length : Nat := 0
  edges : List Edge := []
  deriving DecidableEq, Repr

namespace Flow

/-- Edges that one instruction can have. -/
def maxEdges : Nat := 2

/-- With one more edge; past the limit the edge is dropped. -/
def add (flow : Flow) (edge : Edge) : Flow :=
  if flow.edges.length < maxEdges then { flow with edges := flow.edges ++ [edge] } else flow

/-- Whether no edge ends the basic block. -/
def fallsThrough (flow : Flow) : Bool := flow.edges.all (·.fallsThrough)

end Flow

namespace Instruction

/-- The edges out of an instruction at `address`. -/
def edges (instruction : Instruction) (address : Address) : List Edge :=
  match instruction with
  | .jmp _ target => [.unconditional target]
  | .jsr _ target => [.call target]
  | .jcnd _ target => [.taken target, .notTaken (instruction.next address)]
  | .rts | .reit | .exitd => [.functionReturn]
  | .int _ => [.systemCall]
  | .brk | .und => [.exception]
  | .nop | .wait | .enter _ | .fset _ | .fclr _ | .movG .. | .movImm .. | .quick ..
  | .movS .. | .movZ _ | .pushS _ | .popS _ => []

def flow (instruction : Instruction) (address : Address) : Flow :=
  (instruction.edges address).foldl Flow.add { length := instruction.length }

end Instruction

end M16C
