import M16C.Il.Op
import M16C.Instruction.Flow
import M16C.Instruction.Lift
import M16C.Instruction.Line
import M16C.Log

/-!
What a host asks about the bytes at an address. Every question decodes afresh
and keeps nothing; bytes that hold no instruction are answered with none, and
the cause is told as an event.
-/

namespace M16C.Gateway

/-- The instruction at the front of `bytes`, if there is one. -/
def decode (bytes : List UInt8) (address : Address) : Logged (Option Instruction) :=
  match Instruction.decode bytes address with
  | .ok instruction => ⟨some instruction, []⟩
  | .error cause => ⟨none, [.undecodable cause]⟩

/-- Length and edges of the instruction. -/
def flow (bytes : List UInt8) (address : Address) : Logged (Option Flow) :=
  (decode bytes address).map (·.map (·.flow address))

/-- The tokens of an instruction that was decoded from `bytes`. A failed round
trip is told and changes nothing. -/
def renderVerified (instruction : Instruction) (bytes : List UInt8) (address : Address)
    (display : Display) : Logged (List Token) :=
  let tokens := instruction.render display
  match instruction.verify bytes address (Token.lineText tokens) with
  | .ok () => ⟨tokens, []⟩
  | .error failure => ⟨tokens, [.roundtripFailed failure]⟩

/-- Tokens and length of the instruction. -/
def text (bytes : List UInt8) (address : Address) (display : Display) :
    Logged (Option (List Token × Nat)) :=
  let decoded := decode bytes address
  match decoded.result with
  | none => ⟨none, decoded.events⟩
  | some instruction =>
      let rendered := renderVerified instruction bytes address display
      ⟨some (rendered.result, instruction.length), decoded.events ++ rendered.events⟩

/-- Appends the operations of the instruction to `buffer`, and tells its
length. -/
def lift (bytes : List UInt8) (address : Address) (buffer : List Il.Op) :
    Logged (Option Nat × List Il.Op) :=
  (decode bytes address).map fun
    | none => (none, buffer)
    | some instruction => (some instruction.length, buffer ++ instruction.lift address)

/-- `length` bytes that do nothing when they run. -/
def nops (length : Nat) : List UInt8 := List.replicate length Instruction.nopByte

/-- What to write over `bytes` so that they do nothing. -/
def nopPatch (bytes : List UInt8) (address : Address) : Logged (List UInt8) :=
  ⟨nops bytes.length, [.patched bytes.length address]⟩

end M16C.Gateway
