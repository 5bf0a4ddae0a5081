import M16C.Instruction.Encode

/-!
Checking an instruction against the bytes it is said to come from: it has to
encode, at the same address, to the bytes at the front. Only as many bytes as
the instruction is long are compared, or all of them when there are fewer.
-/

namespace M16C

/-- Why an instruction does not stand for the bytes it came from. -/
inductive RoundtripError where
  | mismatch (address : Address) (text : String) (given encoded : List UInt8)
  | encode (address : Address) (text : String) (given : List UInt8) (cause : EncodeError)
  deriving DecidableEq, Repr

namespace RoundtripError

def message : RoundtripError → String
  | .mismatch address text given encoded =>
      "roundtrip mismatch at " ++ Hex.address address ++ " for `" ++ text ++ "`: " ++
        Hex.bytes given ++ " != " ++ Hex.bytes encoded
  | .encode address text _ _ => "cannot re-encode `" ++ text ++ "` at " ++ Hex.address address

/-- The lines of a report on the failure. -/
def report : RoundtripError → List String
  | .mismatch _ text given encoded =>
      ["Instruction roundtrip error", text, "Orig: " ++ Hex.bytes given,
       "New:  " ++ Hex.bytes encoded]
  | .encode _ text given cause =>
      ["Instruction roundtrip error", text, "Orig: " ++ Hex.bytes given,
       "New:  <" ++ cause.message ++ ">"]

end RoundtripError

/-- Checks that an instruction, written as `text`, encodes to the front of
`bytes`. -/
def Instruction.verify (instruction : Instruction) (bytes : List UInt8) (address : Address)
    (text : String) : Except RoundtripError Unit :=
  let given := bytes.take instruction.length
  match instruction.encode address with
  | .error cause => .error (.encode address text given cause)
  | .ok encoded =>
      if encoded = given then .ok ()
      else .error (.mismatch address text given encoded)

end M16C
