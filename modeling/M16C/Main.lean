import M16C.CommandLine

/-!
The program: it hands its arguments to the command line, reads the file asked
for, and prints.
-/

namespace M16C

/-- The failure of a system error. Its number may come negated. -/
def readFailureOf (code : UInt32) (details : String) : ReadFailure :=
  let number := code.toInt32.toInt.natAbs
  (ReadFailure.ofCode? number).getD ⟨details, number⟩

/-- The failure behind an error of reading a file. -/
def readFailureOfError : IO.Error → ReadFailure
  | .noFileOrDirectory _ code details | .inappropriateType _ code details
  | .permissionDenied _ code details | .resourceExhausted _ code details
  | .invalidArgument _ code details | .hardwareFault code details
  | .otherError code details => readFailureOf code details
  | other => ⟨toString other, 0⟩

def readImage (input : CommandLine.RawArgument) : IO (Except ReadFailure (List UInt8)) := do
  try
    let contents ← IO.FS.readBinFile (Text.lossy input)
    return .ok contents.toList
  catch error =>
    return .error (readFailureOfError error)

end M16C

def main (arguments : List String) : IO UInt32 := do
  let outcome ← M16C.CommandLine.run M16C.readImage (arguments.map (·.toUTF8.toList))
  IO.print outcome.stdout
  IO.eprint outcome.stderr
  return UInt32.ofNat outcome.exit
