import M16C.AddressText
import M16C.Folder
import M16C.Listing

/-!
The command line of the disassembler. Arguments are bytes, because a path need
not be text; options are recognised by their exact bytes, and whatever is told
about an argument shows it as text. Arguments are taken from the left, and the
first that is at fault ends the reading, as does a request for help.
-/

namespace M16C.CommandLine

abbrev RawArgument := List UInt8

/-- The options. -/
inductive Switch where
  | help | noSuffix | il | base
  deriving DecidableEq, Repr

def Switch.ofArgument? (argument : RawArgument) : Option Switch :=
  if argument = Text.ascii "--help" ∨ argument = Text.ascii "-h" then some .help
  else if argument = Text.ascii "--no-suffix" then some .noSuffix
  else if argument = Text.ascii "--il" then some .il
  else if argument = Text.ascii "-b" ∨ argument = Text.ascii "--base" then some .base
  else none

/-- What is asked for. -/
inductive Request where
  | help
  | disassemble (input : RawArgument) (options : ListingOptions)
  deriving DecidableEq, Repr

/-- Why arguments ask for nothing. -/
inductive UsageError where
  | missingBase
  | address (cause : AddressError)
  | unknownOption (text : String)
  | multipleInputs
  | missingInput
  deriving DecidableEq, Repr

def UsageError.message : UsageError → String
  | .missingBase => "missing value for --base"
  | .address cause => cause.message
  | .unknownOption text => "unknown option: " ++ text
  | .multipleInputs => "multiple input paths provided"
  | .missingInput => "missing input path"

/-- Whether an argument that is no option looks like one. -/
def looksLikeOption (argument : RawArgument) : Bool :=
  (Text.lossy argument).toList.head? == some '-'

/-- Reads arguments on, behind an input and options found so far. -/
def parseFrom (input : Option RawArgument) (options : ListingOptions) :
    List RawArgument → Except UsageError Request
  | [] =>
      match input with
      | some path => .ok (.disassemble path options)
      | none => .error .missingInput
  | argument :: rest =>
      match Switch.ofArgument? argument with
      | some .help => .ok .help
      | some .noSuffix => parseFrom input { options with display := { showSuffix := false } } rest
      | some .il => parseFrom input { options with il := true } rest
      | some .base =>
          match rest with
          | [] => .error .missingBase
          | value :: rest =>
              match AddressText.parse (Text.lossy value) with
              | .ok base => parseFrom input { options with base } rest
              | .error cause => .error (.address cause)
      | none =>
          if looksLikeOption argument then
            .error (.unknownOption (Text.lossy argument))
          else
            match input with
            | some _ => .error .multipleInputs
            | none => parseFrom (some argument) options rest

def parse (arguments : List RawArgument) : Except UsageError Request := parseFrom none {} arguments

/-- The help text, line by line; a blank line ends it. -/
def usageLines : List String := [
  "Usage: m16c-dis <input> [options]",
  "",
  "Options:",
  "  -b, --base <addr>  Load address of the first byte (default: 0)",
  "      --no-suffix    Hide the :G/:Q/:S/:Z format suffix",
  "      --il           Print lifted IL under each instruction",
  "  -h, --help         Show this help message",
  "",
  "Environment:",
  "  RUST_LOG=error     Report decode/encode roundtrip mismatches",
  "",
  "Examples:",
  "  m16c-dis firmware.bin --base 0xF0000",
  "  m16c-dis firmware.bin --no-suffix --il",
  ""]

def usage : String := String.join (usageLines.map (· ++ "\n"))

/-- What the program prints and the code it exits with. -/
structure Outcome where
  exit : Nat := 0
  stdout : String := ""
  stderr : String := ""
  deriving DecidableEq, Repr

namespace Outcome

def ofUsageError (error : UsageError) : Outcome where
  exit := 1
  stderr := "error: " ++ error.message ++ "\n" ++ usage

def ofHelp : Outcome where
  stdout := usage

def ofReadFailure (input : RawArgument) (failure : ReadFailure) : Outcome where
  exit := 1
  stderr := "error: failed to read " ++ Text.lossy input ++ ": " ++ failure.message ++ "\n"

def ofImage (image : List UInt8) (options : ListingOptions) : Outcome where
  stdout := (listing image options).result

end Outcome

/-- Runs the program, with `read` to get at files. -/
def run {m : Type → Type} [Monad m] (read : RawArgument → m (Except ReadFailure (List UInt8)))
    (arguments : List RawArgument) : m Outcome :=
  match parse arguments with
  | .error error => pure (.ofUsageError error)
  | .ok .help => pure .ofHelp
  | .ok (.disassemble input options) => do
      match ← read input with
      | .error failure => return .ofReadFailure input failure
      | .ok image => return .ofImage image options

end M16C.CommandLine
