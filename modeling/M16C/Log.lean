import M16C.Instruction.Decode
import M16C.Roundtrip

/-!
What is worth telling while work goes on. Work that has something to tell
returns it beside its result, as events in the order in which they happened;
what each becomes in a log is a function of the event.
-/

namespace M16C

inductive LogLevel where
  | error | debug | trace
  deriving DecidableEq, Repr

def LogLevel.name : LogLevel → String
  | .error => "ERROR"
  | .debug => "DEBUG"
  | .trace => "TRACE"

structure LogRecord where
  level : LogLevel
  message : String
  deriving DecidableEq, Repr

/-- The record on one line, after its level. -/
def LogRecord.line (record : LogRecord) : String := record.level.name ++ " " ++ record.message

inductive Event where
  | undecodable (cause : DecodeError)
  | roundtripFailed (failure : RoundtripError)
  | patched (length : Nat) (address : Address)
  | swept (rows bytes : Nat)
  deriving DecidableEq, Repr

def Event.records : Event → List LogRecord
  | .undecodable cause => [⟨.trace, cause.message⟩]
  | .roundtripFailed failure => failure.report.map (⟨.error, ·⟩)
  | .patched length address =>
      [⟨.debug, "patching " ++ toString length ++ " bytes at " ++ Hex.address address ++ " to NOP"⟩]
  | .swept rows bytes =>
      [⟨.debug, toString rows ++ " rows from " ++ toString bytes ++ " bytes"⟩]

/-- A result and the events on the way to it. -/
structure Logged (α : Type) where
  result : α
  events : List Event := []
  deriving DecidableEq, Repr

namespace Logged

def map {α β : Type} (f : α → β) (logged : Logged α) : Logged β :=
  ⟨f logged.result, logged.events⟩

/-- The log of the events, one record to a line. -/
def log {α : Type} (logged : Logged α) : List String :=
  (logged.events.flatMap Event.records).map LogRecord.line

end Logged

end M16C
