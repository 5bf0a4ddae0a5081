/-!
Text from bytes that should be UTF-8 and need not be. What cannot be read is
shown as one replacement character for each longest run of bytes that could
still have started a character. The bytes are read one at a time by a machine
that knows how many more bytes the character at hand needs and between which
bounds the next one must lie.
-/

namespace M16C.Text

/-- Stands for what cannot be read. -/
def replacement : Char := '�'

/-- Between characters, or inside one: `owed` further bytes are needed, the
next between `low` and `high`, and `value` holds the bits so far. -/
inductive Utf8State where
  | start
  | inside (owed : Nat) (low high : UInt8) (value : Nat)
  deriving DecidableEq, Repr

namespace Utf8State

/-- A byte that stands where a character starts: the characters it gives and
the state after it. -/
def lead (byte : UInt8) : List Char × Utf8State :=
  let n := byte.toNat
  if n < 0x80 then ([Char.ofNat n], .start)
  else if n < 0xC2 then ([replacement], .start)
  else if n < 0xE0 then ([], .inside 1 0x80 0xBF (n - 0xC0))
  else if n = 0xE0 then ([], .inside 2 0xA0 0xBF 0)
  else if n = 0xED then ([], .inside 2 0x80 0x9F 0xD)
  else if n < 0xF0 then ([], .inside 2 0x80 0xBF (n - 0xE0))
  else if n = 0xF0 then ([], .inside 3 0x90 0xBF 0)
  else if n < 0xF4 then ([], .inside 3 0x80 0xBF (n - 0xF0))
  else if n = 0xF4 then ([], .inside 3 0x80 0x8F 4)
  else ([replacement], .start)

/-- Reads one byte. A byte that cannot go on ends the character at hand, and
starts the next one. -/
def step (state : Utf8State) (byte : UInt8) : List Char × Utf8State :=
  match state with
  | .start => lead byte
  | .inside owed low high value =>
      if low ≤ byte ∧ byte ≤ high then
        let grown := 64 * value + (byte.toNat - 0x80)
        if owed = 1 then ([Char.ofNat grown], .start)
        else ([], .inside (owed - 1) 0x80 0xBF grown)
      else
        let (chars, next) := lead byte
        (replacement :: chars, next)

/-- The characters of the bytes that follow. -/
def run : Utf8State → List UInt8 → List Char
  | .start, [] => []
  | .inside .., [] => [replacement]
  | state, byte :: rest =>
      let (chars, next) := state.step byte
      chars ++ next.run rest

end Utf8State

/-- The text of the bytes. -/
def lossy (bytes : List UInt8) : String := String.ofList (Utf8State.start.run bytes)

/-- The bytes of a text of ASCII characters. -/
def ascii (text : String) : List UInt8 := text.toList.map fun c => UInt8.ofNat c.toNat

end M16C.Text
