/-!
Walking over JSON text. Nothing is built: a value is passed over when it is
well formed, and only strings can be asked for their text. A string may name
half of a surrogate pair alone; it is well formed then, but has no text.
-/

namespace M16C.Json

def isBlank (c : Char) : Bool := c == ' ' || c == '\t' || c == '\n' || c == '\r'

def skipBlank (cs : List Char) : List Char := cs.dropWhile isBlank

/-- What follows `word`, when the text starts with it. -/
def after? (word cs : List Char) : Option (List Char) :=
  if word.isPrefixOf cs then some (cs.drop word.length) else none

/-- What follows one or more digits. -/
def skipDigits? : List Char → Option (List Char)
  | c :: rest => if c.isDigit then some (rest.dropWhile Char.isDigit) else none
  | [] => none

def skipFraction? : List Char → Option (List Char)
  | '.' :: rest => skipDigits? rest
  | cs => some cs

def skipExponent? : List Char → Option (List Char)
  | 'e' :: '+' :: rest | 'e' :: '-' :: rest | 'E' :: '+' :: rest | 'E' :: '-' :: rest =>
      skipDigits? rest
  | 'e' :: rest | 'E' :: rest => skipDigits? rest
  | cs => some cs

def skipWhole? : List Char → Option (List Char)
  | '0' :: rest => some rest
  | cs => skipDigits? cs

def skipNumber? (cs : List Char) : Option (List Char) :=
  (skipWhole? (if cs.head? = some '-' then cs.tail else cs)).bind skipFraction? |>.bind skipExponent?

def hexDigit? (c : Char) : Option Nat :=
  if '0' ≤ c ∧ c ≤ '9' then some (c.toNat - '0'.toNat)
  else if 'a' ≤ c ∧ c ≤ 'f' then some (c.toNat - 'a'.toNat + 10)
  else if 'A' ≤ c ∧ c ≤ 'F' then some (c.toNat - 'A'.toNat + 10)
  else none

/-- What stands in a string: a character, or a 16-bit unit given by number. -/
inductive Piece where
  | char (c : Char)
  | unit (value : Nat)
  deriving DecidableEq, Repr

/-- The character that a letter after a backslash stands for. -/
def escape? : Char → Option Char
  | '"' => some '"'
  | '\\' => some '\\'
  | '/' => some '/'
  | 'b' => some '\x08'
  | 'f' => some '\x0c'
  | 'n' => some '\n'
  | 'r' => some '\r'
  | 't' => some '\t'
  | _ => none

/-- A string from behind its opening quote, and what follows it. -/
def readString? : List Char → Option (List Piece × List Char)
  | [] => none
  | '"' :: rest => some ([], rest)
  | '\\' :: 'u' :: a :: b :: c :: d :: rest => do
      let value := ((← hexDigit? a) * 16 + (← hexDigit? b)) * 256 +
        ((← hexDigit? c) * 16 + (← hexDigit? d))
      let (pieces, rest) ← readString? rest
      return (.unit value :: pieces, rest)
  | '\\' :: letter :: rest => do
      let c ← escape? letter
      let (pieces, rest) ← readString? rest
      return (.char c :: pieces, rest)
  | c :: rest => do
      if c.toNat < 0x20 || c == '\\' then none
      else
        let (pieces, rest) ← readString? rest
        return (.char c :: pieces, rest)

/-- The text of a string whose surrogates come in pairs. -/
def text? : List Piece → Option (List Char)
  | [] => some []
  | .char c :: rest => (text? rest).map (c :: ·)
  | .unit high :: .unit low :: rest =>
      if 0xD800 ≤ high ∧ high < 0xDC00 then
        if 0xDC00 ≤ low ∧ low < 0xE000 then
          (text? rest).map (Char.ofNat (0x10000 + (high - 0xD800) * 0x400 + (low - 0xDC00)) :: ·)
        else none
      else if 0xDC00 ≤ high ∧ high < 0xE000 then none
      else (text? (.unit low :: rest)).map (Char.ofNat high :: ·)
  | .unit value :: rest =>
      if 0xD800 ≤ value ∧ value < 0xE000 then none
      else (text? rest).map (Char.ofNat value :: ·)

mutual

/-- What follows a value. `fuel` bounds the number of steps; twice the length
of the text is enough. -/
def skipValue? : Nat → List Char → Option (List Char)
  | 0, _ => none
  | fuel + 1, cs =>
      match skipBlank cs with
      | '"' :: rest => (readString? rest).map (·.2)
      | '[' :: rest =>
          match skipBlank rest with
          | ']' :: rest => some rest
          | rest => skipItems? fuel rest
      | '\x7b' :: rest =>
          match skipBlank rest with
          | '\x7d' :: rest => some rest
          | rest => skipMembers? fuel rest
      | 't' :: rest => after? ['r', 'u', 'e'] rest
      | 'f' :: rest => after? ['a', 'l', 's', 'e'] rest
      | 'n' :: rest => after? ['u', 'l', 'l'] rest
      | rest => skipNumber? rest

/-- What follows the items of an array, its closing bracket included. -/
def skipItems? : Nat → List Char → Option (List Char)
  | 0, _ => none
  | fuel + 1, cs =>
      match (skipValue? fuel cs).map skipBlank with
      | some (',' :: rest) => skipItems? fuel rest
      | some (']' :: rest) => some rest
      | _ => none

/-- What follows the members of an object, its closing brace included. -/
def skipMembers? : Nat → List Char → Option (List Char)
  | 0, _ => none
  | fuel + 1, cs =>
      match skipBlank cs with
      | '"' :: rest =>
          match (readString? rest).map fun (_, rest) => skipBlank rest with
          | some (':' :: rest) =>
              match (skipValue? fuel rest).map skipBlank with
              | some (',' :: rest) => skipMembers? fuel rest
              | some ('\x7d' :: rest) => some rest
              | _ => none
          | _ => none
      | _ => none

end

end M16C.Json
