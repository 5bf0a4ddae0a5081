import M16C.Text.Hidden

/-!
Quoted text: a string between double quotes in which every character can be
seen. The quote and the backslash are written after a backslash, four controls
have a letter, and every other character that does not show by itself is
written as its code point.
-/

namespace M16C.Text

/-- `\u`, and the code point in braces, without leading zeros. -/
def codePoint (c : Char) : List Char :=
  ['\\', 'u', '\x7b'] ++ Nat.toDigits 16 c.toNat ++ ['\x7d']

/-- A character as it stands between quotes. -/
def quotedChar (c : Char) : List Char :=
  match c with
  | '"' => ['\\', '"']
  | '\\' => ['\\', '\\']
  | '\n' => ['\\', 'n']
  | '\r' => ['\\', 'r']
  | '\t' => ['\\', 't']
  | '\x00' => ['\\', '0']
  | _ => if isHidden c then codePoint c else [c]

/-- The string in double quotes. -/
def quoted (s : String) : String :=
  String.ofList (['"'] ++ s.toList.flatMap quotedChar ++ ['"'])

end M16C.Text
