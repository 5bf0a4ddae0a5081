import M16C.Display
import M16C.Text.Json

/-!
Display settings as JSON text: an object in which `showSuffix` counts and other
names are passed over, or an array with the values in order. What is left out
has its default; a setting given twice is refused.
-/

namespace M16C.Display

/-- The value of a setting, and what follows it. -/
def readBool? (cs : List Char) : Option (Bool × List Char) :=
  match Json.skipBlank cs with
  | 't' :: rest => (Json.after? ['r', 'u', 'e'] rest).map (true, ·)
  | 'f' :: rest => (Json.after? ['a', 'l', 's', 'e'] rest).map (false, ·)
  | _ => none

/-- The name of a member, and what follows its colon. -/
def readName? (cs : List Char) : Option (List Char × List Char) :=
  match Json.skipBlank cs with
  | '"' :: rest => do
      let (pieces, rest) ← Json.readString? rest
      let name ← Json.text? pieces
      match Json.skipBlank rest with
      | ':' :: rest => return (name, rest)
      | _ => none
  | _ => none

/-- The members of an object up to its closing brace, behind a setting found
so far. `fuel` bounds their number. -/
def readMembers? : Nat → Option Bool → List Char → Option (Option Bool × List Char)
  | 0, _, _ => none
  | fuel + 1, found, cs => do
      let (name, rest) ← readName? cs
      let (found, rest) ←
        if name = "showSuffix".toList then
          match found with
          | some _ => none
          | none => (readBool? rest).map fun (value, rest) => (some value, rest)
        else
          (Json.skipValue? (2 * rest.length + 2) rest).map (found, ·)
      match Json.skipBlank rest with
      | ',' :: rest => readMembers? fuel found rest
      | '\x7d' :: rest => return (found, rest)
      | _ => none

/-- The setting that text gives, if any, and what follows. -/
def readSettings? (cs : List Char) : Option (Option Bool × List Char) :=
  match Json.skipBlank cs with
  | '\x7b' :: rest =>
      match Json.skipBlank rest with
      | '\x7d' :: rest => some (none, rest)
      | rest => readMembers? rest.length none rest
  | '[' :: rest =>
      match Json.skipBlank rest with
      | ']' :: rest => some (none, rest)
      | rest => do
          let (value, rest) ← readBool? rest
          match Json.skipBlank rest with
          | ']' :: rest => return (some value, rest)
          | _ => none
  | _ => none

/-- The settings that a whole text gives. -/
def ofJson? (text : String) : Option Display := do
  let (found, rest) ← readSettings? text.toList
  if Json.skipBlank rest = [] then
    return { showSuffix := found.getD suffixSetting.default }
  else
    none

end M16C.Display
