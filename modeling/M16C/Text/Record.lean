/-!
The one-line form of a structured value: a bare name, a name with one value in
parentheses, or a name with labelled values in braces.
-/

namespace M16C.Record

/-- `Name(value)` -/
def single (name value : String) : String :=
  name ++ "(" ++ value ++ ")"

/-- `Name { label: value, label: value }` -/
def fields (name : String) (values : List (String × String)) : String :=
  name ++ " \x7b " ++
    String.intercalate ", " (values.map fun (label, value) => label ++ ": " ++ value) ++ " \x7d"

end M16C.Record
