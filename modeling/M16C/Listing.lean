import M16C.Row

/-!
The printed listing: a line for each row, with address, bytes and text, and on
request the intermediate operations of each instruction under its line.
-/

namespace M16C

/-- What a listing shows. -/
structure ListingOptions where
  base : Address := 0
  display : Display := {}
  il : Bool := false
  deriving DecidableEq, Repr

namespace Row

/-- Columns for the bytes: two digits and a blank for each byte that an
instruction can have. -/
def bytesColumn : Nat := 3 * Instruction.maxLength

/-- The row's bytes in upper-case pairs with blanks between. -/
def bytesText (row : Row) : List Char :=
  List.intercalate [' '] (row.bytes.map fun byte => Hex.upperDigits 2 byte.toNat)

/-- The row on one line. -/
def formatted (row : Row) : String :=
  String.ofList (Hex.upperDigits 5 row.address.toNat) ++ ": " ++
    String.ofList (List.rightpad bytesColumn ' ' row.bytesText) ++ " " ++ row.text

/-- The operations of the row's instruction, each on a line. -/
def ilLines (row : Row) : Logged String :=
  (Gateway.lift row.bytes row.address []).map fun (_, ops) =>
    String.join (ops.map fun op => "    ; " ++ op.recordText ++ "\n")

/-- The lines of a listing that belong to the row. -/
def lines (row : Row) (il : Bool) : Logged String :=
  let line := row.formatted ++ "\n"
  if il && !row.isInvalid then row.ilLines.map (line ++ ·) else ⟨line, []⟩

end Row

/-- The listing of an image. -/
def listing (image : List UInt8) (options : ListingOptions) : Logged String :=
  let rows := Row.sweep image options.base options.display
  let printed := rows.result.map (·.lines options.il)
  ⟨String.join (printed.map (·.result)),
   rows.events ++ [.swept rows.result.length image.length] ++ printed.flatMap (·.events)⟩

end M16C
