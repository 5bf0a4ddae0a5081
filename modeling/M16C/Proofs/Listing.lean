import M16C.Listing
import M16C.Proofs.Composition
import M16C.Proofs.Lines

/-!
The printed listing and the sweep behind it. Every row of a sweep fits its
columns, and no text of a row or of an operation breaks a line, so the text of a
listing falls back into the lines it was made of. From these the rows are read
off by position alone, the image comes back out of the column of bytes, and the
lines of operations can be told from those of rows.
-/

namespace M16C

open Il
open Instruction (decode)

namespace Text

@[simp] theorem unlines_nil : unlines [] = "" := rfl

theorem unlines_append (first second : List (List Char)) :
    unlines (first ++ second) = unlines first ++ unlines second := by
  simp [unlines]

theorem unlines_singleton (text : String) : unlines [text.toList] = text ++ "\n" := by
  apply String.toList_inj.mp
  simp [unlines]

/-- Printing items one after the other. -/
theorem join_map_unlines {α : Type} (print : α → List (List Char)) (items : List α) :
    String.join (items.map fun item => unlines (print item)) = unlines (items.flatMap print) := by
  induction items with
  | nil => rfl
  | cons item items ih =>
      rw [List.map_cons, String.join_cons, ih, List.flatMap_cons, unlines_append]

/-- The line starts with four blanks. -/
def isIndented (line : List Char) : Bool := [' ', ' ', ' ', ' '].isPrefixOf line

end Text

namespace Row

/-- The bytes in a column: two digits for each, blanks are passed over. -/
def readBytes : List Char → List UInt8
  | [] | [_] => []
  | high :: low :: rest =>
      if high = ' ' then readBytes (low :: rest)
      else UInt8.ofNat (Hex.value [high, low]) :: readBytes rest

/-- A line that shows a row: the address in five upper-case digits, a colon and
a blank, 24 columns of digits and blanks for the bytes, another blank, and from
column 32 on the text. -/
structure StandsOn (row : Row) (line : List Char) : Prop where
  digits : ∀ c ∈ line.take 5, c ∈ "0123456789ABCDEF".toList
  address : Hex.value (line.take 5) = row.address.toNat
  colon : (line.drop 5).take 2 = [':', ' ']
  pairs : ∀ c ∈ (line.drop 7).take 24, c = ' ' ∨ c ∈ "0123456789ABCDEF".toList
  bytes : readBytes ((line.drop 7).take 24) = row.bytes
  blank : (line.drop 31).take 1 = [' ']
  text : line.drop 32 = row.text.toList

theorem readBytes_blank (rest : List Char) : readBytes (' ' :: rest) = readBytes rest := by
  cases rest <;> rfl

theorem readBytes_blanks (count : Nat) : readBytes (List.replicate count ' ') = [] := by
  induction count with
  | zero => rfl
  | succ count ih => rw [List.replicate_succ, readBytes_blank, ih]

theorem readBytes_pair (byte : UInt8) (rest : List Char) :
    readBytes (Hex.upperDigits 2 byte.toNat ++ rest) = byte :: readBytes rest := by
  have hlength : (Hex.upperDigits 2 byte.toNat).length = 2 :=
    Hex.length_upperDigits (by decide) byte.toNat_lt
  obtain ⟨high, low, hpair⟩ := List.length_eq_two.mp hlength
  have hhigh : high ≠ ' ' := by
    have hmember : high ∈ Hex.upperDigits 2 byte.toNat := by
      rw [hpair]
      exact List.mem_cons_self
    have hdigit := Hex.mem_of_mem_upperDigits hmember
    rintro rfl
    revert hdigit
    decide
  have hvalue : Hex.value [high, low] = byte.toNat := by
    rw [← hpair, Hex.value_upperDigits]
  rw [hpair, List.cons_append, List.cons_append, List.nil_append, readBytes, if_neg hhigh, hvalue,
    UInt8.ofNat_toNat]

theorem readBytes_bytesText (row : Row) (rest : List Char) :
    readBytes (row.bytesText ++ rest) = row.bytes ++ readBytes rest := by
  rw [bytesText]
  induction row.bytes with
  | nil => simp
  | cons byte later ih =>
      cases later with
      | nil => simp [readBytes_pair]
      | cons next later =>
          simp only [List.map_cons, List.intercalate_cons_cons, List.append_assoc,
            List.cons_append, List.nil_append, readBytes_pair, readBytes_blank] at ih ⊢
          rw [ih]

theorem length_bytesText_le (row : Row) : row.bytesText.length ≤ 3 * row.bytes.length := by
  rw [bytesText]
  induction row.bytes with
  | nil => simp
  | cons byte later ih =>
      have hpair : (Hex.upperDigits 2 byte.toNat).length = 2 :=
        Hex.length_upperDigits (by decide) byte.toNat_lt
      cases later with
      | nil => simp [hpair]
      | cons next later =>
          simp only [List.map_cons, List.intercalate_cons_cons, List.length_append, hpair,
            List.length_cons, List.length_nil] at ih ⊢
          omega

theorem mem_bytesText {row : Row} {c : Char} (h : c ∈ row.bytesText) :
    c = ' ' ∨ c ∈ "0123456789ABCDEF".toList := by
  by_cases hblank : c = ' '
  · exact .inl hblank
  · rw [bytesText, Text.mem_intercalate (by simp [hblank])] at h
    obtain ⟨pair, hpair, hc⟩ := h
    obtain ⟨byte, _, rfl⟩ := List.mem_map.mp hpair
    exact .inr (Hex.mem_of_mem_upperDigits hc)

theorem toList_formatted (row : Row) :
    row.formatted.toList =
      Hex.upperDigits 5 row.address.toNat ++ [':', ' '] ++
        List.rightpad bytesColumn ' ' row.bytesText ++ [' '] ++ row.text.toList := by
  simp [formatted]

theorem standsOn_of_columns {row : Row} {digits column : List Char}
    (hdigits : digits.length = 5) (hcolumn : column.length = 24)
    (hupper : ∀ c ∈ digits, c ∈ "0123456789ABCDEF".toList)
    (hvalue : Hex.value digits = row.address.toNat)
    (hpairs : ∀ c ∈ column, c = ' ' ∨ c ∈ "0123456789ABCDEF".toList)
    (hread : readBytes column = row.bytes) :
    row.StandsOn (digits ++ [':', ' '] ++ column ++ [' '] ++ row.text.toList) := by
  have hfront : (digits ++ [':', ' '] ++ column ++ [' '] ++ row.text.toList).take 5 = digits := by
    simp [hdigits]
  have hcut : ((digits ++ [':', ' '] ++ column ++ [' '] ++ row.text.toList).drop 7).take 24 =
      column := by
    rw [List.append_assoc, List.append_assoc, List.drop_left' (by simp [hdigits]),
      List.take_left' hcolumn]
  refine ⟨?_, ?_, ?_, ?_, ?_, ?_, ?_⟩
  · rw [hfront]
    exact hupper
  · rw [hfront, hvalue]
  · simp [hdigits]
  · rw [hcut]
    exact hpairs
  · rw [hcut, hread]
  · rw [List.append_assoc, List.drop_left' (by simp [hdigits, hcolumn])]
    rfl
  · rw [List.drop_left' (by simp [hdigits, hcolumn])]

/-- The columns never overflow: an address of the space has five digits, and
the bytes of an instruction leave room in theirs. -/
theorem standsOn_formatted {row : Row} (haddress : row.address ≤ Address.last)
    (hbytes : row.bytes.length ≤ Instruction.maxLength) :
    row.StandsOn row.formatted.toList := by
  have hcolumn : (List.rightpad bytesColumn ' ' row.bytesText).length = 24 := by
    have htext := row.length_bytesText_le
    have hmax : Instruction.maxLength = 8 := rfl
    have hwidth : bytesColumn = 24 := rfl
    rw [List.length_rightpad]
    omega
  rw [toList_formatted]
  apply standsOn_of_columns _ hcolumn
  · intro c hc
    exact Hex.mem_of_mem_upperDigits hc
  · exact Hex.value_upperDigits 5 _
  · intro c hc
    rcases List.mem_append.mp hc with htext | hpad
    · exact mem_bytesText htext
    · exact .inl (List.eq_of_mem_replicate hpad)
  · rw [List.rightpad, readBytes_bytesText, readBytes_blanks, List.append_nil]
  · exact Hex.length_upperDigits (by decide) ((Address.le_last_iff _).mp haddress)

/-- The line of an operation, set in under that of its row. -/
def opLine (op : Op) : List Char := ("    ; " ++ op.recordText).toList

/-- The lines of the operations of a row. -/
def opLines (row : Row) : List (List Char) :=
  if row.isInvalid then [] else (Gateway.lifted row.bytes row.address).map opLine

/-- The lines that a row prints. -/
def printed (row : Row) (il : Bool) : List (List Char) :=
  row.formatted.toList :: if il then row.opLines else []

theorem ilLines_eq_unlines (row : Row) :
    row.ilLines.result = Text.unlines ((Gateway.lifted row.bytes row.address).map opLine) := by
  have hlifted := Gateway.buffer_lift row.bytes row.address []
  rw [List.nil_append] at hlifted
  simp only [ilLines, Logged.map, hlifted, ← Text.unlines_singleton]
  rw [Text.join_map_unlines, List.map_eq_flatMap]
  rfl

theorem lines_eq_unlines (row : Row) (il : Bool) :
    (row.lines il).result = Text.unlines (row.printed il) := by
  rw [printed, ← List.singleton_append, Text.unlines_append, Text.unlines_singleton]
  cases il with
  | false => simp [lines]
  | true =>
      cases hinvalid : row.isInvalid with
      | true => simp [lines, opLines, hinvalid]
      | false => simp [lines, opLines, hinvalid, Logged.map, ilLines_eq_unlines]

theorem newline_not_mem_bytesText (row : Row) : '\n' ∉ row.bytesText := by
  intro h
  exact absurd (mem_bytesText h) (by decide)

theorem exists_of_mem_opLines {row : Row} {line : List Char} (h : line ∈ row.opLines) :
    ∃ op, line = opLine op := by
  unfold opLines at h
  split at h
  · cases h
  · obtain ⟨op, _, rfl⟩ := List.mem_map.mp h
    exact ⟨op, rfl⟩

theorem newline_not_mem_printed {row : Row} (h : Text.OneLine row.text) (il : Bool) :
    ∀ line ∈ row.printed il, '\n' ∉ line := by
  have hformatted : '\n' ∉ row.formatted.toList := by
    have htext : '\n' ∉ row.text.toList := h
    simp [toList_formatted, Hex.newline_not_mem_upperDigits, newline_not_mem_bytesText, htext]
  intro line hline
  rcases List.mem_cons.mp hline with hrow | hop
  · rw [hrow]
    exact hformatted
  · cases il with
    | false => cases hop
    | true =>
        obtain ⟨op, rfl⟩ := exists_of_mem_opLines hop
        have hrecord : '\n' ∉ op.recordText.toList := op.oneLine_recordText
        simp [opLine, hrecord]

theorem StandsOn.isIndented_eq_false {row : Row} {line : List Char} (h : row.StandsOn line) :
    Text.isIndented line = false := by
  rw [Bool.eq_false_iff]
  intro hindented
  obtain ⟨rest, rfl⟩ := List.isPrefixOf_iff_prefix.mp hindented
  have hdigit := h.digits ' ' List.mem_cons_self
  revert hdigit
  decide

theorem isIndented_opLine (op : Op) : Text.isIndented (opLine op) = true := by
  simp [Text.isIndented, opLine]

/-- Without the lines that are set in, the row's own line is left. -/
theorem filter_printed {row : Row} (h : row.StandsOn row.formatted.toList) (il : Bool) :
    (row.printed il).filter (fun line => !Text.isIndented line) = [row.formatted.toList] := by
  have hops : row.opLines.filter (fun line => !Text.isIndented line) = [] := by
    rw [List.filter_eq_nil_iff]
    intro line hline
    obtain ⟨op, rfl⟩ := exists_of_mem_opLines hline
    simp [isIndented_opLine]
  cases il with
  | false => simp [printed, h.isIndented_eq_false]
  | true => simp [printed, h.isIndented_eq_false, hops]

namespace Describes

variable {row : Row} {display : Display} {address : Address} {bytes : List UInt8}

theorem oneLine_text (h : row.Describes display address bytes) : Text.OneLine row.text := by
  cases hdecode : decode bytes address with
  | ok instruction =>
      rw [(h.valid instruction hdecode).2.2]
      exact instruction.oneLine_text display
  | error cause =>
      obtain ⟨_, _, byte, _, htext⟩ := h.invalid cause hdecode
      simp +decide [htext, Hex.byte]

theorem standsOn (h : row.Describes display address bytes) (haddress : address ≤ Address.last) :
    row.StandsOn row.formatted.toList := by
  apply standsOn_formatted
  · rw [h.address_eq]
    exact haddress
  · have hfits := h.length_le
    rw [List.length_take, h.length_eq] at hfits
    omega

/-- The bytes of a row alone decode to what was decoded in front of all that
follow, so the operations are those of the row's instruction. -/
theorem opLines_eq (h : row.Describes display address bytes) {instruction : Instruction}
    (hdecode : decode bytes address = .ok instruction) :
    decode (bytes.take row.length) address = .ok instruction ∧
      row.opLines = (instruction.lift address).map opLine := by
  obtain ⟨hvalid, hlength, _⟩ := h.valid instruction hdecode
  have hslice : decode (bytes.take row.length) address = .ok instruction := by
    have happend := Instruction.decode_take_append hdecode (Nat.le_of_eq hlength.symm) []
    rw [List.append_nil] at happend
    exact happend
  refine ⟨hslice, ?_⟩
  rw [opLines, if_neg (by simp [hvalid]), h.address_eq, h.bytes_eq, Gateway.lifted, hslice]

end Describes

/-- What holds of every row of a sweep. -/
theorem of_mem_sweep {image : List UInt8} {base : Address} {display : Display} {row : Row}
    (h : row ∈ (sweep image base display).result) :
    row.StandsOn row.formatted.toList ∧ Text.OneLine row.text := by
  obtain ⟨k, hrow⟩ := List.mem_iff_getElem?.mp h
  have hdescribes := describes_sweep hrow
  exact ⟨hdescribes.standsOn (address_le_last_sweep hrow), hdescribes.oneLine_text⟩

end Row

theorem listing_eq_unlines (image : List UInt8) (options : ListingOptions) :
    (listing image options).result =
      Text.unlines ((Row.sweep image options.base options.display).result.flatMap
        (·.printed options.il)) := by
  simp only [listing, List.map_map, ← Text.join_map_unlines, ← Row.lines_eq_unlines]
  rfl

theorem lines_listing (image : List UInt8) (options : ListingOptions) :
    Text.lines (listing image options).result =
      (Row.sweep image options.base options.display).result.flatMap (·.printed options.il) := by
  rw [listing_eq_unlines]
  apply Text.lines_unlines
  intro line hline
  obtain ⟨row, hrow, hprinted⟩ := List.mem_flatMap.mp hline
  exact Row.newline_not_mem_printed (Row.of_mem_sweep hrow).2 options.il line hprinted

theorem lines_listing_plain (image : List UInt8) (base : Address) (display : Display) :
    Text.lines (listing image { base, display, il := false }).result =
      (Row.sweep image base display).result.map (·.formatted.toList) := by
  rw [lines_listing, List.map_eq_flatMap]
  rfl

/-- The listing without operations is what is left of the one with them when
the lines that are set in are dropped. -/
theorem filter_lines_listing (image : List UInt8) (base : Address) (display : Display)
    (il : Bool) :
    (Text.lines (listing image { base, display, il }).result).filter
        (fun line => !Text.isIndented line) =
      Text.lines (listing image { base, display, il := false }).result := by
  rw [lines_listing, lines_listing_plain, List.filter_flatMap, List.map_eq_flatMap]
  apply List.flatMap_congr
  intro row hrow
  exact Row.filter_printed (Row.of_mem_sweep hrow).1 il

/-- A listing shows the rows of the sweep and nothing else. Each row has a line
that ends in a line break, with its address, bytes and text in their columns, and
the columns of bytes hold the image. A listing with operations has the same lines
and under each of them a block of others, set in by four blanks: none for a row
that is invalid, otherwise the operations of the instruction at the row's place in
the image, of which there is at least one. Cut out of the image, the bytes of the
row alone still decode to that instruction. -/
theorem listing_shows_rows (image : List UInt8) (base : Address) (display : Display) :
    let rows := (Row.sweep image base display).result
    let plain := (listing image { base, display, il := false }).result
    let full := (listing image { base, display, il := true }).result
    plain = Text.unlines (Text.lines plain) ∧
    (Text.lines plain).length = rows.length ∧
    (∀ (k : Nat) (row : Row), rows[k]? = some row →
      ∃ line, (Text.lines plain)[k]? = some line ∧ row.StandsOn line) ∧
    (Text.lines plain).flatMap (fun line => Row.readBytes ((line.drop 7).take 24)) = image ∧
    full = Text.unlines (Text.lines full) ∧
    Text.unlines ((Text.lines full).filter fun line => !Text.isIndented line) = plain ∧
    ∃ blocks : List (List (List Char)), blocks.length = rows.length ∧
      Text.lines full = (List.zipWith List.cons (Text.lines plain) blocks).flatten ∧
      ∀ (k : Nat) (row : Row), rows[k]? = some row →
        let offset := Row.covered (rows.take k)
        offset + row.length ≤ image.length ∧
        (row.isInvalid = true → blocks[k]? = some []) ∧
        (row.isInvalid = false → ∃ instruction,
          decode (image.drop offset) row.address = .ok instruction ∧
          decode ((image.drop offset).take row.length) row.address = .ok instruction ∧
          instruction.lift row.address ≠ [] ∧
          blocks[k]? = some ((instruction.lift row.address).map fun op =>
            ("    ; " ++ op.recordText).toList)) := by
  intro rows plain full
  have hterminated (il : Bool) : (listing image { base, display, il }).result =
      Text.unlines (Text.lines (listing image { base, display, il }).result) := by
    rw [lines_listing, listing_eq_unlines]
  have hplain : Text.lines plain = rows.map (·.formatted.toList) :=
    lines_listing_plain image base display
  refine ⟨hterminated false, ?_, ?_, ?_, hterminated true, ?_, rows.map Row.opLines, ?_, ?_, ?_⟩
  · rw [hplain, List.length_map]
  · intro k row hrow
    refine ⟨row.formatted.toList, ?_, (Row.of_mem_sweep (List.mem_of_getElem? hrow)).1⟩
    rw [hplain, List.getElem?_map, hrow, Option.map_some]
  · rw [hplain, List.flatMap_map, ← (Row.tiles_sweep image base display).flatMap_bytes]
    apply List.flatMap_congr
    intro row hrow
    exact (Row.of_mem_sweep hrow).1.bytes
  · rw [filter_lines_listing]
    exact (hterminated false).symm
  · rw [List.length_map]
  · rw [hplain, lines_listing, List.zipWith_map, List.zipWith_self, ← List.flatMap_def]
    rfl
  · intro k row hrow offset
    have hdescribes : row.Describes display row.address (image.drop offset) :=
      Row.describes_sweep hrow
    have hblock : (rows.map Row.opLines)[k]? = some row.opLines := by
      rw [List.getElem?_map, hrow, Option.map_some]
    refine ⟨?_, ?_, ?_⟩
    · have hpositive := hdescribes.one_le_length
      have hfits := hdescribes.length_le_bytes
      rw [List.length_drop] at hfits
      omega
    · intro hinvalid
      rw [hblock, Row.opLines, if_pos hinvalid]
    · intro hvalid
      obtain ⟨instruction, hdecode⟩ := hdescribes.isInvalid_eq_false_iff.mp hvalid
      obtain ⟨hslice, hops⟩ := hdescribes.opLines_eq hdecode
      refine ⟨instruction, hdecode, hslice, instruction.lift_ne_nil row.address, ?_⟩
      rw [hblock, hops]
      rfl

/-- Behind `ENTER` at the top of the address space stands a byte that starts no
instruction. -/
theorem listing_shows_rows_wrapped :
    ∃ line, (Text.lines (listing [0x7C, 0xF2, 0x02, 0x7C] { base := 0xFFFFF }).result)[1]? =
        some line ∧
      Hex.value (line.take 5) = 2 ∧ line.drop 32 = ".byte 0x7c".toList := by
  have hrow : (Row.sweep [0x7C, 0xF2, 0x02, 0x7C] 0xFFFFF {}).result[1]? =
      some (Row.ofByte 0x7C 2) := by rfl
  obtain ⟨line, hline, hstands⟩ :=
    (listing_shows_rows [0x7C, 0xF2, 0x02, 0x7C] 0xFFFFF {}).2.2.1 1 _ hrow
  exact ⟨line, hline, hstands.address, hstands.text⟩

end M16C
