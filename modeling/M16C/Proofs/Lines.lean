import M16C.Proofs.Digits
import M16C.Il.Op
import M16C.Instruction.Line

/-!
Text that stays on one line. Whatever is printed is put together from names,
numbers and quoted strings, and none of them holds a line break; a quoted
string writes one as two other characters. So a text that is printed line by
line can be taken apart at its line breaks, and gives back the lines.
-/

namespace M16C

namespace Text

/-- The text holds no line break. -/
def OneLine (text : String) : Prop := '\n' ∉ text.toList

instance (text : String) : Decidable (OneLine text) :=
  inferInstanceAs (Decidable ('\n' ∉ text.toList))

/-- What stands before each line break of a text. -/
def lines (text : String) : List (List Char) := (text.toList.splitOn '\n').dropLast

/-- Lines with a line break behind each. -/
def unlines (lines : List (List Char)) : String :=
  String.ofList (lines.flatMap (· ++ ['\n']))

theorem lines_unlines {lines : List (List Char)} (h : ∀ line ∈ lines, '\n' ∉ line) :
    Text.lines (unlines lines) = lines := by
  induction lines with
  | nil => rfl
  | cons line later ih =>
      have hline : '\n' ∉ line := h line List.mem_cons_self
      have hlater := ih fun other hother => h other (List.mem_cons_of_mem line hother)
      simp only [Text.lines, unlines, String.toList_ofList] at hlater ⊢
      rw [List.flatMap_cons, List.append_assoc, List.singleton_append,
        List.splitOn_append_cons_self_of_not_mem hline,
        List.dropLast_cons_of_ne_nil (List.splitOn_ne_nil '\n' _), hlater]

@[simp] theorem oneLine_append (first second : String) :
    OneLine (first ++ second) ↔ OneLine first ∧ OneLine second := by
  simp [OneLine]

@[simp] theorem oneLine_ofList (chars : List Char) :
    OneLine (String.ofList chars) ↔ '\n' ∉ chars := by
  simp [OneLine]

@[simp] theorem oneLine_join (texts : List String) :
    OneLine (String.join texts) ↔ ∀ text ∈ texts, OneLine text := by
  simp [OneLine]

theorem mem_intercalate {c : Char} {separator : List Char} (h : c ∉ separator)
    (pieces : List (List Char)) :
    c ∈ separator.intercalate pieces ↔ ∃ piece ∈ pieces, c ∈ piece := by
  induction pieces with
  | nil => simp
  | cons piece later ih =>
      cases later with
      | nil => simp
      | cons next later => simp [List.intercalate_cons_cons, h, ih]

theorem oneLine_intercalate {separator : String} (h : OneLine separator) (texts : List String) :
    OneLine (separator.intercalate texts) ↔ ∀ text ∈ texts, OneLine text := by
  simp [OneLine, mem_intercalate h]

@[simp] theorem oneLine_repr (n : Nat) : OneLine n.repr := by
  intro h
  rw [Nat.toList_repr] at h
  exact absurd (Nat.isDigit_of_mem_toDigits (by decide) (by decide) h) (by decide)

@[simp] theorem oneLine_repr_int (n : Int) : OneLine n.repr := by
  rw [Int.repr_eq_if]
  split <;> simp +decide

@[simp] theorem oneLine_single (name value : String) :
    OneLine (Record.single name value) ↔ OneLine name ∧ OneLine value := by
  simp +decide [Record.single]

@[simp] theorem oneLine_fields (name : String) (values : List (String × String)) :
    OneLine (Record.fields name values) ↔
      OneLine name ∧ ∀ field ∈ values, OneLine field.1 ∧ OneLine field.2 := by
  have hcomma : OneLine ", " := by decide
  simp +decide only [Record.fields, oneLine_append, oneLine_intercalate hcomma,
    List.forall_mem_map, and_true]

end Text

theorem Hex.newline_not_mem_digits (width n : Nat) : '\n' ∉ Hex.digits width n := by
  intro h
  obtain ⟨d, hd, hc⟩ := Hex.exists_of_mem_digits h
  revert d
  decide

theorem Hex.newline_not_mem_upperDigits (width n : Nat) : '\n' ∉ Hex.upperDigits width n := by
  intro h
  exact absurd (Hex.mem_of_mem_upperDigits h) (by decide)

open Text (OneLine)

@[simp] theorem Hex.oneLine_padded (width n : Nat) : OneLine (Hex.padded width n) := by
  simp +decide [Hex.padded, Hex.newline_not_mem_digits]

/-- A line break inside quotes is written as a backslash and a letter. -/
theorem Text.newline_not_mem_quotedChar (c : Char) : '\n' ∉ quotedChar c := by
  have hcode : '\n' ∉ codePoint c := by
    have hdigits := Hex.newline_not_mem_digits 0 c.toNat
    simpa [codePoint, Hex.digits, List.leftpad] using hdigits
  by_cases hc : c = '\n'
  · rw [hc]
    decide
  · unfold quotedChar
    split
    case h_7 =>
      split
      · exact hcode
      · simpa [eq_comm] using hc
    all_goals decide

@[simp] theorem Text.oneLine_quoted (text : String) : OneLine (quoted text) := by
  simp +decide [quoted, newline_not_mem_quotedChar]

@[simp] theorem Register.oneLine_name (register : Register) : OneLine register.name := by
  cases register <;> decide

@[simp] theorem Flag.oneLine_name (flag : Flag) : OneLine flag.name := by
  cases flag <;> decide

@[simp] theorem Condition.oneLine_name (condition : Condition) : OneLine condition.name := by
  cases condition <;> decide

namespace Il

@[simp] theorem FlagWrite.oneLine_name (write : FlagWrite) : OneLine write.name := by
  cases write <;> decide

@[simp] theorem Expr.oneLine_recordText (expr : Expr) : OneLine expr.recordText := by
  induction expr with
  | add size left right hleft hright | sub size left right hleft hright =>
      simp +decide [recordText, hleft, hright]
  | zeroExtend size value ih | lowPart size value ih | load size value ih =>
      simp +decide [recordText, ih]
  | const | register | flag | pop => simp +decide [recordText]

/-- An operation is printed on one line. -/
theorem Op.oneLine_recordText (op : Op) : OneLine op.recordText := by
  cases op with
  | setFlag flag value => cases value <;> simp +decide [recordText]
  | _ => simp +decide [recordText]

end Il

@[simp] theorem Size.oneLine_specifier (size : Size) : OneLine size.specifier := by
  cases size <;> decide

@[simp] theorem JumpDistance.oneLine_specifier (distance : JumpDistance) :
    OneLine distance.specifier := by
  cases distance <;> decide

@[simp] theorem CallDistance.oneLine_specifier (distance : CallDistance) :
    OneLine distance.specifier := by
  cases distance <;> decide

@[simp] theorem BranchCondition.oneLine_mnemonic (condition : BranchCondition) :
    OneLine condition.mnemonic := by
  cases condition <;> decide

@[simp] theorem QuickOperation.oneLine_mnemonic (operation : QuickOperation) :
    OneLine operation.mnemonic := by
  cases operation <;> decide

theorem oneLine_signedHex (n : Int) : OneLine (signedHex n) := by
  unfold signedHex
  split <;> simp +decide [Hex.plain]

theorem Argument.oneLine_tokens (argument : Argument) :
    ∀ token ∈ argument.tokens, OneLine token.text := by
  cases argument with
  | memory displacement base =>
      cases displacement <;> simp +decide [tokens, oneLine_signedHex]
  | _ => simp +decide [tokens, Hex.plain, Hex.address, Hex.word]

namespace Line

theorem oneLine_argumentTokens (arguments : List Argument) :
    ∀ token ∈ argumentTokens arguments, OneLine token.text :=
  forall_mem_argumentTokens (by decide) (by decide) Argument.oneLine_tokens arguments

theorem oneLine_tokens {line : Line} (h : OneLine line.mnemonic) (display : Display) :
    ∀ token ∈ line.tokens display, OneLine token.text := by
  have hsuffix : ∀ token ∈ line.suffixTokens display, OneLine token.text := by
    unfold suffixTokens
    split
    · next format _ =>
        split
        · cases format <;> simp +decide
        · simp
    · simp
  intro token htoken
  simp only [tokens, List.cons_append, List.mem_cons, List.mem_append] at htoken
  rcases htoken with rfl | hformat | harguments
  · exact h
  · exact hsuffix token hformat
  · exact oneLine_argumentTokens line.arguments token harguments

end Line

namespace Instruction

theorem oneLine_mnemonic (instruction : Instruction) : OneLine instruction.line.mnemonic := by
  cases instruction <;> simp +decide [line]

/-- An instruction is printed on one line. -/
theorem oneLine_text (instruction : Instruction) (display : Display) :
    OneLine (Token.lineText (instruction.render display)) := by
  have htokens := Line.oneLine_tokens instruction.oneLine_mnemonic display
  simpa [Token.lineText, render] using htokens

end Instruction

end M16C
