import M16C.Proofs.Numerals

/-!
Reading lines of assembly back. The text of a line has no marks but a blank, a
comma, a colon and brackets; these stand nowhere inside a mnemonic, a name or a
number, so a line can be cut at them. What is left are words, told apart by how
they start: a `#` for an immediate, digits for an address, a letter for a name.
An address of memory has four digits and one of code at least five. The reader
is the inverse of writing a line with its suffix shown, and so two lines with
the same text are the same line.
-/

namespace M16C

/-- The characters at which a line is cut. -/
def isMark (c : Char) : Bool := c == ' ' || c == ',' || c == ':' || c == '['

/-- The text has none of the marks at which a line is cut. -/
def Unmarked (text : List Char) : Prop := text.any isMark = false

instance (text : List Char) : Decidable (Unmarked text) :=
  inferInstanceAs (Decidable (_ = false))

theorem unmarked_iff {text : List Char} : Unmarked text ↔ ∀ c ∈ text, isMark c = false := by
  simp [Unmarked]

namespace Unmarked

theorem append {first second : List Char} (hfirst : Unmarked first) (hsecond : Unmarked second) :
    Unmarked (first ++ second) := by
  rw [Unmarked, List.any_append, hfirst, hsecond, Bool.or_false]

theorem not_mem {text : List Char} (h : Unmarked text) {c : Char} (hmark : isMark c = true) :
    c ∉ text := by
  intro hc
  rw [unmarked_iff.mp h c hc] at hmark
  cases hmark

end Unmarked

theorem unmarked_padded (width n : Nat) : Unmarked (Hex.padded width n).toList := by
  have hdigit : ∀ d < 16, isMark (Nat.digitChar d) = false := by decide
  have hdigits : Unmarked (Hex.digits width n) := by
    rw [unmarked_iff]
    intro c hc
    obtain ⟨d, hd, rfl⟩ := Hex.exists_of_mem_digits hc
    exact hdigit d hd
  have hfront : Unmarked ['0', 'x'] := by decide
  rw [Numeral.toList_padded]
  exact hfront.append hdigits

/-- A number in decimal is digits and perhaps a sign. -/
theorem mem_repr {n : Int} {c : Char} (h : c ∈ n.repr.toList) : c = '-' ∨ c.isDigit = true := by
  have hdigits (m : Nat) (hc : c ∈ m.repr.toList) : c.isDigit = true := by
    rw [Nat.toList_repr] at hc
    exact Nat.isDigit_of_mem_toDigits (by omega) (by omega) hc
  rw [Int.repr_eq_if] at h
  split at h
  · exact .inr (hdigits _ h)
  · rw [String.toList_append] at h
    rcases List.mem_append.mp h with hsign | hc
    · exact .inl (List.mem_singleton.mp hsign)
    · exact .inr (hdigits _ hc)

theorem unmarked_repr (n : Int) : Unmarked n.repr.toList := by
  rw [unmarked_iff]
  intro c hc
  by_contra hmark
  have hmarks : c = ' ' ∨ c = ',' ∨ c = ':' ∨ c = '[' := by
    rw [Bool.not_eq_false] at hmark
    simpa [isMark, or_assoc] using hmark
  rcases hmarks with rfl | rfl | rfl | rfl <;> exact absurd (mem_repr hc) (by decide)

theorem unmarked_signedHex (n : Int) : Unmarked (signedHex n).toList := by
  unfold signedHex
  split
  · rw [String.toList_append]
    exact Unmarked.append (by decide) (unmarked_padded 0 _)
  · exact unmarked_padded 0 _

theorem Register.unmarked_name (register : Register) : Unmarked register.name.toList := by
  cases register <;> decide

theorem Flag.unmarked_name (flag : Flag) : Unmarked flag.name.toList := by
  cases flag <;> decide

theorem Register.ofName?_name (register : Register) : ofName? register.name = some register := by
  cases register <;> rfl

namespace Argument

/-- The characters of an argument. -/
def chars (argument : Argument) : List Char := argument.tokens.flatMap (·.text.toList)

/-- A word without brackets as an argument. -/
def ofWord? : List Char → Option Argument
  | '#' :: '0' :: 'x' :: digits => some (.immediate (UInt16.ofNat (Hex.value digits)))
  | '#' :: number => (Numeral.integer? number).map fun n => .decimal (Int8.ofInt n)
  | '0' :: 'x' :: digits =>
      if digits.length = 4 then some (.absolute (UInt16.ofNat (Hex.value digits)))
      else some (.target (UInt32.ofNat (Hex.value digits)))
  | name =>
      match Register.ofName? (String.ofList name) with
      | some r => some (.register r)
      | none => (Flag.ofName? (String.ofList name)).map .flag

/-- An argument from its characters. -/
def ofChars? (text : List Char) : Option Argument :=
  match text.splitOn '[' with
  | [word] => ofWord? word
  | [front, back] =>
      (Register.ofName? (String.ofList back.dropLast)).map (.memory (Numeral.integer? front))
  | _ => none

theorem ofWord?_immediate (value : UInt16) :
    ofWord? ("#" ++ Hex.plain value.toNat).toList = some (.immediate value) := by
  rw [String.toList_append, Hex.plain, Numeral.toList_padded]
  change some (Argument.immediate (UInt16.ofNat (Hex.value (Hex.digits 0 value.toNat)))) = _
  rw [Hex.value_digits, UInt16.ofNat_toNat]

/-- What stands behind the `#` of a decimal does not start with `0x`. -/
theorem ofWord?_decimal (value : Int8) :
    ofWord? ("#" ++ value.toInt.repr).toList = some (.decimal value) := by
  have hx : 'x' ∉ value.toInt.repr.toList := fun h => absurd (mem_repr h) (by decide)
  have hread := Numeral.integer?_repr value.toInt
  rw [String.toList_append]
  change ofWord? ('#' :: value.toInt.repr.toList) = _
  generalize value.toInt.repr.toList = number at hx hread
  unfold ofWord?
  split
  · next digits heq =>
      cases heq
      exact absurd (by simp) hx
  · next heq =>
      cases heq
      rw [hread, Option.map_some, Int8.ofInt_toInt]
  · next heq => cases heq
  · next h _ => exact absurd rfl (h number)

theorem ofWord?_target (address : Address) :
    ofWord? (Hex.address address).toList = some (.target address) := by
  have hlength : (Hex.digits 5 address.toNat).length ≠ 4 := by
    rw [Hex.digits, List.length_leftpad]
    omega
  rw [Hex.address, Numeral.toList_padded, ofWord?, if_neg hlength, Hex.value_digits,
    UInt32.ofNat_toNat]

theorem ofWord?_absolute (place : UInt16) :
    ofWord? (Hex.word place).toList = some (.absolute place) := by
  have hlength : (Hex.digits 4 place.toNat).length = 4 :=
    Hex.length_digits (by decide) place.toNat_lt
  rw [Hex.word, Numeral.toList_padded, ofWord?, if_pos hlength, Hex.value_digits,
    UInt16.ofNat_toNat]

/-- The forms in which arguments are written: a word, or memory with the
displacement in front of the brackets. -/
inductive Written : Argument → List Char → Prop
  | word {argument : Argument} {word : List Char} (hword : Unmarked word)
      (hread : ofWord? word = some argument) : Written argument word
  | memory {displacement : Option Int} {front : List Char} (hfront : Unmarked front)
      (hread : Numeral.integer? front = displacement) (base : Register) :
      Written (.memory displacement base) (front ++ '[' :: (base.name.toList ++ [']']))

theorem written_chars_of_tokens {argument : Argument} {token : Token}
    (htokens : argument.tokens = [token]) (hword : Unmarked token.text.toList)
    (hread : ofWord? token.text.toList = some argument) : Written argument argument.chars := by
  rw [chars, htokens, List.flatMap_singleton]
  exact .word hword hread

theorem written_chars (argument : Argument) : Written argument argument.chars := by
  have hhash {text : String} (h : Unmarked text.toList) : Unmarked ("#" ++ text).toList := by
    rw [String.toList_append]
    exact Unmarked.append (by decide) h
  cases argument with
  | register r => exact written_chars_of_tokens rfl r.unmarked_name (by cases r <;> rfl)
  | flag f => exact written_chars_of_tokens rfl f.unmarked_name (by cases f <;> rfl)
  | immediate value =>
      exact written_chars_of_tokens rfl (hhash (unmarked_padded 0 _)) (ofWord?_immediate value)
  | decimal value =>
      exact written_chars_of_tokens rfl (hhash (unmarked_repr _)) (ofWord?_decimal value)
  | target address =>
      exact written_chars_of_tokens rfl (unmarked_padded 5 _) (ofWord?_target address)
  | absolute place =>
      exact written_chars_of_tokens rfl (unmarked_padded 4 _) (ofWord?_absolute place)
  | memory displacement base =>
      have hchars : (Argument.memory displacement base).chars =
          (displacement.toList.flatMap fun d => (signedHex d).toList) ++
            '[' :: (base.name.toList ++ [']']) := by
        simp [chars, tokens, List.flatMap_map]
      rw [hchars]
      cases displacement with
      | none =>
          have hnone : Unmarked [] := by decide
          exact .memory hnone rfl base
      | some d =>
          rw [Option.toList_some, List.flatMap_singleton]
          exact .memory (unmarked_signedHex d) (Numeral.integer?_signedHex d) base

theorem Written.ofChars?_eq {argument : Argument} {text : List Char} (h : Written argument text) :
    ofChars? text = some argument := by
  cases h with
  | word hword hread =>
      rw [ofChars?, List.splitOn_eq_singleton (hword.not_mem rfl)]
      exact hread
  | memory hfront hread base =>
      have hback : '[' ∉ base.name.toList ++ [']'] := by
        simpa using base.unmarked_name.not_mem (c := '[') rfl
      rw [ofChars?, List.splitOn_append_cons_self_of_not_mem (hfront.not_mem rfl),
        List.splitOn_eq_singleton hback]
      simp [Register.ofName?_name, hread]

/-- Inside an argument there is no mark but its bracket. -/
theorem Written.not_mem {argument : Argument} {text : List Char} (h : Written argument text)
    {c : Char} (hmark : isMark c = true) (hbracket : c ≠ '[') : c ∉ text := by
  cases h with
  | word hword hread => exact hword.not_mem hmark
  | memory hfront hread base =>
      have hname := base.unmarked_name.not_mem hmark
      have hother := hfront.not_mem hmark
      have hclosing : c ≠ ']' := by
        rintro rfl
        cases hmark
      simp [hname, hother, hbracket, hclosing]

theorem ofChars?_chars (argument : Argument) : ofChars? argument.chars = some argument :=
  argument.written_chars.ofChars?_eq

theorem not_mem_chars (argument : Argument) {c : Char} (hmark : isMark c = true)
    (hbracket : c ≠ '[') : c ∉ argument.chars :=
  argument.written_chars.not_mem hmark hbracket

end Argument

/-- A format from its suffix. -/
def Format.ofSuffix? (text : List Char) : Option Format :=
  [Format.generic, .quick, .short, .zero].find? (·.suffix.toList == text)

namespace Line

/-- A line from its characters: the mnemonic and its suffix up to the first
blank, and an argument up to its comma behind every blank. -/
def ofChars? (text : List Char) : Option Line :=
  match text.splitOn ' ' with
  | [] => none
  | head :: words => do
      let arguments ← words.mapM fun word => Argument.ofChars? (word.takeWhile (· != ','))
      return { mnemonic := String.ofList (head.takeWhile (· != ':'))
               format := Format.ofSuffix? (head.dropWhile (· != ':'))
               arguments := arguments }

/-- Text is cut where a mark first stands, and the mark stays with what follows. -/
theorem cut_append {mark : Char} {front back : List Char} (hfront : mark ∉ front)
    (hback : back = [] ∨ ∃ rest, back = mark :: rest) :
    (front ++ back).takeWhile (· != mark) = front ∧
      (front ++ back).dropWhile (· != mark) = back := by
  have hall : ∀ c ∈ front, (c != mark) = true := fun c hc =>
    bne_iff_ne.mpr fun heq => hfront (heq ▸ hc)
  rw [List.takeWhile_append_of_pos hall, List.dropWhile_append_of_pos hall]
  rcases hback with rfl | ⟨rest, rfl⟩ <;> simp

/-- Arguments with commas and blanks between them are read back one by one. -/
theorem mapM_splitOn (first : Argument) (rest : List Argument) :
    (((first.chars ++ rest.flatMap fun argument => ',' :: ' ' :: argument.chars).splitOn ' ').mapM
      fun word => Argument.ofChars? (word.takeWhile (· != ','))) = some (first :: rest) := by
  have hblank := first.not_mem_chars (c := ' ') rfl (by decide)
  have hcomma := first.not_mem_chars (c := ',') rfl (by decide)
  induction rest generalizing first with
  | nil =>
      have hword : (first.chars ++ []).takeWhile (· != ',') = first.chars :=
        (cut_append hcomma (by simp)).1
      rw [List.append_nil] at hword
      rw [List.flatMap_nil, List.append_nil, List.splitOn_eq_singleton hblank]
      simp [hword, first.ofChars?_chars]
  | cons second rest ih =>
      have hword : (first.chars ++ [',']).takeWhile (· != ',') = first.chars :=
        (cut_append hcomma (by simp)).1
      have htext : (first.chars ++ (second :: rest).flatMap fun argument =>
          ',' :: ' ' :: argument.chars) =
          (first.chars ++ [',']) ++ ' ' :: (second.chars ++ rest.flatMap fun argument =>
            ',' :: ' ' :: argument.chars) := by
        simp
      have hlater := ih second (second.not_mem_chars rfl (by decide))
        (second.not_mem_chars rfl (by decide))
      rw [htext, List.splitOn_append_cons_self_of_not_mem (by simpa using hblank),
        List.mapM_cons, hword, first.ofChars?_chars, hlater]
      rfl

/-- The suffix of a line, when it is shown. -/
def suffixChars (line : Line) : List Char := (line.format.map (·.suffix.toList)).getD []

theorem ofSuffix?_suffixChars (line : Line) :
    Format.ofSuffix? line.suffixChars = line.format := by
  unfold suffixChars
  cases line.format with
  | none => rfl
  | some format => cases format <;> rfl

/-- A suffix is a colon and one letter. -/
theorem suffixChars_cases (line : Line) :
    line.suffixChars = [] ∨ ∃ letter, letter ≠ ' ' ∧ line.suffixChars = [':', letter] := by
  unfold suffixChars
  cases line.format with
  | none => exact .inl rfl
  | some format => cases format <;> exact .inr ⟨_, by decide, rfl⟩

/-- The characters behind the suffix. -/
def argumentChars : List Argument → List Char
  | [] => []
  | first :: rest =>
      ' ' :: (first.chars ++ rest.flatMap fun argument => ',' :: ' ' :: argument.chars)

theorem toList_lineText (line : Line) :
    (Token.lineText (line.tokens { showSuffix := true })).toList =
      line.mnemonic.toList ++ line.suffixChars ++ argumentChars line.arguments := by
  have hsuffix : (line.suffixTokens { showSuffix := true }).flatMap (·.text.toList) =
      line.suffixChars := by
    unfold suffixTokens suffixChars
    cases line.format with
    | none => rfl
    | some format => simp
  have harguments : (argumentTokens line.arguments).flatMap (·.text.toList) =
      argumentChars line.arguments := by
    cases line.arguments with
    | nil => rfl
    | cons first rest =>
        simp [argumentTokens, argumentChars, Argument.chars, List.flatMap_assoc]
  rw [Token.lineText, String.toList_join, List.flatMap_map, tokens, List.cons_append,
    List.flatMap_cons, List.flatMap_append, hsuffix, harguments, List.append_assoc]

/-- Behind the first blank of a line there is one word for each argument. -/
theorem exists_words {head : List Char} (hhead : ' ' ∉ head) (arguments : List Argument) :
    ∃ words, (head ++ argumentChars arguments).splitOn ' ' = head :: words ∧
      (words.mapM fun word => Argument.ofChars? (word.takeWhile (· != ','))) =
        some arguments := by
  cases arguments with
  | nil =>
      rw [argumentChars, List.append_nil, List.splitOn_eq_singleton hhead]
      exact ⟨[], rfl, rfl⟩
  | cons first rest =>
      rw [argumentChars, List.splitOn_append_cons_self_of_not_mem hhead]
      exact ⟨_, rfl, mapM_splitOn first rest⟩

/-- A line is read back from its text. -/
theorem ofChars?_lineText {line : Line} (hmnemonic : Unmarked line.mnemonic.toList) :
    ofChars? (Token.lineText (line.tokens { showSuffix := true })).toList = some line := by
  have hcolon : line.suffixChars = [] ∨ ∃ rest, line.suffixChars = ':' :: rest :=
    line.suffixChars_cases.imp_right fun ⟨letter, _, hletter⟩ => ⟨[letter], hletter⟩
  obtain ⟨hbefore, hbehind⟩ := cut_append (hmnemonic.not_mem rfl) hcolon
  have hhead : ' ' ∉ line.mnemonic.toList ++ line.suffixChars := by
    have hfront : ' ' ∉ line.mnemonic.toList := hmnemonic.not_mem rfl
    rcases line.suffixChars_cases with hsuffix | ⟨letter, hletter, hsuffix⟩
    · simpa [hsuffix] using hfront
    · simpa [hsuffix] using ⟨hfront, hletter.symm⟩
  obtain ⟨words, hsplit, hwords⟩ := exists_words hhead line.arguments
  simp only [toList_lineText, ofChars?, hsplit, hwords, hbefore, hbehind, ofSuffix?_suffixChars,
    String.ofList_toList]
  rfl

end Line

end M16C
