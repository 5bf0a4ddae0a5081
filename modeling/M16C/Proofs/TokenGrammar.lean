import M16C.Proofs.Numerals

/-!
The tokens of a line and their order. A host takes a line apart by the kinds of
its tokens: mnemonic, suffix, then operands behind a blank with commas between
them, where an operand is one token or a displacement in front of a bracketed
register. It links numbers by the values that their tokens carry and shows them
by their texts, so the two have to say the same. Both hold of every line, since
the tokens come from the line alone and not from the instruction behind it.
-/

namespace M16C

namespace Token

/-- An operand: a single token, or memory with an optional displacement. -/
inductive IsOperand : List Token → Prop
  | register {token : Token} (hkind : token.kind = .register) : IsOperand [token]
  | integer {token : Token} (hkind : token.kind = .integer) : IsOperand [token]
  | possibleAddress {token : Token} (hkind : token.kind = .possibleAddress) : IsOperand [token]
  | memory {displacement : Option Token} {base : Token}
      (hdisplacement : ∀ token ∈ displacement, token.kind = .integer)
      (hbase : base.kind = .register) :
      IsOperand (displacement.toList ++
        [{ kind := .beginMemoryOperand, text := "[" }, base,
         { kind := .endMemoryOperand, text := "]" }])

/-- One or more operands with commas between them. -/
inductive AreOperands : List Token → Prop
  | last {operand : List Token} (hoperand : IsOperand operand) : AreOperands operand
  | more {operand rest : List Token} (hoperand : IsOperand operand) (hrest : AreOperands rest) :
      AreOperands (operand ++ { kind := .operandSeparator, text := ", " } :: rest)

/-- A mnemonic and at most one suffix, with nothing behind them or operands
behind a blank. -/
inductive IsLine : List Token → Prop
  | bare {mnemonic : Token} {suffix : Option Token} (hmnemonic : mnemonic.kind = .instruction)
      (hsuffix : ∀ token ∈ suffix, token.kind = .suffix) :
      IsLine (mnemonic :: suffix.toList)
  | operands {mnemonic : Token} {suffix : Option Token} {rest : List Token}
      (hmnemonic : mnemonic.kind = .instruction)
      (hsuffix : ∀ token ∈ suffix, token.kind = .suffix) (hrest : AreOperands rest) :
      IsLine (mnemonic :: suffix.toList ++ { kind := .text, text := " " } :: rest)

/-- Whether a token stands between operands: the blank in front of them, or a
comma. -/
def separates (token : Token) : Bool := token.kind == .text || token.kind == .operandSeparator

/-- The tokens of each operand of a line. -/
def operands (tokens : List Token) : List (List Token) := (tokens.splitOnP separates).tail

theorem IsOperand.separates_eq_false {operand : List Token} (h : IsOperand operand) :
    ∀ token ∈ operand, token.separates = false := by
  cases h with
  | register hkind | integer hkind | possibleAddress hkind =>
      exact List.forall_mem_singleton.mpr (by simp [separates, hkind])
  | memory hdisplacement hbase =>
      refine List.forall_mem_append.mpr ⟨?_, by simp [separates, hbase]⟩
      intro token htoken
      simp [separates, hdisplacement token (Option.mem_toList.mp htoken)]

/-- The token carries a value exactly when its kind is that of a number, and then
its text reads as that number modulo 2^64. -/
structure Valued (token : Token) : Prop where
  isSome_iff : token.value.isSome = true ↔
    token.kind = .integer ∨ token.kind = .possibleAddress
  reads : ∀ value, token.value = some value →
    ∃ n, Numeral.shown? token.text.toList = some n ∧ (value.toNat : Int) = n % 2 ^ 64

theorem valued_number {kind : TokenKind} {text : String} {n : Int}
    (hkind : kind = .integer ∨ kind = .possibleAddress)
    (htext : Numeral.shown? text.toList = some n) :
    Valued { kind := kind, text := text, value := tokenValue n } where
  isSome_iff := iff_of_true rfl hkind
  reads := by
    intro value hvalue
    cases hvalue
    exact ⟨n, htext, toNat_tokenValue n⟩

theorem valued_word {kind : TokenKind} (text : String)
    (hkind : ¬ (kind = .integer ∨ kind = .possibleAddress)) :
    Valued { kind := kind, text := text } where
  isSome_iff := iff_of_false Bool.false_ne_true hkind
  reads := fun _ hvalue => nomatch hvalue

end Token

open Token Numeral

namespace Argument

theorem isOperand_tokens (argument : Argument) : IsOperand argument.tokens := by
  cases argument with
  | register register => exact .register rfl
  | flag flag => exact .register rfl
  | immediate value => exact .integer rfl
  | decimal value => exact .integer rfl
  | target address => exact .possibleAddress rfl
  | absolute address => exact .possibleAddress rfl
  | memory displacement base =>
      rw [tokens, ← Option.toList_map]
      refine .memory ?_ rfl
      intro token htoken
      obtain ⟨d, _, rfl⟩ := Option.map_eq_some_iff.mp htoken
      rfl

theorem valued_tokens (argument : Argument) : ∀ token ∈ argument.tokens, Valued token := by
  cases argument with
  | register register => exact List.forall_mem_singleton.mpr (valued_word _ (by decide))
  | flag flag => exact List.forall_mem_singleton.mpr (valued_word _ (by decide))
  | immediate value =>
      have htext := shown?_hash (integer?_padded 0 value.toNat)
      exact List.forall_mem_singleton.mpr (valued_number (.inl rfl) htext)
  | decimal value =>
      have htext := shown?_hash (integer?_repr value.toInt)
      exact List.forall_mem_singleton.mpr (valued_number (.inl rfl) htext)
  | target address =>
      have htext := shown?_of_integer? (integer?_padded 5 address.toNat)
      exact List.forall_mem_singleton.mpr (valued_number (.inr rfl) htext)
  | absolute address =>
      have htext := shown?_of_integer? (integer?_padded 4 address.toNat)
      exact List.forall_mem_singleton.mpr (valued_number (.inr rfl) htext)
  | memory displacement base =>
      intro token htoken
      simp only [tokens, List.mem_append, List.mem_map, List.mem_cons, List.not_mem_nil,
        or_false] at htoken
      rcases htoken with ⟨d, _, rfl⟩ | rfl | rfl | rfl
      · exact valued_number (.inl rfl) (shown?_of_integer? (integer?_signedHex d))
      · exact valued_word _ (by decide)
      · exact valued_word _ (by decide)
      · exact valued_word _ (by decide)

end Argument

namespace Line

theorem areOperands_tokens (first : Argument) (rest : List Argument) :
    AreOperands (first.tokens ++ rest.flatMap fun argument =>
      { kind := .operandSeparator, text := ", " } :: argument.tokens) := by
  induction rest generalizing first with
  | nil =>
      rw [List.flatMap_nil, List.append_nil]
      exact .last first.isOperand_tokens
  | cons second rest ih =>
      rw [List.flatMap_cons, List.cons_append]
      exact .more first.isOperand_tokens (ih second)

theorem exists_suffixTokens (line : Line) (display : Display) :
    ∃ suffix : Option Token, line.suffixTokens display = suffix.toList ∧
      ∀ token ∈ suffix, token.kind = .suffix ∧ Valued token := by
  unfold suffixTokens
  split
  · next format _ =>
      split
      · refine ⟨some _, rfl, ?_⟩
        rintro token ⟨⟩
        exact ⟨rfl, valued_word _ (by decide)⟩
      · exact ⟨none, rfl, nofun⟩
  · exact ⟨none, rfl, nofun⟩

theorem isLine_tokens (line : Line) (display : Display) : IsLine (line.tokens display) := by
  obtain ⟨suffix, hsuffix, hkind⟩ := line.exists_suffixTokens display
  rw [tokens, hsuffix]
  cases line.arguments with
  | nil =>
      rw [argumentTokens, List.append_nil]
      exact .bare rfl fun token htoken => (hkind token htoken).1
  | cons first rest =>
      exact .operands rfl (fun token htoken => (hkind token htoken).1) (areOperands_tokens first rest)

theorem splitOnP_tokens (first : Argument) (rest : List Argument) :
    (first.tokens ++ rest.flatMap fun argument =>
      { kind := .operandSeparator, text := ", " } :: argument.tokens).splitOnP separates =
    (first :: rest).map Argument.tokens := by
  induction rest generalizing first with
  | nil =>
      rw [List.flatMap_nil, List.append_nil]
      exact List.splitOnP_eq_singleton first.isOperand_tokens.separates_eq_false
  | cons second rest ih =>
      rw [List.flatMap_cons, List.cons_append, List.map_cons, ← ih second]
      exact List.splitOnP_append_cons_of_forall_mem first.isOperand_tokens.separates_eq_false _ rfl _

/-- A line falls apart at its separators into the operands that it was made of. -/
theorem operands_tokens (line : Line) (display : Display) :
    Token.operands (line.tokens display) = line.arguments.map Argument.tokens := by
  obtain ⟨suffix, hsuffix, hkind⟩ := line.exists_suffixTokens display
  have hfront : ∀ token ∈ ({ kind := .instruction, text := line.mnemonic } : Token) ::
      suffix.toList, token.separates = false := by
    refine List.forall_mem_cons.mpr ⟨rfl, ?_⟩
    intro token htoken
    simp [separates, (hkind token (Option.mem_toList.mp htoken)).1]
  rw [Token.operands, tokens, hsuffix]
  cases line.arguments with
  | nil =>
      rw [argumentTokens, List.append_nil, List.splitOnP_eq_singleton hfront]
      rfl
  | cons first rest =>
      rw [← splitOnP_tokens]
      exact congrArg List.tail (List.splitOnP_append_cons_of_forall_mem hfront _ rfl _)

theorem valued_argumentTokens (arguments : List Argument) :
    ∀ token ∈ argumentTokens arguments, Valued token :=
  forall_mem_argumentTokens (valued_word _ (by decide)) (valued_word _ (by decide))
    Argument.valued_tokens arguments

theorem valued_tokens (line : Line) (display : Display) :
    ∀ token ∈ line.tokens display, Valued token := by
  obtain ⟨suffix, hsuffix, hvalued⟩ := line.exists_suffixTokens display
  intro token htoken
  simp only [tokens, hsuffix, List.cons_append, List.mem_cons, List.mem_append,
    Option.mem_toList] at htoken
  rcases htoken with rfl | hformat | harguments
  · exact valued_word _ (by decide)
  · exact (hvalued token hformat).2
  · exact valued_argumentTokens line.arguments token harguments

end Line

namespace Instruction

/-- Every instruction is rendered as a line of the grammar, with the suffix shown
or not, and its tokens carry values where they show numbers and nowhere else,
each equal to its text. -/
theorem render_isLine (instruction : Instruction) (display : Display) :
    IsLine (instruction.render display) ∧
      ∀ token ∈ instruction.render display, Valued token :=
  ⟨instruction.line.isLine_tokens display, instruction.line.valued_tokens display⟩

/-- The lowest immediate and the lowest displacement, one in decimal and one in
hexadecimal: both tokens carry `2^64 - 128`. -/
theorem render_isLine_lowest :
    let tokens := (Instruction.quick .cmp .byte (-128) (.dsp8Fb (-128))).render {}
    let immediate : Token :=
      { kind := .integer, text := "#-128", value := some 0xFFFFFFFFFFFFFF80 }
    let displacement : Token :=
      { kind := .integer, text := "-0x80", value := some 0xFFFFFFFFFFFFFF80 }
    IsLine tokens ∧ immediate ∈ tokens ∧ Valued immediate ∧ displacement ∈ tokens ∧
      Valued displacement := by
  intro tokens immediate displacement
  have himmediate : immediate ∈ tokens := by decide +kernel
  have hdisplacement : displacement ∈ tokens := by decide +kernel
  obtain ⟨hline, hvalued⟩ := render_isLine (.quick .cmp .byte (-128) (.dsp8Fb (-128))) {}
  exact ⟨hline, himmediate, hvalued _ himmediate, hdisplacement, hvalued _ hdisplacement⟩

end Instruction

end M16C
