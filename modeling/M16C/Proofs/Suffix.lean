import Mathlib.Data.List.Forall2
import M16C.Proofs.Composition
import M16C.Proofs.Rebasing
import M16C.Proofs.TokenGrammar

/-!
The one display setting. With the suffix hidden, a line is what it is with the
suffix shown less the token of the suffix, and nothing moves or changes for it:
the blank in front of the operands and the commas between them follow the
operands alone. A sweep under one setting keeps in step with a sweep under the
other, since how far it goes at each row is a matter of the bytes. The rows
differ in their texts only, and there only by the suffix.
-/

namespace M16C

open Instruction (decode)

namespace Token

/-- The tokens but those that show a format. -/
def withoutSuffix (tokens : List Token) : List Token :=
  tokens.filter fun token => token.kind != .suffix

theorem withoutSuffix_of_forall {tokens : List Token} (h : ∀ token ∈ tokens, token.kind ≠ .suffix) :
    withoutSuffix tokens = tokens := by
  refine List.filter_eq_self.mpr fun token htoken => ?_
  exact bne_iff_ne.mpr (h token htoken)

end Token

open Token (withoutSuffix withoutSuffix_of_forall)

theorem Argument.kind_ne_suffix (argument : Argument) :
    ∀ token ∈ argument.tokens, token.kind ≠ .suffix := by
  cases argument with
  | memory displacement base =>
      cases displacement <;> simp [tokens]
  | _ => simp [tokens]

namespace Line

theorem kind_ne_suffix_of_mem_argumentTokens (arguments : List Argument) :
    ∀ token ∈ argumentTokens arguments, token.kind ≠ .suffix :=
  forall_mem_argumentTokens (by decide) (by decide) Argument.kind_ne_suffix arguments

theorem kind_of_mem_suffixTokens {line : Line} {display : Display} {token : Token}
    (h : token ∈ line.suffixTokens display) : token.kind = .suffix := by
  obtain ⟨suffix, hsuffix, hkind⟩ := line.exists_suffixTokens display
  rw [hsuffix] at h
  exact (hkind token (Option.mem_toList.mp h)).1

theorem suffixTokens_hidden (line : Line) : line.suffixTokens { showSuffix := false } = [] := by
  unfold suffixTokens
  split <;> rfl

/-- Hiding the suffix takes its token out of the line and keeps the others. -/
theorem tokens_hidden (line : Line) (display : Display) :
    line.tokens { showSuffix := false } = withoutSuffix (line.tokens display) := by
  have hsuffix : withoutSuffix (line.suffixTokens display) = [] := by
    refine List.filter_eq_nil_iff.mpr fun token htoken => ?_
    simp [kind_of_mem_suffixTokens htoken]
  have harguments := withoutSuffix_of_forall (kind_ne_suffix_of_mem_argumentTokens line.arguments)
  unfold withoutSuffix at hsuffix harguments
  rw [tokens, tokens, suffixTokens_hidden, withoutSuffix, List.filter_append,
    List.filter_cons_of_pos rfl, hsuffix, harguments]

theorem kind_ne_suffix_of_mem_hidden {line : Line} :
    ∀ token ∈ line.tokens { showSuffix := false }, token.kind ≠ .suffix := by
  intro token htoken
  rw [line.tokens_hidden { showSuffix := true }] at htoken
  exact bne_iff_ne.mp (List.mem_filter.mp htoken).2

/-- A shown suffix stands directly behind the mnemonic. -/
theorem kind_getElem?_shown (line : Line) (k : Nat) :
    ((line.tokens { showSuffix := true })[k]?.map Token.kind = some .suffix) ↔
      k = 1 ∧ line.format.isSome = true := by
  have hargument (n : Nat) :
      (argumentTokens line.arguments)[n]?.map Token.kind ≠ some .suffix := by
    intro h
    obtain ⟨token, htoken, hkind⟩ := Option.map_eq_some_iff.mp h
    exact kind_ne_suffix_of_mem_argumentTokens _ token (List.mem_of_getElem? htoken) hkind
  cases hformat : line.format with
  | none =>
      have htokens : line.tokens { showSuffix := true } =
          { kind := .instruction, text := line.mnemonic } :: argumentTokens line.arguments := by
        simp [tokens, suffixTokens, hformat]
      rw [htokens]
      cases k with
      | zero => simp
      | succ k => simpa using hargument k
  | some format =>
      have htokens : line.tokens { showSuffix := true } =
          { kind := .instruction, text := line.mnemonic } ::
            { kind := .suffix, text := format.suffix } :: argumentTokens line.arguments := by
        simp [tokens, suffixTokens, hformat]
      rw [htokens]
      cases k with
      | zero => simp
      | succ k =>
          cases k with
          | zero => simp
          | succ k => simpa using hargument k

end Line

namespace Instruction

/-- Whether the instruction has a format of its own among those that share its
mnemonic. -/
def hasFormat : Instruction → Bool
  | .movG .. | .movImm .. | .quick .. | .movS .. | .movZ .. | .pushS .. | .popS .. => true
  | .brk | .nop | .rts | .reit | .und | .wait | .exitd | .enter .. | .int .. | .fset ..
  | .fclr .. | .jmp .. | .jsr .. | .jcnd .. => false

theorem isSome_format_line (instruction : Instruction) :
    instruction.line.format.isSome = instruction.hasFormat := by
  cases instruction <;> rfl

end Instruction

namespace Row

/-- What hiding the suffix makes of a row. -/
structure HidesSuffix (shown hidden : Row) : Prop where
  address_eq : hidden.address = shown.address
  length_eq : hidden.length = shown.length
  bytes_eq : hidden.bytes = shown.bytes
  isInvalid_eq : hidden.isInvalid = shown.isInvalid
  text_of_invalid : shown.isInvalid = true → hidden.text = shown.text
  text_of_valid : shown.isInvalid = false → ∃ instruction,
    decode shown.bytes shown.address = .ok instruction ∧
    shown.text = Token.lineText (instruction.render { showSuffix := true }) ∧
    hidden.text = Token.lineText (withoutSuffix (instruction.render { showSuffix := true }))

/-- One step of the two sweeps. -/
theorem Describes.hidesSuffix {shown hidden : Row} {address : Address} {bytes : List UInt8}
    (hshown : shown.Describes { showSuffix := true } address bytes)
    (hhidden : hidden.Describes { showSuffix := false } address bytes) :
    HidesSuffix shown hidden := by
  have haddress := hhidden.address_eq.trans hshown.address_eq.symm
  have hshape := hshown.shape_eq hhidden
  simp only [shape, Prod.mk.injEq] at hshape
  obtain ⟨hlength, hbytes, hisInvalid⟩ := hshape
  refine ⟨haddress, hlength.symm, hbytes.symm, hisInvalid.symm, ?_, ?_⟩
  · intro hinvalid
    obtain ⟨_, byte, hbyte, htext⟩ := hshown.of_isInvalid hinvalid
    obtain ⟨_, other, hother, hhiddenText⟩ := hhidden.of_isInvalid (hisInvalid.symm.trans hinvalid)
    cases Option.some.inj (hbyte.symm.trans hother)
    exact hhiddenText.trans htext.symm
  · intro hvalid
    obtain ⟨instruction, hdecode⟩ := hshown.isInvalid_eq_false_iff.mp hvalid
    obtain ⟨_, hshownLength, htext⟩ := hshown.valid _ hdecode
    obtain ⟨_, _, hhiddenText⟩ := hhidden.valid _ hdecode
    -- The row's bytes are the instruction's, and decode to it without those behind them.
    have hrow := Instruction.decode_take_append hdecode (Nat.le_of_eq hshownLength.symm) []
    rw [List.append_nil, ← hshown.bytes_eq, ← hshown.address_eq] at hrow
    refine ⟨instruction, hrow, htext, ?_⟩
    rw [hhiddenText]
    exact congrArg Token.lineText (instruction.line.tokens_hidden _)

/-- All steps of the two sweeps: each pair of rows covers as many bytes, so that
the next pair stands at the same place again. -/
theorem Tiles.hidesSuffix {address : Address} {bytes : List UInt8} {shown hidden : List Row}
    (hshown : Tiles { showSuffix := true } address bytes shown)
    (hhidden : Tiles { showSuffix := false } address bytes hidden) :
    List.Forall₂ HidesSuffix shown hidden := by
  induction hshown generalizing hidden with
  | nil address =>
      rw [hhidden.eq_nil]
      exact .nil
  | cons first later ih =>
      obtain ⟨row, rows, rfl, hfirst, hlater⟩ := hhidden.exists_cons first.ne_nil
      have hrow := first.hidesSuffix hfirst
      rw [hrow.length_eq] at hlater
      exact .cons hrow (ih hlater)

/-- The suffix setting touches the suffix and nothing else. A line rendered with
the suffix hidden is the line rendered with it shown less the tokens of suffixes,
and holds none; shown, there is one, directly behind the mnemonic, for the
instructions that have a format and no others. The two sweeps of an image have
as many rows, and these differ only in texts, by that token. -/
theorem hidden_suffix_changes_nothing_else (instruction : Instruction) (image : List UInt8)
    (base : Address) :
    instruction.render { showSuffix := false } =
      withoutSuffix (instruction.render { showSuffix := true }) ∧
    (∀ token ∈ instruction.render { showSuffix := false }, token.kind ≠ .suffix) ∧
    (∀ k, (instruction.render { showSuffix := true })[k]?.map Token.kind = some .suffix ↔
      k = 1 ∧ instruction.hasFormat = true) ∧
    List.Forall₂ HidesSuffix (sweep image base { showSuffix := true }).result
      (sweep image base { showSuffix := false }).result := by
  refine ⟨instruction.line.tokens_hidden _, Line.kind_ne_suffix_of_mem_hidden, ?_, ?_⟩
  · intro k
    rw [← instruction.isSome_format_line]
    exact instruction.line.kind_getElem?_shown k
  · exact (tiles_sweep image base _).hidesSuffix (tiles_sweep image base _)

/-- `ADD` at the top of the address space, and a byte behind it that starts no
instruction. -/
theorem hidden_suffix_changes_nothing_else_wrapped :
    let shown := (sweep [0xC8, 0xF4, 0x01] 0xFFFFF { showSuffix := true }).result
    let hidden := (sweep [0xC8, 0xF4, 0x01] 0xFFFFF { showSuffix := false }).result
    let add : Instruction := .quick .add .byte (-1) (.address 0)
    let mnemonic : Token := { kind := .instruction, text := "ADD.B" }
    shown.map Row.text = ["ADD.B:Q #-1, A0", ".byte 0x01"] ∧
      hidden.map Row.text = ["ADD.B #-1, A0", ".byte 0x01"] ∧
      List.Forall₂ HidesSuffix shown hidden ∧
      (add.render { showSuffix := true })[1]?.map Token.kind = some .suffix ∧
      mnemonic ∈ add.render { showSuffix := false } ∧ mnemonic.kind ≠ .suffix := by
  intro shown hidden add mnemonic
  obtain ⟨_, hnone, hplace, hrows⟩ :=
    hidden_suffix_changes_nothing_else add [0xC8, 0xF4, 0x01] 0xFFFFF
  have hmnemonic : mnemonic ∈ add.render { showSuffix := false } := List.mem_cons_self
  exact ⟨by decide +kernel, by decide +kernel, hrows, (hplace 1).mpr ⟨rfl, rfl⟩, hmnemonic,
    hnone _ hmnemonic⟩

end Row

end M16C
