import M16C.Proofs.Canonical
import M16C.Proofs.LineReader

/-!
What the text of an instruction leaves open. A displacement is written as a
number, whatever the number of bytes that encode it, so `0x10[A0]` stands for two
operands. That is all that is lost: with the suffix shown, an instruction can be
read back from its text up to the width of its displacements, as long as the
register numbers fit their fields. Short formats have one width for every
displacement and are read back as they are.
-/

namespace M16C

namespace Operand

/-- The operand with its displacement in two bytes, where two widths are written
alike. From `FB` there is one width only. -/
def widened : Operand → Operand
  | .dsp8Address index dsp => .dsp16Address index dsp.toUInt16
  | .dsp8Sb dsp => .dsp16Sb dsp.toUInt16
  | other => other

theorem argument_widened (operand : Operand) (size : Size) :
    operand.widened.argument size = operand.argument size := by
  cases operand <;> simp [widened, argument]

end Operand

namespace Argument

/-- The operand that an argument names, with the wider of two displacements. -/
def operand? : Argument → Option Operand
  | .register .r0l | .register .r0 => some (.data 0)
  | .register .r0h | .register .r1 => some (.data 1)
  | .register .r1l | .register .r2 => some (.data 2)
  | .register .r1h | .register .r3 => some (.data 3)
  | .register .a0 => some (.address 0)
  | .register .a1 => some (.address 1)
  | .memory none .a0 => some (.indirect 0)
  | .memory none .a1 => some (.indirect 1)
  | .memory (some d) .a0 => some (.dsp16Address 0 (UInt16.ofNat d.toNat))
  | .memory (some d) .a1 => some (.dsp16Address 1 (UInt16.ofNat d.toNat))
  | .memory (some d) .sb => some (.dsp16Sb (UInt16.ofNat d.toNat))
  | .memory (some d) .fb => some (.dsp8Fb (Int8.ofInt d))
  | .absolute place => some (.abs16 place)
  | _ => none

/-- The operand of a short format that an argument names. -/
def short? : Argument → Option ShortOperand
  | .register .r0l => some .r0l
  | .register .r0h => some .r0h
  | .memory (some d) .sb => some (.dsp8Sb (UInt8.ofNat d.toNat))
  | .memory (some d) .fb => some (.dsp8Fb (Int8.ofInt d))
  | .absolute place => some (.abs16 place)
  | _ => none

def immediate? : Argument → Option UInt16
  | .immediate value => some value
  | _ => none

end Argument

namespace Operand

theorem immediate?_argument (operand : Operand) (size : Size) :
    (operand.argument size).immediate? = none := by
  cases operand <;> rfl

/-- An operand is read back from its argument, up to the width of the
displacement. -/
theorem operand?_argument {operand : Operand} (h : operand.Canonical) (size : Size) :
    (operand.argument size).operand? = some operand.widened := by
  have haddress {index : UInt8} (hindex : index < 2) : index = 0 ∨ index = 1 := by grind
  cases operand with
  | data index =>
      have hindex : index = 0 ∨ index = 1 ∨ index = 2 ∨ index = 3 := by
        have hbound : index < 4 := h
        grind
      rcases hindex with rfl | rfl | rfl | rfl <;> cases size <;> rfl
  | address index | indirect index => rcases haddress h with rfl | rfl <;> rfl
  | dsp8Address index dsp | dsp16Address index dsp =>
      rcases haddress h with rfl | rfl <;>
        simp [argument, addressRegister, Argument.operand?, widened]
  | dsp8Sb dsp | dsp16Sb dsp | dsp8Fb dsp => simp [argument, Argument.operand?, widened]
  | abs16 place => rfl

end Operand

/-- A short operand is read back as it is. -/
theorem ShortOperand.short?_argument (operand : ShortOperand) :
    (operand.general.argument .byte).short? = some operand := by
  cases operand <;> simp [general, Operand.argument, dataRegister, Argument.short?]

namespace Instruction

/-- Every operand has a register number that fits its field. Nothing is asked of
other fields. -/
def OperandsCanonical : Instruction → Prop
  | .movG _ src dest => src.Canonical ∧ dest.Canonical
  | .movImm _ _ dest | .quick _ _ _ dest => dest.Canonical
  | _ => True

/-- The instruction with the displacements of its general operands in two bytes,
where two widths are written alike. -/
def widened : Instruction → Instruction
  | .movG size src dest => .movG size src.widened dest.widened
  | .movImm size imm dest => .movImm size imm dest.widened
  | .quick operation size imm dest => .quick operation size imm dest.widened
  | other => other

theorem line_widened (instruction : Instruction) : instruction.widened.line = instruction.line := by
  cases instruction <;> simp [widened, line, Operand.argument_widened]

theorem unmarked_mnemonic (instruction : Instruction) :
    Unmarked instruction.line.mnemonic.toList := by
  cases instruction <;> dsimp only [line]
  case jmp distance target => cases distance <;> decide
  case jsr distance target => cases distance <;> decide
  case jcnd condition target => cases condition <;> decide
  case movG size src dest => cases size <;> decide
  case movImm size imm dest => cases size <;> decide
  case quick operation size imm dest => cases operation <;> cases size <;> decide
  all_goals decide

/-- The instructions with given arguments in a format; mnemonics tell them apart. -/
def candidates (format : Option Format) (arguments : List Argument) : List Instruction :=
  match format, arguments with
  | none, [] => [.brk, .nop, .rts, .reit, .und, .wait, .exitd]
  | none, [.immediate value] => [.enter value.toUInt8, .int value.toUInt8]
  | none, [.flag flag] => [.fset flag, .fclr flag]
  | none, [.target target] =>
      JumpDistance.all.map (Instruction.jmp · target) ++
        CallDistance.all.map (Instruction.jsr · target) ++
          BranchCondition.all.map (Instruction.jcnd · target)
  | some .generic, [src, dest] =>
      dest.operand?.toList.flatMap fun dest =>
        (src.operand?.toList.flatMap fun src => Size.all.map (Instruction.movG · src dest)) ++
          src.immediate?.toList.flatMap fun imm => Size.all.map (Instruction.movImm · imm dest)
  | some .quick, [.decimal imm, dest] =>
      dest.operand?.toList.flatMap fun dest =>
        QuickOperation.all.flatMap fun operation =>
          Size.all.map (Instruction.quick operation · imm dest)
  | some .short, [.immediate imm, dest] => dest.short?.toList.map (Instruction.movS imm.toUInt8)
  | some .zero, [_, dest] => dest.short?.toList.map Instruction.movZ
  | some .short, [argument] =>
      (ShortRegister.all.filter (argument == .register ·.register)).flatMap fun register =>
        [.pushS register, .popS register]
  | _, _ => []

/-- The instruction that a line stands for, with the wider of two displacements. -/
def ofLine? (line : Line) : Option Instruction :=
  (candidates line.format line.arguments).find? (·.line.mnemonic == line.mnemonic)

theorem ofLine?_line {instruction : Instruction} (h : instruction.OperandsCanonical) :
    ofLine? instruction.line = some instruction.widened := by
  cases instruction with
  | brk | nop | rts | reit | und | wait | exitd => rfl
  | enter frame => simp [ofLine?, line, candidates, widened]
  | int vector => simp [ofLine?, line, candidates, widened]
  | fset flag | fclr flag => rfl
  | jmp distance target => cases distance <;> rfl
  | jsr distance target => cases distance <;> rfl
  | jcnd condition target => cases condition <;> rfl
  | movG size src dest =>
      -- The mnemonic is that of a move of an immediate; the first argument is not.
      simp only [ofLine?, line, candidates, Operand.operand?_argument h.1,
        Operand.operand?_argument h.2, Operand.immediate?_argument, Option.toList_some,
        Option.toList_none, List.flatMap_singleton, List.flatMap_nil, List.append_nil]
      cases size <;> rfl
  | movImm size imm dest =>
      simp only [ofLine?, line, candidates, Operand.operand?_argument h, Option.toList_some,
        List.flatMap_singleton]
      cases size <;> rfl
  | quick operation size imm dest =>
      simp only [ofLine?, line, candidates, Operand.operand?_argument h, Option.toList_some,
        List.flatMap_singleton]
      cases operation <;> cases size <;> rfl
  | movS imm dest =>
      simp [ofLine?, line, candidates, ShortOperand.short?_argument, widened]
  | movZ dest => simp [ofLine?, line, candidates, ShortOperand.short?_argument, widened]
  | pushS register | popS register => cases register <;> rfl

/-- Two instructions have the same text with the suffix shown exactly when they
differ in nothing but the width of displacements that are written alike. -/
theorem text_eq_iff (first second : Instruction) (hfirst : first.OperandsCanonical)
    (hsecond : second.OperandsCanonical) :
    first.text { showSuffix := true } = second.text { showSuffix := true } ↔
      first.widened = second.widened := by
  constructor
  · intro htext
    have hline : some first.line = some second.line := by
      rw [← Line.ofChars?_lineText first.unmarked_mnemonic,
        ← Line.ofChars?_lineText second.unmarked_mnemonic]
      exact congrArg (fun text => Line.ofChars? text.toList) htext
    have hread := congrArg ofLine? (Option.some.inj hline)
    rw [ofLine?_line hfirst, ofLine?_line hsecond] at hread
    exact Option.some.inj hread
  · intro hwidened
    rw [text, text, render, render, ← line_widened first, ← line_widened second, hwidened]

/-- A displacement in one byte or in two gives one text, and a larger one gives
another. -/
theorem text_eq_iff_displacements :
    let narrow : Instruction := .movG .word (.dsp8Address 1 0x10) (.data 3)
    let wide : Instruction := .movG .word (.dsp16Address 1 0x10) (.data 3)
    let larger : Instruction := .movG .word (.dsp16Address 1 0x110) (.data 3)
    narrow.OperandsCanonical ∧ wide.OperandsCanonical ∧ larger.OperandsCanonical ∧
      narrow ≠ wide ∧ narrow.text { showSuffix := true } = wide.text { showSuffix := true } ∧
      wide.text { showSuffix := true } ≠ larger.text { showSuffix := true } := by
  intro narrow wide larger
  have hnarrow : narrow.OperandsCanonical := ⟨by decide, by decide⟩
  have hwide : wide.OperandsCanonical := ⟨by decide, by decide⟩
  have hlarger : larger.OperandsCanonical := ⟨by decide, by decide⟩
  refine ⟨hnarrow, hwide, hlarger, by decide, ?_, ?_⟩
  · exact (text_eq_iff narrow wide hnarrow hwide).mpr (by decide)
  · exact fun htext => absurd ((text_eq_iff wide larger hwide hlarger).mp htext) (by decide)

end Instruction

end M16C
