import M16C.Text.Hex
import M16C.Display
import M16C.Instruction
import M16C.Token

/-!
Instructions as lines of assembly. A line is a mnemonic, the format it is
encoded in when the mnemonic alone leaves that open, and arguments. Turning a
line into tokens is separate: it places blank and commas, and shows the format
or leaves it out.
-/

namespace M16C

/-- The instruction formats told apart by a suffix. -/
inductive Format where
  | generic | quick | short | zero
  deriving DecidableEq, Repr

def Format.suffix : Format → String
  | .generic => ":G"
  | .quick => ":Q"
  | .short => ":S"
  | .zero => ":Z"

/-- An argument of a line of assembly. -/
inductive Argument where
  | register (register : Register)
  | flag (flag : Flag)
  | immediate (value : UInt16)
  | decimal (value : Int8)
  | target (address : Address)
  | absolute (address : UInt16)
  | memory (displacement : Option Int) (base : Register)
  deriving DecidableEq, Repr

/-- A number in hexadecimal, a minus sign in front of a negative one. -/
def signedHex (n : Int) : String :=
  if n < 0 then "-" ++ Hex.plain n.natAbs else Hex.plain n.toNat

/-- The value of a token for a number. -/
def tokenValue (n : Int) : UInt64 := (Int64.ofInt n).toUInt64

namespace Argument

def tokens : Argument → List Token
  | .register r => [{ kind := .register, text := r.name }]
  | .flag f => [{ kind := .register, text := f.name }]
  | .immediate value =>
      [{ kind := .integer, text := "#" ++ Hex.plain value.toNat, value := tokenValue value.toNat }]
  | .decimal value =>
      [{ kind := .integer, text := "#" ++ toString value.toInt, value := tokenValue value.toInt }]
  | .target address =>
      [{ kind := .possibleAddress, text := Hex.address address, value := tokenValue address.toNat }]
  | .absolute address =>
      [{ kind := .possibleAddress, text := Hex.word address, value := tokenValue address.toNat }]
  | .memory displacement base =>
      (displacement.toList.map fun d =>
        { kind := .integer, text := signedHex d, value := tokenValue d }) ++
      [{ kind := .beginMemoryOperand, text := "[" },
       { kind := .register, text := base.name },
       { kind := .endMemoryOperand, text := "]" }]

end Argument

/-- A line of assembly. -/
structure Line where
  mnemonic : String
  format : Option Format := none
  arguments : List Argument := []
  deriving DecidableEq, Repr

namespace Line

/-- Arguments after a blank, with commas between. -/
def argumentTokens : List Argument → List Token
  | [] => []
  | first :: rest =>
      { kind := .text, text := " " } :: first.tokens ++
        rest.flatMap fun argument =>
          { kind := .operandSeparator, text := ", " } :: argument.tokens

/-- What holds of the blank, of the commas and of the tokens of arguments holds
of all tokens behind a mnemonic. -/
theorem forall_mem_argumentTokens {P : Token → Prop} (hblank : P { kind := .text, text := " " })
    (hcomma : P { kind := .operandSeparator, text := ", " })
    (hargument : ∀ argument : Argument, ∀ token ∈ argument.tokens, P token)
    (arguments : List Argument) : ∀ token ∈ argumentTokens arguments, P token := by
  cases arguments with
  | nil => exact List.forall_mem_nil _
  | cons first rest =>
      intro token htoken
      simp only [argumentTokens, List.cons_append, List.mem_cons, List.mem_append,
        List.mem_flatMap] at htoken
      rcases htoken with rfl | hfirst | ⟨argument, _, rfl | hlater⟩
      · exact hblank
      · exact hargument first token hfirst
      · exact hcomma
      · exact hargument argument token hlater

def suffixTokens (line : Line) (display : Display) : List Token :=
  match line.format with
  | some format =>
      if display.showSuffix then [{ kind := .suffix, text := format.suffix }] else []
  | none => []

def tokens (line : Line) (display : Display) : List Token :=
  { kind := .instruction, text := line.mnemonic } ::
    line.suffixTokens display ++ argumentTokens line.arguments

end Line

/-- How an operand of an operation of the given size is written. -/
def Operand.argument (operand : Operand) (size : Size) : Argument :=
  match operand with
  | .data index => .register (dataRegister index size)
  | .address index => .register (addressRegister index)
  | .indirect index => .memory none (addressRegister index)
  | .dsp8Address index dsp => .memory (some dsp.toNat) (addressRegister index)
  | .dsp8Sb dsp => .memory (some dsp.toNat) .sb
  | .dsp8Fb dsp => .memory (some dsp.toInt) .fb
  | .dsp16Address index dsp => .memory (some dsp.toNat) (addressRegister index)
  | .dsp16Sb dsp => .memory (some dsp.toNat) .sb
  | .abs16 place => .absolute place

namespace Instruction

/-- The instruction as a line of assembly. -/
def line : Instruction → Line
  | .brk => { mnemonic := "BRK" }
  | .nop => { mnemonic := "NOP" }
  | .rts => { mnemonic := "RTS" }
  | .reit => { mnemonic := "REIT" }
  | .und => { mnemonic := "UND" }
  | .wait => { mnemonic := "WAIT" }
  | .exitd => { mnemonic := "EXITD" }
  | .enter frame => { mnemonic := "ENTER", arguments := [.immediate frame.toUInt16] }
  | .int vector => { mnemonic := "INT", arguments := [.immediate vector.toUInt16] }
  | .fset flag => { mnemonic := "FSET", arguments := [.flag flag] }
  | .fclr flag => { mnemonic := "FCLR", arguments := [.flag flag] }
  | .jmp distance target =>
      { mnemonic := "JMP" ++ distance.specifier, arguments := [.target target] }
  | .jsr distance target =>
      { mnemonic := "JSR" ++ distance.specifier, arguments := [.target target] }
  | .jcnd condition target => { mnemonic := condition.mnemonic, arguments := [.target target] }
  | .movG size src dest =>
      { mnemonic := "MOV" ++ size.specifier, format := some .generic,
        arguments := [src.argument size, dest.argument size] }
  | .movImm size imm dest =>
      { mnemonic := "MOV" ++ size.specifier, format := some .generic,
        arguments := [.immediate imm, dest.argument size] }
  | .quick operation size imm dest =>
      { mnemonic := operation.mnemonic ++ size.specifier, format := some .quick,
        arguments := [.decimal imm, dest.argument size] }
  | .movS imm dest =>
      { mnemonic := "MOV.B", format := some .short,
        arguments := [.immediate imm.toUInt16, dest.general.argument .byte] }
  | .movZ dest =>
      { mnemonic := "MOV.B", format := some .zero,
        arguments := [.decimal 0, dest.general.argument .byte] }
  | .pushS register =>
      { mnemonic := "PUSH.B", format := some .short, arguments := [.register register.register] }
  | .popS register =>
      { mnemonic := "POP.B", format := some .short, arguments := [.register register.register] }

/-- The tokens of the instruction. -/
def render (instruction : Instruction) (display : Display) : List Token :=
  instruction.line.tokens display

/-- The text of the instruction. -/
def text (instruction : Instruction) (display : Display) : String :=
  Token.lineText (instruction.render display)

end Instruction

end M16C
