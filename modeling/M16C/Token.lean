/-!
Tokens of a disassembled line. The text of the line is the texts of its tokens
one after the other; kinds let a host colour and link them, and numbers carry
their value, a negative one as its 64-bit two's complement.
-/

namespace M16C

inductive TokenKind where
  | instruction
  | suffix
  | text
  | operandSeparator
  | register
  | integer
  | possibleAddress
  | beginMemoryOperand
  | endMemoryOperand
  deriving DecidableEq, Repr

namespace TokenKind

def all : List TokenKind :=
  [.instruction, .suffix, .text, .operandSeparator, .register, .integer, .possibleAddress,
   .beginMemoryOperand, .endMemoryOperand]

def name : TokenKind → String
  | .instruction => "Instruction"
  | .suffix => "Suffix"
  | .text => "Text"
  | .operandSeparator => "OperandSeparator"
  | .register => "Register"
  | .integer => "Integer"
  | .possibleAddress => "PossibleAddress"
  | .beginMemoryOperand => "BeginMemoryOperand"
  | .endMemoryOperand => "EndMemoryOperand"

end TokenKind

structure Token where
  kind : TokenKind
  text : String
  value : Option UInt64 := none
  deriving DecidableEq, Repr

/-- The text of a line of tokens. -/
def Token.lineText (tokens : List Token) : String := String.join (tokens.map (·.text))

end M16C
