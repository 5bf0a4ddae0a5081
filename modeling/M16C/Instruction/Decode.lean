import M16C.Text.Hex
import M16C.Opcode
import M16C.Reader

/-!
Decoding: the instruction at the front of a run of bytes. Bytes after the
instruction play no part. When there is none, either more bytes could still
complete one, or no continuation of these bytes could.
-/

namespace M16C

/-- Why bytes do not start with an instruction. -/
inductive DecodeError where
  | invalidOpcode (opcode : UInt8) (address : Address)
  | truncated (needed available : Nat)
  deriving DecidableEq, Repr

def DecodeError.message : DecodeError → String
  | .invalidOpcode opcode address =>
      "invalid opcode " ++ Hex.byte opcode ++ " at " ++ Hex.address address
  | .truncated needed available =>
      "instruction needs " ++ toString needed ++ " bytes but only " ++ toString available ++
        " are available"

/-- Runs a reader over a window of bytes at `address`. The position counts the
bytes taken so far, and taking one that is not there is the failure. A refusal
names the first byte of the window. -/
def Reader.scan {α : Type} (window : List UInt8) (address : Address) :
    Reader α → Nat → Except DecodeError (α × Nat)
  | .done value, position => .ok (value, position)
  | .refuse, _ => .error (.invalidOpcode (window.headD 0) address)
  | .take next, position =>
      match window[position]? with
      | some byte => (next byte).scan window address (position + 1)
      | none => .error (.truncated (position + 1) window.length)

/-- The general operand of a four-bit code, with the bytes that follow it. -/
def Operand.read (code : UInt8) : Reader Operand :=
  match code.toNat with
  | 0 | 1 | 2 | 3 => pure (.data code)
  | 4 | 5 => pure (.address (code - 4))
  | 6 | 7 => pure (.indirect (code - 6))
  | 8 | 9 => do return .dsp8Address (code - 8) (← Reader.byte)
  | 10 => do return .dsp8Sb (← Reader.byte)
  | 11 => do return .dsp8Fb (← Reader.signedByte)
  | 12 | 13 => do return .dsp16Address (code - 12) (← Reader.word)
  | 14 => do return .dsp16Sb (← Reader.word)
  | _ => do return .abs16 (← Reader.word)

def ShortOperand.read : ShortMode → Reader ShortOperand
  | .r0h => pure .r0h
  | .r0l => pure .r0l
  | .dsp8Sb => do return .dsp8Sb (← Reader.byte)
  | .dsp8Fb => do return .dsp8Fb (← Reader.signedByte)
  | .abs16 => do return .abs16 (← Reader.word)

/-- A four-bit field in two's complement. -/
def nibbleToInt8 (nibble : UInt8) : Int8 :=
  if nibble < 8 then nibble.toInt8 else nibble.toInt8 - 16

namespace Instruction

/-- An absolute target: three bytes of which the last has four bits. -/
def readAbsolute : Reader Address := do
  let low ← Reader.word
  let high ← Reader.byte
  if high < 16 then
    return UInt32.ofNat (low.toNat + 65536 * high.toNat)
  else
    Reader.refuse

/-- The rest of an instruction at `address` whose first byte is `opcode`. -/
def readAfter (address : Address) : Opcode → Reader Instruction
  | .brk => pure .brk
  | .nop => pure .nop
  | .rts => pure .rts
  | .reit => pure .reit
  | .und => pure .und
  | .jmpShort distance => pure (.jmp .short (Address.relative address 2 distance.val))
  | .jmpByte => do
      return .jmp .byte (Address.relative address 1 (← Reader.signedByte).toInt)
  | .jmpWord => do
      return .jmp .word (Address.relative address 1 (← Reader.signedWord).toInt)
  | .jmpAbsolute => do return .jmp .absolute (← readAbsolute)
  | .jsrWord => do
      return .jsr .word (Address.relative address 1 (← Reader.signedWord).toInt)
  | .jsrAbsolute => do return .jsr .absolute (← readAbsolute)
  | .branch condition => do
      return .jcnd condition (Address.relative address 1 (← Reader.signedByte).toInt)
  | .framePage => do
      if (← Reader.byte) = 0xF2 then
        return .enter (← Reader.byte)
      else
        Reader.refuse
  | .controlPage => do
      let second ← Reader.byte
      if second = 0xF3 then
        return .wait
      else if second = 0xF2 then
        return .exitd
      else
        match BranchCondition.ofPageByte? second with
        | some condition =>
            return .jcnd condition (Address.relative address 2 (← Reader.signedByte).toInt)
        | none => Reader.refuse
  | .flagPage => do
      let second ← Reader.byte
      if 0xC0 ≤ second then
        return .int (second - 0xC0)
      else
        match Flag.ofBit? (second / 16) with
        | some flag =>
            if second % 16 = 4 then
              return .fset flag
            else if second % 16 = 5 then
              return .fclr flag
            else
              Reader.refuse
        | none => Reader.refuse
  | .push register => pure (.pushS register)
  | .pop register => pure (.popS register)
  | .movG size => do
      let fields ← Reader.byte
      let src ← Operand.read (fields / 16)
      let dest ← Operand.read (fields % 16)
      return .movG size src dest
  | .movImm size => do
      let fields ← Reader.byte
      if fields / 16 = 12 then
        let dest ← Operand.read (fields % 16)
        match size with
        | .byte => return .movImm .byte (← Reader.byte).toUInt16 dest
        | .word => return .movImm .word (← Reader.word) dest
      else
        Reader.refuse
  | .quick operation size => do
      let fields ← Reader.byte
      let dest ← Operand.read (fields % 16)
      return .quick operation size (nibbleToInt8 (fields / 16)) dest
  | .movS mode => do
      let imm ← Reader.byte
      return .movS imm (← ShortOperand.read mode)
  | .movZ mode => do return .movZ (← ShortOperand.read mode)

/-- The instruction at `address` whose first byte is `first`. -/
def readFrom (address : Address) (first : UInt8) : Reader Instruction :=
  match Opcode.ofByte? first with
  | some opcode => readAfter address opcode
  | none => Reader.refuse

/-- The instruction at `address`, from its first byte on. -/
def read (address : Address) : Reader Instruction := do
  readFrom address (← Reader.byte)

/-- The instruction that `bytes`, found at `address`, start with. -/
def decode (bytes : List UInt8) (address : Address) : Except DecodeError Instruction := do
  let (instruction, _) ← (read address).scan bytes address 0
  return instruction

end Instruction

end M16C
