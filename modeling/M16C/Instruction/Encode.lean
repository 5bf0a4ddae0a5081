import M16C.Text.Hex
import M16C.Opcode

/-!
Encoding: the bytes of an instruction placed at an address. It fails when a
branch cannot reach its target with the distance it names, or an immediate
does not fit its field. Bits of register numbers that no field holds are
dropped, and a relative branch reaches its target modulo the address space.
-/

namespace M16C

/-- Why an instruction has no encoding at an address. -/
inductive EncodeError where
  | displacementOutOfRange (target address : Address)
  | immediateOutOfRange (value : Int) (bits : Nat)
  deriving DecidableEq, Repr

def EncodeError.message : EncodeError → String
  | .displacementOutOfRange target address =>
      "branch target " ++ Hex.address target ++ " out of range from " ++ Hex.address address
  | .immediateOutOfRange value bits =>
      "immediate " ++ toString value ++ " does not fit a " ++ toString bits ++ "-bit field"

namespace Instruction

/-- A displacement to `target` in one byte. -/
def encodeByteDistance (target address base : Address) : Except EncodeError (List UInt8) :=
  let distance := Address.displacement target address base
  if -128 ≤ distance ∧ distance < 128 then
    .ok [(Int8.ofInt distance).toUInt8]
  else
    .error (.displacementOutOfRange target address)

/-- A displacement to `target` in two bytes. -/
def encodeWordDistance (target address base : Address) : Except EncodeError (List UInt8) :=
  let distance := Address.displacement target address base
  if -32768 ≤ distance ∧ distance < 32768 then
    .ok (wordBytes (Int16.ofInt distance).toUInt16)
  else
    .error (.displacementOutOfRange target address)

/-- `target` itself in three bytes. -/
def encodeAbsolute (target address : Address) : Except EncodeError (List UInt8) :=
  if target ≤ Address.last then
    .ok (wordBytes target.toUInt16 ++ [(target / 65536).toUInt8])
  else
    .error (.displacementOutOfRange target address)

/-- The bytes of an instruction at `address`. -/
def encode (instruction : Instruction) (address : Address) : Except EncodeError (List UInt8) :=
  match instruction with
  | .brk => .ok [Opcode.brk.byte]
  | .nop => .ok [Opcode.nop.byte]
  | .rts => .ok [Opcode.rts.byte]
  | .reit => .ok [Opcode.reit.byte]
  | .und => .ok [Opcode.und.byte]
  | .wait => .ok [Opcode.controlPage.byte, 0xF3]
  | .exitd => .ok [Opcode.controlPage.byte, 0xF2]
  | .enter frame => .ok [Opcode.framePage.byte, 0xF2, frame]
  | .int vector =>
      if vector < 64 then
        .ok [Opcode.flagPage.byte, 0xC0 + vector]
      else
        .error (.immediateOutOfRange vector.toNat 6)
  | .fset flag => .ok [Opcode.flagPage.byte, 16 * flag.bit + 4]
  | .fclr flag => .ok [Opcode.flagPage.byte, 16 * flag.bit + 5]
  | .jmp .short target =>
      let distance := Address.displacement target address 2
      if 0 ≤ distance ∧ distance < 8 then
        .ok [(Opcode.jmpShort (Fin.ofNat 8 distance.toNat)).byte]
      else
        .error (.displacementOutOfRange target address)
  | .jmp .byte target => do
      return Opcode.jmpByte.byte :: (← encodeByteDistance target address 1)
  | .jmp .word target => do
      return Opcode.jmpWord.byte :: (← encodeWordDistance target address 1)
  | .jmp .absolute target => do
      return Opcode.jmpAbsolute.byte :: (← encodeAbsolute target address)
  | .jsr .word target => do
      return Opcode.jsrWord.byte :: (← encodeWordDistance target address 1)
  | .jsr .absolute target => do
      return Opcode.jsrAbsolute.byte :: (← encodeAbsolute target address)
  | .jcnd condition target =>
      if condition.isShort then do
        return (Opcode.branch condition).byte :: (← encodeByteDistance target address 1)
      else do
        return Opcode.controlPage.byte :: condition.pageByte ::
          (← encodeByteDistance target address 2)
  | .movG size src dest =>
      .ok ([(Opcode.movG size).byte, 16 * src.code + dest.code] ++ src.extension ++ dest.extension)
  | .movImm size imm dest => do
      let immBytes ← match size with
        | .byte =>
            if imm < 256 then .ok [imm.toUInt8]
            else .error (EncodeError.immediateOutOfRange imm.toNat 8)
        | .word => .ok (wordBytes imm)
      return [(Opcode.movImm size).byte, 0xC0 + dest.code] ++ dest.extension ++ immBytes
  | .quick operation size imm dest =>
      if -8 ≤ imm.toInt ∧ imm.toInt < 8 then
        .ok ([(Opcode.quick operation size).byte, 16 * imm.toUInt8 + dest.code] ++ dest.extension)
      else
        .error (.immediateOutOfRange imm.toInt 4)
  | .movS imm dest => .ok ([(Opcode.movS dest.mode).byte, imm] ++ dest.extension)
  | .movZ dest => .ok ((Opcode.movZ dest.mode).byte :: dest.extension)
  | .pushS register => .ok [(Opcode.push register).byte]
  | .popS register => .ok [(Opcode.pop register).byte]

end Instruction

end M16C
