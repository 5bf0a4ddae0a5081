import M16C.Instruction

/-!
The first byte of an instruction, sorted by what it selects. Three opcodes
open a page: the byte after them selects further. The table is written once,
as the byte of each opcode; a byte is recognised by searching the table.
-/

namespace M16C

inductive Opcode where
  | brk | nop | rts | reit | und
  | jmpShort (distance : Fin 8)
  | jmpByte | jmpWord | jmpAbsolute
  | jsrWord | jsrAbsolute
  | branch (condition : BranchCondition)
  | framePage
  | controlPage
  | flagPage
  | push (register : ShortRegister)
  | pop (register : ShortRegister)
  | movG (size : Size)
  | movImm (size : Size)
  | quick (operation : QuickOperation) (size : Size)
  | movS (mode : ShortMode)
  | movZ (mode : ShortMode)
  deriving DecidableEq, Repr

namespace Opcode

def byte : Opcode → UInt8
  | .brk => 0x00
  | .nop => 0x04
  | .rts => 0xF3
  | .reit => 0xFB
  | .und => 0xFF
  | .jmpShort distance => 0x60 + UInt8.ofNat distance.val
  | .jmpByte => 0xFE
  | .jmpWord => 0xF4
  | .jmpAbsolute => 0xFC
  | .jsrWord => 0xF5
  | .jsrAbsolute => 0xFD
  | .branch condition => 0x68 + condition.code
  | .framePage => 0x7C
  | .controlPage => 0x7D
  | .flagPage => 0xEB
  | .push register => 0x82 + 8 * register.bit
  | .pop register => 0x92 + 8 * register.bit
  | .movG size => 0x72 + size.bit
  | .movImm size => 0x74 + size.bit
  | .quick operation size => (match operation with
      | .mov => 0xD8
      | .add => 0xC8
      | .cmp => 0xD0) + size.bit
  | .movS mode => 0xC0 + mode.code
  | .movZ mode => 0xB0 + mode.code

/-- Every opcode. A branch on a condition that is not short has none. -/
def all : List Opcode := List.flatten [
  [.brk, .nop, .rts, .reit, .und],
  (List.finRange 8).map .jmpShort,
  [.jmpByte, .jmpWord, .jmpAbsolute, .jsrWord, .jsrAbsolute],
  (BranchCondition.all.filter (·.isShort)).map .branch,
  [.framePage, .controlPage, .flagPage],
  ShortRegister.all.map .push,
  ShortRegister.all.map .pop,
  Size.all.map .movG,
  Size.all.map .movImm,
  QuickOperation.all.flatMap fun operation => Size.all.map (.quick operation),
  ShortMode.all.map .movS,
  ShortMode.all.map .movZ]

def ofByte? (byte : UInt8) : Option Opcode := all.find? (·.byte == byte)

theorem byte_eq_of_ofByte?_eq_some {byte : UInt8} {opcode : Opcode}
    (h : ofByte? byte = some opcode) : opcode.byte = byte := by
  simpa using List.find?_some h

/-- No two opcodes share a byte. -/
theorem ofByte?_byte {opcode : Opcode} (h : opcode ∈ all) : ofByte? opcode.byte = some opcode := by
  have table : ∀ entry ∈ all, ofByte? entry.byte = some entry := by decide +kernel
  exact table opcode h

end Opcode

namespace BranchCondition

/-- The byte that names a condition on the control page. -/
def pageByte (condition : BranchCondition) : UInt8 := 0xC0 + condition.code

/-- The condition a byte names on the control page, where only those without a
one-byte opcode stand. -/
def ofPageByte? (byte : UInt8) : Option BranchCondition :=
  (all.filter (!·.isShort)).find? (·.pageByte == byte)

end BranchCondition

end M16C
