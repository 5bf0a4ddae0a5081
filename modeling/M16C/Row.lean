import M16C.Gateway

/-!
Rows of a disassembly. A row covers the bytes of one instruction, or a single
byte that starts none, so that a sweep over an image always moves on. Rows
follow each other without gap, and addresses count modulo the address space.
-/

namespace M16C

structure Row where
  address : Address
  length : Nat
  bytes : List UInt8
  text : String
  isInvalid : Bool
  deriving DecidableEq, Repr

namespace Row

/-- The row of a byte that starts no instruction. -/
def ofByte (byte : UInt8) (address : Address) : Row where
  address := address
  length := 1
  bytes := [byte]
  text := ".byte " ++ Hex.byte byte
  isInvalid := true

/-- The row at `address`, where `first` stands before `rest`. -/
def here (first : UInt8) (rest : List UInt8) (address : Address) (display : Display) :
    Logged Row :=
  let window := (first :: rest).take Instruction.maxLength
  (Gateway.text window address display).map fun
    | some (tokens, length) =>
        { address, length, bytes := window.take length, text := Token.lineText tokens,
          isInvalid := false }
    | none => ofByte first address

/-- The row at the front of `bytes`, if there are any. -/
def ofBytes? (bytes : List UInt8) (address : Address) (display : Display) :
    Logged (Option Row) :=
  match bytes with
  | [] => ⟨none, []⟩
  | first :: rest => (here first rest address display).map some

/-- The rows of `bytes`, of which the first `pending` belong to a row that is
already there. -/
def sweepFrom (display : Display) (pending : Nat) (address : Address) (bytes : List UInt8) :
    Logged (List Row) :=
  match bytes, pending with
  | [], _ => ⟨[], []⟩
  | _ :: rest, pending + 1 => sweepFrom display pending (Address.following address 1) rest
  | first :: rest, 0 =>
      let row := here first rest address display
      let later := sweepFrom display (row.result.length - 1) (Address.following address 1) rest
      ⟨row.result :: later.result, row.events ++ later.events⟩

@[simp] theorem sweepFrom_nil (display : Display) (pending : Nat) (address : Address) :
    sweepFrom display pending address [] = ⟨[], []⟩ := by
  cases pending <;> rfl

/-- The rows of an image loaded at `base`. -/
def sweep (image : List UInt8) (base : Address) (display : Display) : Logged (List Row) :=
  sweepFrom display 0 (Address.wrap base) image

end Row

end M16C
