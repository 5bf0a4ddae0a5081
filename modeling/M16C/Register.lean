import M16C.Word

/-!
Register names and where they are stored. A register is a root with a word of
storage of its own, or a run of bytes inside another register: `R0` is the low
half of `R2R0`, and `R0H` the high byte of `R0`. `INTB` splits unevenly, into
two low bytes and one byte above them. Register banks and the second stack
pointer are not modelled; each name is one view that is always current.
-/

namespace M16C

inductive Register where
  | r2r0 | r2 | r0 | r0h | r0l
  | r3r1 | r3 | r1 | r1h | r1l
  | a1a0 | a1 | a0
  | fb | pc | sp | sb
  | intb | intbh | intbl
  deriving DecidableEq, Repr

/-- The registers that own storage. -/
inductive Root where
  | r2r0 | r3r1 | a1a0 | fb | pc | sp | sb | intb
  deriving DecidableEq, Repr

/-- A run of bytes in the storage of a root. -/
structure View where
  root : Root
  offset : Nat
  width : Nat
  deriving DecidableEq, Repr

/-- The bits of a word that lie in `width` bytes from byte `offset` on. -/
def spanMask (offset width : Nat) : UInt32 :=
  byteMask width <<< UInt32.ofNat (8 * offset)

def View.mask (view : View) : UInt32 := spanMask view.offset view.width

namespace Root

def all : List Root := [.r2r0, .r3r1, .a1a0, .fb, .pc, .sp, .sb, .intb]

def register : Root → Register
  | .r2r0 => .r2r0
  | .r3r1 => .r3r1
  | .a1a0 => .a1a0
  | .fb => .fb
  | .pc => .pc
  | .sp => .sp
  | .sb => .sb
  | .intb => .intb

end Root

namespace Register

def all : List Register :=
  [.r2r0, .r2, .r0, .r0h, .r0l, .r3r1, .r3, .r1, .r1h, .r1l,
   .a1a0, .a1, .a0, .fb, .pc, .sp, .sb, .intb, .intbh, .intbl]

def name : Register → String
  | .r2r0 => "R2R0" | .r2 => "R2" | .r0 => "R0" | .r0h => "R0H" | .r0l => "R0L"
  | .r3r1 => "R3R1" | .r3 => "R3" | .r1 => "R1" | .r1h => "R1H" | .r1l => "R1L"
  | .a1a0 => "A1A0" | .a1 => "A1" | .a0 => "A0"
  | .fb => "FB" | .pc => "PC" | .sp => "SP" | .sb => "SB"
  | .intb => "INTB" | .intbh => "INTBH" | .intbl => "INTBL"

/-- The register of that exact name. -/
def ofName? (name : String) : Option Register := all.find? (·.name == name)

/-- Place in the order in which registers are listed. -/
def ordinal (register : Register) : Nat := all.idxOf register

/-- Width in bytes. -/
def width : Register → Nat
  | .r2r0 | .r3r1 | .a1a0 | .intb => 4
  | .pc => 3
  | .r2 | .r0 | .r3 | .r1 | .a1 | .a0 | .fb | .sp | .sb | .intbl => 2
  | .r0h | .r0l | .r1h | .r1l | .intbh => 1

/-- The register that a register is a part of, and the byte at which it starts
there. -/
def parent? : Register → Option (Register × Nat)
  | .r2 => some (.r2r0, 2)
  | .r0 => some (.r2r0, 0)
  | .r0h => some (.r0, 1)
  | .r0l => some (.r0, 0)
  | .r3 => some (.r3r1, 2)
  | .r1 => some (.r3r1, 0)
  | .r1h => some (.r1, 1)
  | .r1l => some (.r1, 0)
  | .a1 => some (.a1a0, 2)
  | .a0 => some (.a1a0, 0)
  | .intbh => some (.intb, 2)
  | .intbl => some (.intb, 0)
  | .r2r0 | .r3r1 | .a1a0 | .fb | .pc | .sp | .sb | .intb => none

def root : Register → Root
  | .r2r0 | .r2 | .r0 | .r0h | .r0l => .r2r0
  | .r3r1 | .r3 | .r1 | .r1h | .r1l => .r3r1
  | .a1a0 | .a1 | .a0 => .a1a0
  | .fb => .fb
  | .pc => .pc
  | .sp => .sp
  | .sb => .sb
  | .intb | .intbh | .intbl => .intb

/-- First byte of the register in its root. -/
def offset : Register → Nat
  | .r2 | .r3 | .a1 | .intbh => 2
  | .r0h | .r1h => 1
  | .r2r0 | .r0 | .r0l | .r3r1 | .r1 | .r1l | .a1a0 | .a0
  | .fb | .pc | .sp | .sb | .intb | .intbl => 0

def view (register : Register) : View :=
  ⟨register.root, register.offset, register.width⟩

/-- A part lies in its parent's root, at its own offset past the parent's. -/
theorem view_of_parent? {register parent : Register} {offset : Nat}
    (h : register.parent? = some (parent, offset)) :
    register.root = parent.root ∧ register.offset = parent.offset + offset ∧
      offset + register.width ≤ parent.width := by
  cases register <;> cases h <;> decide

/-- A register that is part of no other is its own root. -/
theorem root_register_of_parent?_eq_none {register : Register}
    (h : register.parent? = none) :
    register.root.register = register ∧ register.offset = 0 := by
  cases register <;> cases h <;> exact ⟨rfl, rfl⟩

/-- Registers in listing order. -/
def sort (registers : List Register) : List Register :=
  registers.mergeSort fun a b => a.ordinal ≤ b.ordinal

end Register

end M16C
