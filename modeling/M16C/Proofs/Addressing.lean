import M16C.Proofs.Operands
import M16C.Proofs.TokenGrammar

/-!
One address behind two forms of an operand. Lifting gives a memory operand as an
expression over sixteen bits, with a displacement from `FB` extended to as many;
rendering gives it as tokens, with the displacement as a number of 64 bits in
front of the name of the base register. Both are fixed by the base register and
one integer, the displacement read with or without a sign as the mode has it,
and an address is their sum modulo 2^16.
-/

namespace M16C

open Il

namespace Operand

/-- The displacement of a memory operand as a number. An absolute address is
displaced from nothing, and a plain indirection has none. -/
def displacement? : Operand → Option Int
  | .dsp8Address _ dsp | .dsp8Sb dsp => some dsp.toNat
  | .dsp16Address _ dsp | .dsp16Sb dsp => some dsp.toNat
  | .dsp8Fb dsp => some dsp.toInt
  | .abs16 place => some place.toNat
  | .data _ | .address _ | .indirect _ => none

/-- What the base register of an operand holds, or zero without one. -/
def origin (operand : Operand) (file : RegisterFile) : Nat :=
  operand.base?.elim 0 fun base => (file.read base).toNat

end Operand

/-- The base register in brackets. -/
def Token.bracketed : Option Register → List Token
  | none => []
  | some base =>
      [{ kind := .beginMemoryOperand, text := "[" }, { kind := .register, text := base.name },
       { kind := .endMemoryOperand, text := "]" }]

/-- The operand at a position in the operands of an instruction, with the size of
the operation. Immediates, flags and branch targets are not among them. -/
def Instruction.operandAt? (instruction : Instruction) (position : Nat) :
    Option (Operand × Size) :=
  match instruction, position with
  | .movG size src _, 0 => some (src, size)
  | .movG size _ dest, 1 => some (dest, size)
  | .movImm size _ dest, 1 | .quick _ size _ dest, 1 => some (dest, size)
  | .movS _ dest, 1 | .movZ dest, 1 => some (dest.general, .byte)
  | _, _ => none

theorem toNat_emod (word : UInt16) : (word.toNat : Int) = (word.toNat : Int) % 2 ^ 16 := by
  have hword := word.toNat_lt
  omega

theorem toNat_extended (byte : UInt8) :
    (byte.toUInt16.toNat : Int) = (byte.toNat : Int) % 2 ^ 16 := by
  rw [← UInt8.toNat_toUInt16, ← toNat_emod]

theorem toNat_signExtended (byte : Int8) :
    (byte.toInt16.toUInt16.toNat : Int) = byte.toInt % 2 ^ 16 := by
  have hbits : byte.toInt16.toUInt16.toNat = (BitVec.ofInt 16 byte.toInt).toNat := by
    rw [← UInt16.toNat_toBitVec, Int16.toBitVec_toUInt16, Int8.toBitVec_toInt16]
    rfl
  rw [hbits, BitVec.toNat_ofInt]
  omega

namespace RegisterFile

/-- A displacement counts modulo 2^16, and so does the sum. -/
theorem evaluate_based (file : RegisterFile) (base : Register) {dsp : UInt16} {d : Int}
    (hdsp : (dsp.toNat : Int) = d % 2 ^ 16) :
    ∃ address, file.evaluate (.based base dsp) = some address ∧
      (address.toNat : Int) = ((file.read base).toNat + d) % 2 ^ 16 := by
  refine ⟨_, rfl, ?_⟩
  rw [toNat_and_byteMask_of_le (by decide), UInt32.toNat_add,
    toNat_and_byteMask_of_le (by decide), UInt16.toNat_toUInt32]
  omega

/-- The address of a memory operand: base and displacement, in every mode. -/
theorem evaluate_place {operand : Operand} {size : Size} {place : Expr}
    (h : operand.location size = .memory place) (file : RegisterFile) :
    ∃ address, file.evaluate place = some address ∧
      (address.toNat : Int) =
        (operand.origin file + operand.displacement?.getD 0) % 2 ^ 16 := by
  cases operand with
  | data index | address index => cases h
  | indirect index =>
      cases h
      refine ⟨_, rfl, ?_⟩
      have hread := file.read_and_byteMask (addressRegister index)
      have hfits : (file.read (addressRegister index)).toNat % 2 ^ 16 =
          (file.read (addressRegister index)).toNat := by
        rw [width_addressRegister] at hread
        exact (toNat_and_byteMask_of_le (by decide) _).symm.trans (congrArg _ hread)
      simp only [Operand.origin, Operand.base?, Option.elim_some, Operand.displacement?,
        Option.getD_none]
      omega
  | dsp8Address index dsp | dsp8Sb dsp =>
      cases h
      exact file.evaluate_based _ (toNat_extended dsp)
  | dsp16Address index dsp | dsp16Sb dsp =>
      cases h
      exact file.evaluate_based _ (toNat_emod dsp)
  | dsp8Fb dsp =>
      cases h
      exact file.evaluate_based _ (toNat_signExtended dsp)
  | abs16 place =>
      cases h
      refine ⟨_, rfl, ?_⟩
      rw [toNat_and_byteMask_of_le (by decide), UInt16.toNat_toUInt32]
      simp only [Operand.origin, Operand.base?, Option.elim_none, Operand.displacement?,
        Option.getD_some]
      omega

end RegisterFile

/-- An operand is written at its place in the line, with the size of the operation. -/
theorem Instruction.arguments_of_operandAt? {instruction : Instruction} {position : Nat}
    {operand : Operand} {size : Size}
    (h : instruction.operandAt? position = some (operand, size)) :
    instruction.line.arguments[position]? = some (operand.argument size) := by
  unfold operandAt? at h
  split at h <;> cases h <;> rfl

namespace Operand

/-- A memory operand is written as its displacement, if it has one, and its base
register in brackets, if it has one. -/
theorem tokens_argument {operand : Operand} {size : Size}
    (hmemory : operand.register? size = none) :
    ∃ numbers, (operand.argument size).tokens = numbers ++ Token.bracketed operand.base? ∧
      (∀ token ∈ numbers, token.kind = .integer ∨ token.kind = .possibleAddress) ∧
      numbers.map (·.value) = operand.displacement?.toList.map fun d => some (tokenValue d) := by
  cases operand with
  | data index | address index => cases hmemory
  | indirect index => exact ⟨[], rfl, List.forall_mem_nil _, rfl⟩
  | abs16 place => exact ⟨[_], rfl, List.forall_mem_singleton.mpr (.inr rfl), rfl⟩
  | _ => exact ⟨[_], rfl, List.forall_mem_singleton.mpr (.inl rfl), rfl⟩

/-- A memory operand is lifted and rendered as the same address. The expression
that it is lifted to is worth the base register and the displacement together,
modulo 2^16, in every register file; and in the line of any instruction that has
the operand, its tokens are a number that carries the displacement in two's
complement, when there is one, and the name of the base register in brackets,
when there is one. -/
theorem place_agrees_with_tokens (operand : Operand) (size : Size)
    (hmemory : operand.register? size = none) :
    (∃ place, operand.location size = .memory place ∧ ∀ file : RegisterFile,
      ∃ address, file.evaluate place = some address ∧
        (address.toNat : Int) =
          (operand.origin file + operand.displacement?.getD 0) % 2 ^ 16) ∧
    ∀ (instruction : Instruction) (position : Nat) (display : Display),
      instruction.operandAt? position = some (operand, size) →
      ∃ numbers,
        (Token.operands (instruction.render display))[position]? =
          some (numbers ++ Token.bracketed operand.base?) ∧
        (∀ token ∈ numbers, token.kind = .integer ∨ token.kind = .possibleAddress) ∧
        (numbers.map fun token => token.value.map fun value => (value.toNat : Int)) =
          operand.displacement?.toList.map fun d => some (d % 2 ^ 64) := by
  constructor
  · obtain ⟨place, hplace⟩ := exists_location_of_register? hmemory
    exact ⟨place, hplace, fun file => file.evaluate_place hplace⟩
  · intro instruction position display hposition
    obtain ⟨numbers, htokens, hkinds, hvalues⟩ := tokens_argument hmemory
    refine ⟨numbers, ?_, hkinds, ?_⟩
    · rw [Instruction.render, Line.operands_tokens, List.getElem?_map,
        Instruction.arguments_of_operandAt? hposition, Option.map_some, htokens]
    · have hcarried := congrArg (List.map (Option.map fun value => (value.toNat : Int))) hvalues
      simpa only [List.map_map, Function.comp_def, Option.map_some, toNat_tokenValue] using hcarried

/-- The lowest displacement from `FB`, in front of which there are fewer bytes
than it counts back: the address wraps, and the token carries the displacement
with its sign. -/
theorem place_agrees_with_tokens_wrapped :
    let operand : Operand := .dsp8Fb (-128)
    operand.register? .word = none ∧
      (∃ place, operand.location .word = .memory place ∧
        ∃ address, RegisterFile.evaluate { fb := 0x10 } place = some address ∧
          address.toNat = 0xFF90) ∧
      ∃ numbers,
        (Token.operands ((Instruction.movG .word operand (.abs16 0x400)).render {}))[0]? =
          some (numbers ++ Token.bracketed (some .fb)) ∧
        (numbers.map fun token => token.value.map fun value => (value.toNat : Int)) =
          [some (2 ^ 64 - 128)] := by
  intro operand
  obtain ⟨⟨place, hplace, hvalue⟩, htokens⟩ := place_agrees_with_tokens operand .word rfl
  obtain ⟨address, haddress, hsum⟩ := hvalue { fb := 0x10 }
  obtain ⟨numbers, hnumbers, _, hvalues⟩ := htokens (.movG .word operand (.abs16 0x400)) 0 {} rfl
  have hnumber : address.toNat = 0xFF90 := Int.ofNat.inj (hsum.trans (by decide))
  exact ⟨rfl, ⟨place, hplace, address, haddress, hnumber⟩, numbers, hnumbers, hvalues⟩

end Operand

end M16C
