import M16C.Proofs.Address
import M16C.Instruction.Encode

/-!
Instructions up to what an encoding can hold. An operand field keeps two bits
of a data register's number and one of an address register's, and a relative
branch reaches its target modulo the address space; `normalized` drops what is
lost there. `Canonical` says which instructions have no such bits and no field
out of range. Encoding does not see the difference between an instruction and
its normalized form, whether it succeeds or not.
-/

namespace M16C

namespace Operand

/-- The register number fits its field. -/
def Canonical : Operand → Prop
  | .data index => index < 4
  | .address index | .indirect index | .dsp8Address index _ | .dsp16Address index _ => index < 2
  | .dsp8Sb _ | .dsp8Fb _ | .dsp16Sb _ | .abs16 _ => True

instance : DecidablePred Canonical
  | .data index => inferInstanceAs (Decidable (index < 4))
  | .address index | .indirect index | .dsp8Address index _ | .dsp16Address index _ =>
      inferInstanceAs (Decidable (index < 2))
  | .dsp8Sb _ | .dsp8Fb _ | .dsp16Sb _ | .abs16 _ => inferInstanceAs (Decidable True)

/-- The operand with the bits of its register number that a field holds. -/
def normalized : Operand → Operand
  | .data index => .data (index % 4)
  | .address index => .address (index % 2)
  | .indirect index => .indirect (index % 2)
  | .dsp8Address index dsp => .dsp8Address (index % 2) dsp
  | .dsp16Address index dsp => .dsp16Address (index % 2) dsp
  | .dsp8Sb dsp => .dsp8Sb dsp
  | .dsp8Fb dsp => .dsp8Fb dsp
  | .dsp16Sb dsp => .dsp16Sb dsp
  | .abs16 place => .abs16 place

@[simp] theorem code_normalized (operand : Operand) : operand.normalized.code = operand.code := by
  cases operand <;> simp only [normalized, code] <;> grind

@[simp] theorem extension_normalized (operand : Operand) :
    operand.normalized.extension = operand.extension := by
  cases operand <;> rfl

theorem code_lt (operand : Operand) : operand.code < 16 := by
  cases operand <;> simp only [code] <;> grind

theorem length_extension_le (operand : Operand) : operand.extension.length ≤ 2 := by
  cases operand <;> simp [extension, wordBytes]

end Operand

theorem ShortOperand.length_extension_le (operand : ShortOperand) :
    operand.extension.length ≤ 2 :=
  operand.general.length_extension_le

theorem bind_eq_ok {ε α β : Type} {action : Except ε α} {next : α → Except ε β} {b : β} :
    (action >>= next) = .ok b ↔ ∃ a, action = .ok a ∧ next a = .ok b := by
  cases action <;> simp [bind, Except.bind]

theorem bind_pure_eq_ok {ε α β : Type} {action : Except ε α} {f : α → β} {b : β} :
    (action >>= fun a => pure (f a)) = .ok b ↔ ∃ a, action = .ok a ∧ b = f a := by
  rw [bind_eq_ok]
  simp [pure, Except.pure, eq_comm]

namespace Instruction

/-- Every field is one that an encoding can hold. -/
def Canonical : Instruction → Prop
  | .int vector => vector ≤ 63
  | .jmp _ target | .jsr _ target | .jcnd _ target => target ≤ Address.last
  | .movG _ src dest => src.Canonical ∧ dest.Canonical
  | .movImm size imm dest => (size = .byte → imm ≤ 255) ∧ dest.Canonical
  | .quick _ _ imm dest => -8 ≤ imm.toInt ∧ imm.toInt ≤ 7 ∧ dest.Canonical
  | _ => True

/-- The instruction with the bits that its encoding holds: register numbers
are cut to their fields and the targets of relative branches to the address
space. Nothing else changes. -/
def normalized : Instruction → Instruction
  | .jmp .absolute target => .jmp .absolute target
  | .jmp distance target => .jmp distance (Address.wrap target)
  | .jsr .absolute target => .jsr .absolute target
  | .jsr .word target => .jsr .word (Address.wrap target)
  | .jcnd condition target => .jcnd condition (Address.wrap target)
  | .movG size src dest => .movG size src.normalized dest.normalized
  | .movImm size imm dest => .movImm size imm dest.normalized
  | .quick operation size imm dest => .quick operation size imm dest.normalized
  | other => other

theorem encodeByteDistance_eq_ok {target address base : Address} {code : List UInt8} :
    encodeByteDistance target address base = .ok code ↔
      ∃ distance : Int8, Address.displacement target address base = distance.toInt ∧
        code = [distance.toUInt8] := by
  unfold encodeByteDistance
  constructor
  · intro h
    dsimp only at h
    split at h
    · next hrange =>
        cases h
        refine ⟨Int8.ofInt (Address.displacement target address base), ?_, rfl⟩
        rw [Int8.toInt_ofInt_of_le (by omega) (by omega)]
    · cases h
  · rintro ⟨distance, hdistance, rfl⟩
    have hlow := distance.le_toInt
    have hhigh := distance.toInt_lt
    rw [hdistance]
    simp only [Int8.ofInt_toInt]
    rw [if_pos (by omega)]

theorem encodeWordDistance_eq_ok {target address base : Address} {code : List UInt8} :
    encodeWordDistance target address base = .ok code ↔
      ∃ distance : Int16, Address.displacement target address base = distance.toInt ∧
        code = wordBytes distance.toUInt16 := by
  unfold encodeWordDistance
  constructor
  · intro h
    dsimp only at h
    split at h
    · next hrange =>
        cases h
        refine ⟨Int16.ofInt (Address.displacement target address base), ?_, rfl⟩
        rw [Int16.toInt_ofInt_of_le (by omega) (by omega)]
    · cases h
  · rintro ⟨distance, hdistance, rfl⟩
    have hlow := distance.le_toInt
    have hhigh := distance.toInt_lt
    rw [hdistance]
    simp only [Int16.ofInt_toInt]
    rw [if_pos (by omega)]

theorem encodeByteDistance_wrap_eq_ok {target address base : Address} {code : List UInt8} :
    encodeByteDistance (Address.wrap target) address base = .ok code ↔
      encodeByteDistance target address base = .ok code := by
  rw [encodeByteDistance_eq_ok, encodeByteDistance_eq_ok, Address.displacement_wrap]

theorem encodeWordDistance_wrap_eq_ok {target address base : Address} {code : List UInt8} :
    encodeWordDistance (Address.wrap target) address base = .ok code ↔
      encodeWordDistance target address base = .ok code := by
  rw [encodeWordDistance_eq_ok, encodeWordDistance_eq_ok, Address.displacement_wrap]

theorem encodeAbsolute_eq_ok {target address : Address} {code : List UInt8} :
    encodeAbsolute target address = .ok code ↔
      target ≤ Address.last ∧ code = wordBytes target.toUInt16 ++ [(target / 65536).toUInt8] := by
  unfold encodeAbsolute
  split
  · next hreach =>
      constructor
      · intro h
        cases h
        exact ⟨hreach, rfl⟩
      · rintro ⟨_, rfl⟩
        rfl
  · next hfar =>
      constructor
      · intro h
        cases h
      · rintro ⟨hreach, _⟩
        exact absurd hreach hfar

/-- Normalizing changes neither whether an instruction encodes nor its
bytes. -/
theorem encode_normalized_eq_ok (instruction : Instruction) (address : Address)
    (code : List UInt8) :
    instruction.normalized.encode address = .ok code ↔
      instruction.encode address = .ok code := by
  cases instruction with
  | jmp distance target =>
      cases distance with
      | short => simp only [normalized, encode, Address.displacement_wrap]; split <;> simp
      | byte => simp only [normalized, encode, bind_eq_ok, encodeByteDistance_wrap_eq_ok]
      | word => simp only [normalized, encode, bind_eq_ok, encodeWordDistance_wrap_eq_ok]
      | absolute => rfl
  | jsr distance target =>
      cases distance with
      | word => simp only [normalized, encode, bind_eq_ok, encodeWordDistance_wrap_eq_ok]
      | absolute => rfl
  | jcnd condition target =>
      simp only [normalized, encode]
      split <;> simp only [bind_eq_ok, encodeByteDistance_wrap_eq_ok]
  | movG size src dest =>
      simp only [normalized, encode, Operand.code_normalized, Operand.extension_normalized]
  | movImm size imm dest =>
      simp only [normalized, encode, Operand.code_normalized, Operand.extension_normalized]
  | quick operation size imm dest =>
      simp only [normalized, encode, Operand.code_normalized, Operand.extension_normalized]
  | _ => rfl

theorem length_normalized (instruction : Instruction) :
    instruction.normalized.length = instruction.length := by
  cases instruction with
  | jmp distance target => cases distance <;> rfl
  | jsr distance target => cases distance <;> rfl
  | movG | movImm | quick => simp only [normalized, length, Operand.extension_normalized]
  | _ => rfl

/-- An instruction has at least its opcode, and at most two bytes and two
extensions of two bytes. -/
theorem length_bounds (instruction : Instruction) :
    1 ≤ instruction.length ∧ instruction.length ≤ 6 := by
  cases instruction with
  | jmp distance target => cases distance <;> simp [length]
  | jsr distance target => cases distance <;> simp [length]
  | jcnd condition target =>
      simp only [length]
      split <;> omega
  | movG size src dest =>
      have hsrc := src.length_extension_le
      have hdest := dest.length_extension_le
      simp only [length]
      omega
  | movImm size imm dest =>
      have hdest := dest.length_extension_le
      have hsize : size.bytes ≤ 2 := by cases size <;> decide
      simp only [length]
      omega
  | quick operation size imm dest =>
      have hdest := dest.length_extension_le
      simp only [length]
      omega
  | movS imm dest =>
      have hdest := dest.length_extension_le
      simp only [length]
      omega
  | movZ dest =>
      have hdest := dest.length_extension_le
      simp only [length]
      omega
  | _ => simp [length]

theorem length_encodeByteDistance {target address base : Address} {code : List UInt8}
    (h : encodeByteDistance target address base = .ok code) : code.length = 1 := by
  obtain ⟨distance, _, rfl⟩ := encodeByteDistance_eq_ok.mp h
  rfl

theorem length_encodeWordDistance {target address base : Address} {code : List UInt8}
    (h : encodeWordDistance target address base = .ok code) : code.length = 2 := by
  obtain ⟨distance, _, rfl⟩ := encodeWordDistance_eq_ok.mp h
  rfl

theorem length_encodeAbsolute {target address : Address} {code : List UInt8}
    (h : encodeAbsolute target address = .ok code) : code.length = 3 := by
  obtain ⟨_, rfl⟩ := encodeAbsolute_eq_ok.mp h
  rfl

/-- The length of an instruction is the number of bytes of its encoding,
wherever it is placed. -/
theorem length_of_encode_eq_ok {instruction : Instruction} {address : Address}
    {code : List UInt8} (h : instruction.encode address = .ok code) :
    code.length = instruction.length := by
  cases instruction with
  | int vector =>
      simp only [encode] at h
      split at h <;> cases h
      rfl
  | jmp distance target =>
      cases distance with
      | short =>
          simp only [encode] at h
          split at h <;> cases h
          rfl
      | byte =>
          obtain ⟨bytes, hbytes, rfl⟩ := bind_pure_eq_ok.mp h
          simp [length, length_encodeByteDistance hbytes]
      | word =>
          obtain ⟨bytes, hbytes, rfl⟩ := bind_pure_eq_ok.mp h
          simp [length, length_encodeWordDistance hbytes]
      | absolute =>
          obtain ⟨bytes, hbytes, rfl⟩ := bind_pure_eq_ok.mp h
          simp [length, length_encodeAbsolute hbytes]
  | jsr distance target =>
      cases distance with
      | word =>
          obtain ⟨bytes, hbytes, rfl⟩ := bind_pure_eq_ok.mp h
          simp [length, length_encodeWordDistance hbytes]
      | absolute =>
          obtain ⟨bytes, hbytes, rfl⟩ := bind_pure_eq_ok.mp h
          simp [length, length_encodeAbsolute hbytes]
  | jcnd condition target =>
      simp only [encode] at h
      split at h
      · next hshort =>
          obtain ⟨bytes, hbytes, rfl⟩ := bind_pure_eq_ok.mp h
          simp [length, hshort, length_encodeByteDistance hbytes]
      · next hlong =>
          obtain ⟨bytes, hbytes, rfl⟩ := bind_pure_eq_ok.mp h
          simp [length, hlong, length_encodeByteDistance hbytes]
  | movG size src dest =>
      cases h
      simp [length]
      omega
  | movImm size imm dest =>
      cases size with
      | byte =>
          simp only [encode] at h
          split at h <;> cases h
          simp [length, Size.bytes]
          omega
      | word =>
          cases h
          simp [length, Size.bytes, wordBytes]
          omega
  | quick operation size imm dest =>
      simp only [encode] at h
      split at h <;> cases h
      simp [length]
      omega
  | movS imm dest =>
      cases h
      simp [length]
      omega
  | movZ dest =>
      cases h
      simp [length]
      omega
  | _ => cases h; rfl

end Instruction

end M16C
