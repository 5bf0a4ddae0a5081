import M16C.Instruction.Lift
import M16C.Proofs.Arithmetic
import M16C.Proofs.Effects

/-!
Operands in registers. The operand of an instruction is a register as wide as
the operation, or an address register, which is two bytes wide at either size.
Reading takes the low bytes and assigning fills the whole register, so in both
cases a value of the operation's size goes in and out unchanged. Operands in
memory have no value in a register file, and nothing is assigned to them there.
-/

namespace M16C

open Il

namespace Size

theorem one_le_bytes (size : Size) : 1 ≤ size.bytes := by
  cases size <;> simp [bytes]

theorem bytes_le_two (size : Size) : size.bytes ≤ 2 := by
  cases size <;> simp [bytes]

theorem bytes_le_four (size : Size) : size.bytes ≤ 4 := size.bytes_le_two.trans (by omega)

end Size

theorem width_dataRegister (index : UInt8) (size : Size) :
    (dataRegister index size).width = size.bytes := by
  cases size <;> rw [dataRegister] <;> split <;> rfl

theorem width_addressRegister (index : UInt8) : (addressRegister index).width = 2 := by
  rw [addressRegister]
  split <;> rfl

/-- A signed immediate keeps its value modulo every power of 256 that a word
holds. -/
theorem lowBytes_toInt32 {size : Nat} (h : size ≤ 4) (imm : Int8) :
    lowBytes size imm.toInt32.toUInt32 = BitVec.ofInt (8 * size) imm.toInt := by
  have hdvd : ((2 ^ (8 * size) : Nat) : Int) ∣ ((2 ^ 32 : Nat) : Int) :=
    Int.natCast_dvd_natCast.mpr (Nat.pow_dvd_pow 2 (by omega))
  have hword : imm.toInt32.toUInt32.toNat = (imm.toInt % ((2 ^ 32 : Nat) : Int)).toNat := by
    rw [← UInt32.toNat_toBitVec, Int32.toBitVec_toUInt32, Int8.toBitVec_toInt32,
      BitVec.signExtend, BitVec.toNat_ofInt]
    rfl
  apply BitVec.eq_of_toNat_eq
  rw [toNat_lowBytes, hword, BitVec.toNat_ofInt, ← Int.emod_emod_of_dvd _ hdvd,
    Int.toNat_emod (Int.emod_nonneg _ (by decide)) (Int.natCast_nonneg _), Int.toNat_natCast]

namespace Operand

variable {operand : Operand} {size : Size} {register : Register}

theorem location_of_register? (h : operand.register? size = some register) :
    operand.location size = .register register := by
  cases operand <;> cases h <;> rfl

theorem exists_location_of_register? (h : operand.register? size = none) :
    ∃ place, operand.location size = .memory place := by
  cases operand with
  | data index | address index => cases h
  | _ => exact ⟨_, rfl⟩

/-- A register that stands for an operand is not narrower than the operation. -/
theorem bytes_le_width (h : operand.register? size = some register) :
    size.bytes ≤ register.width := by
  cases operand <;> cases h
  case data index => rw [width_dataRegister]
  case address index =>
    rw [width_addressRegister]
    exact size.bytes_le_two

/-- One that is not wider either has the size of the operation. -/
theorem width_eq_bytes (h : operand.register? size = some register)
    (hwide : ¬ size.bytes < register.width) : register.width = size.bytes :=
  Nat.le_antisymm (Nat.le_of_not_lt hwide) (bytes_le_width h)

/-- The value of an operand is never extended, so flags follow it as it is. -/
theorem flagSource_value (operand : Operand) (size : Size) :
    (operand.value size).flagSource = operand.value size := by
  cases operand with
  | data index | address index =>
      simp only [value, location]
      split <;> rfl
  | _ => rfl

end Operand

namespace RegisterFile

variable {file : RegisterFile} {operand : Operand} {size : Size} {register : Register}

theorem evaluate_const {size : Nat} (h : size ≤ 4) (file : RegisterFile) (word : UInt32) :
    file.evaluate (.const size word) = some (widened (lowBytes size word)) := by
  rw [evaluate, widened_lowBytes h]

theorem evaluate_signedConst (file : RegisterFile) (imm : Int8) (size : Size) :
    file.evaluate (signedConst imm size) =
      some (widened (BitVec.ofInt (8 * size.bytes) imm.toInt)) := by
  rw [signedConst, evaluate_const size.bytes_le_four, Size.mask,
    lowBytes_and_byteMask size.bytes_le_four, lowBytes_toInt32 size.bytes_le_four]

/-- An operand has a value exactly when it is a register: its low bytes. -/
theorem evaluate_value (file : RegisterFile) (operand : Operand) (size : Size) :
    file.evaluate (operand.value size) = (operand.register? size).map fun register =>
      widened (lowBytes size.bytes (file.read register)) := by
  cases hregister : operand.register? size with
  | some register =>
      simp only [Operand.value, Operand.location_of_register? hregister, Option.map_some,
        widened_lowBytes size.bytes_le_four]
      split
      · rfl
      · next hwide =>
          rw [evaluate, ← Operand.width_eq_bytes hregister hwide, read_and_byteMask]
  | none =>
      obtain ⟨place, hplace⟩ := Operand.exists_location_of_register? hregister
      simp only [Operand.value, hplace]
      rfl

theorem evaluate_value_of_register? (file : RegisterFile)
    (hregister : operand.register? size = some register) :
    file.evaluate (operand.value size) =
      some (widened (lowBytes size.bytes (file.read register))) := by
  rw [evaluate_value, hregister]
  rfl

/-- Assigning to a register operand writes the register, and the flags follow
the value that is assigned. -/
theorem apply_assign (hregister : operand.register? size = some register) {value : Expr}
    {v : BitVec (8 * size.bytes)} (hvalue : file.evaluate value = some (widened v))
    (flags : FlagWrite) :
    file.apply (operand.assign size value flags) =
      (true, (file.updateFlags flags value.flagSource (widened v)).write register (widened v)) := by
  simp only [Operand.assign, Operand.location_of_register? hregister]
  split
  · next hnarrow =>
      -- An address register at byte size: the extension keeps the value, and the
      -- flags look through it.
      have hextended : file.evaluate (.zeroExtend register.width value) = some (widened v) := by
        rw [evaluate, hvalue]
        exact congrArg some (widened_and_byteMask size.bytes_le_four hnarrow.le v)
      simp only [apply, hextended, Expr.flagSource]
  · simp only [apply, hvalue]

theorem apply_assign_of_memory (file : RegisterFile) (hmemory : operand.register? size = none)
    (value : Expr) (flags : FlagWrite) :
    file.apply (operand.assign size value flags) = (false, file) := by
  obtain ⟨place, hplace⟩ := Operand.exists_location_of_register? hmemory
  simp only [Operand.assign, hplace, apply]

theorem apply_assign_of_evaluate_eq_none {value : Expr} (hvalue : file.evaluate value = none)
    (operand : Operand) (size : Size) (flags : FlagWrite) :
    file.apply (operand.assign size value flags) = (false, file) := by
  rw [Operand.assign]
  split
  · split <;> simp [apply, evaluate, hvalue]
  · rfl

/-- A register operand shows the value that was assigned to it, extended with
zeros to its width. -/
theorem toNat_read_write (hregister : operand.register? size = some register)
    (file : RegisterFile) (v : BitVec (8 * size.bytes)) :
    ((file.write register (widened v)).read register).toNat = v.toNat := by
  rw [read_write_self, widened_and_byteMask size.bytes_le_four (Operand.bytes_le_width hregister),
    toNat_widened size.bytes_le_four]

end RegisterFile

end M16C
