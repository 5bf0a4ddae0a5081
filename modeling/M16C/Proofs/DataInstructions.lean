import M16C.Proofs.Sizing

/-!
What the lifted data instructions do. Moves of all five formats and the quick
sum and compare are lifted to one operation each, and carrying it out does to
the register file what the instruction is for: the destination shows the moved
value or the sum, the flags describe it at the size of the instruction, and the
rest of the file is as before. With an operand in memory the operation is not
carried out.
-/

namespace M16C

open Il

/-- Where the value of a move comes from. A number is taken modulo the size. -/
inductive MoveSource where
  | operand (operand : Operand)
  | number (value : Int)
  deriving DecidableEq, Repr

/-- What a move says in all its formats. -/
structure Move where
  size : Size
  source : MoveSource
  dest : Operand
  deriving DecidableEq, Repr

/-- The value that a move stores, if its source is not in memory. -/
def Move.value? (move : Move) (file : RegisterFile) : Option (BitVec (8 * move.size.bytes)) :=
  match move.source with
  | .operand operand => (operand.register? move.size).map fun register =>
      lowBytes move.size.bytes (file.read register)
  | .number value => some (BitVec.ofInt _ value)

theorem Move.value?_of_memory (move : Move) (file : RegisterFile) {src : Operand}
    (hsource : move.source = .operand src) (hmemory : src.register? move.size = none) :
    move.value? file = none := by
  simp only [value?, hsource, hmemory]
  rfl

namespace Instruction

/-- The move that an instruction is. -/
def move? : Instruction → Option Move
  | .movG size src dest => some ⟨size, .operand src, dest⟩
  | .movImm size imm dest => some ⟨size, .number imm.toNat, dest⟩
  | .quick .mov size imm dest => some ⟨size, .number imm.toInt, dest⟩
  | .movS imm dest => some ⟨.byte, .number imm.toNat, dest.general⟩
  | .movZ dest => some ⟨.byte, .number 0, dest.general⟩
  | _ => none

/-- A move is lifted to one assignment, of an expression that has the moved value
at the size of the move. -/
theorem lift_of_move? {instruction : Instruction} {move : Move}
    (h : instruction.move? = some move) (address : Address) :
    ∃ value, instruction.lift address = [move.dest.assign move.size value .sz] ∧
      value.flagSource.size = move.size.bytes ∧
      ∀ file : RegisterFile, file.evaluate value = (move.value? file).map widened := by
  cases instruction with
  | movG size src dest =>
      cases h
      refine ⟨src.value size, rfl, ?_, ?_⟩
      · rw [Operand.flagSource_value, (src.sized_value size).size_eq]
      · intro file
        rw [RegisterFile.evaluate_value, Move.value?, Option.map_map]
        rfl
  | movImm size imm dest =>
      cases h
      refine ⟨_, rfl, rfl, ?_⟩
      intro file
      rw [RegisterFile.evaluate_const size.bytes_le_four, Size.mask,
        lowBytes_and_byteMask size.bytes_le_four, lowBytes_eq_ofInt, UInt16.toNat_toUInt32]
      rfl
  | quick operation size imm dest =>
      cases operation with
      | mov =>
          cases h
          exact ⟨signedConst imm size, rfl, rfl, fun file => file.evaluate_signedConst imm size⟩
      | add => cases h
      | cmp => cases h
  | movS imm dest =>
      cases h
      refine ⟨_, rfl, rfl, ?_⟩
      intro file
      rw [RegisterFile.evaluate_const (by omega), lowBytes_eq_ofInt, UInt8.toNat_toUInt32]
      rfl
  | movZ dest =>
      cases h
      refine ⟨_, rfl, rfl, ?_⟩
      intro file
      rw [RegisterFile.evaluate_const (by omega), lowBytes_eq_ofInt]
      rfl
  | _ => cases h

end Instruction

namespace RegisterFile

/-- The flags after a move of `v`. -/
theorem flag_updateFlags_move {source : Expr} {size : Size} (hsize : source.size = size.bytes)
    (file : RegisterFile) (v : BitVec (8 * size.bytes)) :
    let after := file.updateFlags .sz source (widened v)
    (after.flag .z = true ↔ v = 0) ∧ after.flag .s = v.msb := by
  have hafter : file.updateFlags .sz source (widened v) =
      file.setZeroSign size.bytes (widened v &&& byteMask size.bytes) := by
    rw [updateFlags, hsize]
  intro after
  simp only [after, hafter]
  rw [zero_setZeroSign size.bytes_le_four, sign_setZeroSign size.one_le_bytes size.bytes_le_four,
    lowBytes_widened size.bytes_le_four]
  exact ⟨Iff.rfl, rfl⟩

/-- Moves do what they say. A move in any format is lifted to one operation. If
its operands are registers, the operation is carried out, the destination shows
the moved value, cut to the size of the move and extended with zeros, and zero
and sign describe it at that size; other storage and other flags keep their
contents. If an operand is in memory, nothing happens. -/
theorem apply_lift_move (file : RegisterFile) (instruction : Instruction) (move : Move)
    (hmove : instruction.move? = some move) (address : Address) :
    ∃ op, instruction.lift address = [op] ∧
      (∀ register v, move.dest.register? move.size = some register →
        move.value? file = some v →
        let after := (file.apply op).2
        (file.apply op).1 = true ∧
        (after.read register).toNat = v.toNat ∧
        (after.flag .z = true ↔ v = 0) ∧
        after.flag .s = v.msb ∧
        SameOutside register.view after file ∧
        ∀ flag, flag ≠ .z → flag ≠ .s → after.flag flag = file.flag flag) ∧
      (move.dest.register? move.size = none ∨
        (∃ src, move.source = .operand src ∧ src.register? move.size = none) →
        file.apply op = (false, file)) := by
  obtain ⟨value, hlift, hsize, hvalue⟩ := Instruction.lift_of_move? hmove address
  refine ⟨_, hlift, ?_, ?_⟩
  · intro register v hregister hv
    have hmoved : file.evaluate value = some (widened v) := by
      rw [hvalue, hv]
      rfl
    have happlied := apply_assign hregister hmoved .sz
    obtain ⟨hzero, hsign⟩ := flag_updateFlags_move hsize file v
    intro after
    simp only [after, happlied, flag_write]
    refine ⟨trivial, toNat_read_write hregister _ v, hzero, hsign,
      file.sameOutside_updateFlags_write .sz _ _ register, ?_⟩
    intro flag hz hs
    apply file.flag_updateFlags
    simp only [FlagWrite.flags, List.mem_cons, List.not_mem_nil, or_false, not_or]
    exact ⟨hs, hz⟩
  · rintro (hdest | ⟨src, hsource, hmemory⟩)
    · exact file.apply_assign_of_memory hdest value .sz
    · apply apply_assign_of_evaluate_eq_none
      rw [hvalue, move.value?_of_memory file hsource hmemory]
      rfl

/-- A byte moved from `R0L` to `A0`: the whole register shows it, and its sign is
that of the byte. A byte moved to memory changes nothing here. -/
theorem apply_lift_move_addressByte :
    let file : RegisterFile := { r2r0 := 0x80, a1a0 := 0xAAAABBBB }
    (∃ op, (Instruction.movG .byte (.data 0) (.address 0)).lift 0 = [op] ∧
      (file.apply op).1 = true ∧ ((file.apply op).2.read .a0).toNat = 0x80 ∧
      (file.apply op).2.flag .s = true ∧ SameOutside Register.a0.view (file.apply op).2 file) ∧
    ∃ op, (Instruction.movZ (.abs16 0x400)).lift 0 = [op] ∧ file.apply op = (false, file) := by
  intro file
  constructor
  · obtain ⟨op, hlift, hmoved, _⟩ := apply_lift_move file
      (.movG .byte (.data 0) (.address 0)) ⟨.byte, .operand (.data 0), .address 0⟩ rfl 0
    obtain ⟨happlied, hread, _, hsign, houtside, _⟩ := hmoved .a0 0x80 rfl (by decide)
    exact ⟨op, hlift, happlied, hread, hsign, houtside⟩
  · obtain ⟨op, hlift, _, hmemory⟩ := apply_lift_move file
      (.movZ (.abs16 0x400)) ⟨.byte, .number 0, .abs16 0x400⟩ rfl 0
    exact ⟨op, hlift, hmemory (.inl rfl)⟩

theorem applyAll_singleton (file : RegisterFile) (op : Op) :
    file.applyAll [op] = ([(file.apply op).1], (file.apply op).2) := rfl

section Quick

variable (file : RegisterFile) {size : Size} {dest : Operand} {register : Register}
  (hregister : dest.register? size = some register) (imm : Int8) (address : Address)
include hregister

/-- The quick sum in a register, as one write after its flags. -/
theorem applyAll_lift_add :
    let sum := widened (lowBytes size.bytes (file.read register) + BitVec.ofInt _ imm.toInt)
    file.applyAll ((Instruction.quick .add size imm dest).lift address) =
      ([true], (file.updateFlags .oszc
        (.add size.bytes (dest.value size) (signedConst imm size)) sum).write register sum) := by
  have hleft := file.evaluate_value_of_register? hregister
  have hsum := evaluate_widened .sum size.bytes_le_four hleft (file.evaluate_signedConst imm size)
  have happlied := apply_assign hregister hsum .oszc
  exact congrArg (fun result => ([result.1], result.2)) happlied

theorem applyAll_lift_cmp :
    file.applyAll ((Instruction.quick .cmp size imm dest).lift address) =
      ([true], file.updateFlags .oszc
        (.sub size.bytes (dest.value size) (signedConst imm size))
        (widened (lowBytes size.bytes (file.read register) - BitVec.ofInt _ imm.toInt))) := by
  have hleft := file.evaluate_value_of_register? hregister
  have hdifference := evaluate_widened .difference size.bytes_le_four hleft
    (file.evaluate_signedConst imm size)
  change file.evaluate (.sub size.bytes (dest.value size) (signedConst imm size)) = _ at hdifference
  simp only [Instruction.lift, applyAll_singleton, apply, hdifference]
  rfl

end Quick

/-- The quick sum and compare do what they say. With a register as the operand
both are carried out, on its low bytes and on the immediate, extended by its
sign and cut to the size. The sum fills the register and the compare leaves all
storage alone; the flags show the operation at its size, and those that steer
the processor are kept. With an operand in memory neither is carried out. -/
theorem applyAll_lift_quick (file : RegisterFile) (size : Size) (imm : Int8) (dest : Operand)
    (address : Address) :
    let added := file.applyAll ((Instruction.quick .add size imm dest).lift address)
    let compared := file.applyAll ((Instruction.quick .cmp size imm dest).lift address)
    (∀ register, dest.register? size = some register →
      let a := lowBytes size.bytes (file.read register)
      let b := BitVec.ofInt (8 * size.bytes) imm.toInt
      added.1 = [true] ∧
      (added.2.read register).toNat = (a.toNat + b.toNat) % 2 ^ (8 * size.bytes) ∧
      Arithmetic.sum.Shows a b added.2.flag ∧
      SameOutside register.view added.2 file ∧
      compared.1 = [true] ∧
      (∀ root, compared.2.slot root = file.slot root) ∧
      Arithmetic.difference.Shows a b compared.2.flag ∧
      ∀ flag ∈ [Flag.d, .b, .i, .u],
        added.2.flag flag = file.flag flag ∧ compared.2.flag flag = file.flag flag) ∧
    (dest.register? size = none → added = ([false], file) ∧ compared = ([false], file)) := by
  have hright := file.evaluate_signedConst imm size
  have hrightFlags := (sized_signedConst imm size).flags_eq_nil
  have hleftFlags := (dest.sized_value size).flags_eq_nil
  intro added compared
  constructor
  · intro register hregister a b
    have hleft := file.evaluate_value_of_register? hregister
    have hsum := shows_widened .sum size.one_le_bytes size.bytes_le_four hleft hright
      hleftFlags hrightFlags
    have hdifference := shows_widened .difference size.one_le_bytes size.bytes_le_four hleft hright
      hleftFlags hrightFlags
    have hadded := file.applyAll_lift_add hregister imm address
    have hcompared := file.applyAll_lift_cmp hregister imm address
    simp only [added, compared, hadded, hcompared, flags_write]
    refine ⟨trivial, ?_, hsum, ?_, trivial, ?_, hdifference, ?_⟩
    · rw [toNat_read_write hregister, BitVec.toNat_add]
    · exact file.sameOutside_updateFlags_write .oszc _ _ register
    · exact slot_updateFlags file .oszc _ _
    · intro flag hcontrol
      have hother := FlagWrite.not_mem_flags hcontrol .oszc
      exact ⟨file.flag_updateFlags _ _ hother, file.flag_updateFlags _ _ hother⟩
  · intro hmemory
    have hleft : file.evaluate (dest.value size) = none := by
      rw [evaluate_value, hmemory]
      rfl
    -- The sum would be stored, the difference has no value.
    constructor
    · simp only [added, Instruction.lift, applyAll_singleton, file.apply_assign_of_memory hmemory]
    · simp only [compared, Instruction.lift, applyAll_singleton, apply, evaluate, hleft]
      rfl

/-- One added to the low byte of `A0` when that is `0xFF`: the whole register is
cleared, although the byte above was not zero, and the sum carries. Added to the
byte that `A0` points to, it changes nothing here. -/
theorem applyAll_lift_quick_addressByte :
    let file : RegisterFile := { a1a0 := 0xAAAA12FF, flg := 0xD2 }
    let added := file.applyAll ((Instruction.quick .add .byte 1 (.address 0xFE)).lift 0)
    let stored := file.applyAll ((Instruction.quick .add .byte 1 (.indirect 0xFE)).lift 0)
    added.1 = [true] ∧ (added.2.read .a0).toNat = 0 ∧ added.2.flag .z = true ∧
      added.2.flag .c = true ∧ SameOutside Register.a0.view added.2 file ∧
      stored = ([false], file) := by
  intro file added stored
  obtain ⟨hregister, _⟩ := applyAll_lift_quick file .byte 1 (.address 0xFE) 0
  obtain ⟨happlied, hread, hshows, houtside, _⟩ := hregister .a0 rfl
  obtain ⟨_, hmemory⟩ := applyAll_lift_quick file .byte 1 (.indirect 0xFE) 0
  exact ⟨happlied, hread.trans (by decide), hshows.zero.mpr (by decide),
    hshows.carry.mpr (by decide), houtside, (hmemory rfl).1⟩

end RegisterFile

end M16C
