import M16C.Proofs.Canonical
import M16C.Proofs.Reader
import M16C.Instruction.Decode

/-!
The fields of an instruction: operands with their extensions, displacements,
absolute targets, four-bit immediates and the bytes of the pages. For each one
reading is the inverse of writing. What is read is always canonical, and what
is written is read back up to the bits that the field does not hold.
-/

namespace M16C

open Reader

namespace Operand

/-- A general operand that was read has the code it was asked for and is
written back as the bytes that were taken. -/
theorem of_run_read {code : UInt8} (hcode : code < 16) {input rest : List UInt8}
    {operand : Operand} (h : (read code).run input = .ok (operand, rest)) :
    operand.Canonical ∧ operand.code = code ∧ input = operand.extension ++ rest := by
  have hbound : code.toNat < 16 := UInt8.lt_iff_toNat_lt.mp hcode
  have hvalue : UInt8.ofNat code.toNat = code := UInt8.ofNat_toNat
  unfold read at h
  split at h
  all_goals
    simp only [run_bind_eq_ok, run_pure_eq_ok, run_byte_eq_ok, run_word_eq_ok,
      run_signedByte_eq_ok] at h
  -- Codes below eight name registers, alone or as addresses, and take no bytes.
  case h_1 heq | h_2 heq | h_3 heq | h_4 heq | h_5 heq | h_6 heq | h_7 heq | h_8 heq =>
    rw [heq] at hvalue
    subst hvalue
    obtain ⟨rfl, rfl⟩ := h
    exact ⟨by decide, rfl, rfl⟩
  case h_16 =>
    have heq : code.toNat = 15 := by grind
    rw [heq] at hvalue
    subst hvalue
    obtain ⟨place, middle, rfl, rfl, rfl⟩ := h
    exact ⟨trivial, rfl, rfl⟩
  all_goals
    rename_i heq
    rw [heq] at hvalue
    subst hvalue
    obtain ⟨dsp, middle, rfl, rfl, rfl⟩ := h
    exact ⟨by simp [Canonical], rfl, rfl⟩

theorem run_read_code (operand : Operand) (rest : List UInt8) :
    (read operand.code).run (operand.extension ++ rest) = .ok (operand.normalized, rest) := by
  have hfour : ∀ index : UInt8,
      index % 4 = 0 ∨ index % 4 = 1 ∨ index % 4 = 2 ∨ index % 4 = 3 := by grind
  have htwo : ∀ index : UInt8, index % 2 = 0 ∨ index % 2 = 1 := by grind
  cases operand with
  | data index =>
      simp only [code, extension, normalized]
      rcases hfour index with hindex | hindex | hindex | hindex <;> rw [hindex] <;> rfl
  | address index =>
      simp only [code, extension, normalized]
      rcases htwo index with hindex | hindex <;> rw [hindex] <;> rfl
  | indirect index =>
      simp only [code, extension, normalized]
      rcases htwo index with hindex | hindex <;> rw [hindex] <;> rfl
  | dsp8Address index dsp =>
      simp only [code, extension, normalized]
      rcases htwo index with hindex | hindex <;> rw [hindex] <;> rfl
  | dsp16Address index dsp =>
      simp only [code, extension, normalized]
      rcases htwo index with hindex | hindex <;> rw [hindex] <;>
        exact run_bind_of_ok _ (run_word dsp rest)
  | dsp8Sb dsp => rfl
  | dsp8Fb dsp => exact run_bind_of_ok _ (run_signedByte dsp rest)
  | dsp16Sb dsp => exact run_bind_of_ok _ (run_word dsp rest)
  | abs16 place => exact run_bind_of_ok _ (run_word place rest)

theorem resumable_read (code : UInt8) : (read code).Resumable := by
  unfold read
  split
  case h_1 | h_2 | h_3 | h_4 | h_5 | h_6 | h_7 | h_8 => exact .of_pure _
  case h_9 | h_10 | h_11 => exact Resumable.of_byte.bind_pure _
  case h_12 => exact Resumable.of_signedByte.bind_pure _
  all_goals exact Resumable.of_word.bind_pure _

theorem completable_read (code : UInt8) : Completable (read code) := by
  unfold read
  split
  case h_1 | h_2 | h_3 | h_4 | h_5 | h_6 | h_7 | h_8 => exact completable_pure _
  case h_9 | h_10 | h_11 => exact completable_bind_pure completable_byte _
  case h_12 => exact completable_bind_pure completable_signedByte _
  all_goals exact completable_bind_pure completable_word _

end Operand

namespace ShortOperand

theorem of_run_read {mode : ShortMode} {input rest : List UInt8} {operand : ShortOperand}
    (h : (read mode).run input = .ok (operand, rest)) :
    operand.mode = mode ∧ input = operand.extension ++ rest := by
  cases mode with
  | r0h =>
      obtain ⟨rfl, rfl⟩ := run_pure_eq_ok.mp h
      exact ⟨rfl, rfl⟩
  | r0l =>
      obtain ⟨rfl, rfl⟩ := run_pure_eq_ok.mp h
      exact ⟨rfl, rfl⟩
  | dsp8Sb =>
      obtain ⟨dsp, hdsp, rfl⟩ := run_bind_pure_eq_ok.mp h
      exact ⟨rfl, run_byte_eq_ok.mp hdsp⟩
  | dsp8Fb =>
      obtain ⟨dsp, hdsp, rfl⟩ := run_bind_pure_eq_ok.mp h
      exact ⟨rfl, run_signedByte_eq_ok.mp hdsp⟩
  | abs16 =>
      obtain ⟨place, hplace, rfl⟩ := run_bind_pure_eq_ok.mp h
      exact ⟨rfl, run_word_eq_ok.mp hplace⟩

theorem run_read_mode (operand : ShortOperand) (rest : List UInt8) :
    (read operand.mode).run (operand.extension ++ rest) = .ok (operand, rest) := by
  cases operand with
  | r0h => rfl
  | r0l => rfl
  | dsp8Sb dsp => rfl
  | dsp8Fb dsp => exact run_bind_of_ok _ (run_signedByte dsp rest)
  | abs16 place => exact run_bind_of_ok _ (run_word place rest)

theorem resumable_read (mode : ShortMode) : (read mode).Resumable := by
  cases mode with
  | r0h => exact .of_pure _
  | r0l => exact .of_pure _
  | dsp8Sb => exact Resumable.of_byte.bind_pure ShortOperand.dsp8Sb
  | dsp8Fb => exact Resumable.of_signedByte.bind_pure ShortOperand.dsp8Fb
  | abs16 => exact Resumable.of_word.bind_pure ShortOperand.abs16

theorem completable_read (mode : ShortMode) : Completable (read mode) := by
  cases mode with
  | r0h => exact completable_pure _
  | r0l => exact completable_pure _
  | dsp8Sb => exact completable_bind_pure completable_byte ShortOperand.dsp8Sb
  | dsp8Fb => exact completable_bind_pure completable_signedByte ShortOperand.dsp8Fb
  | abs16 => exact completable_bind_pure completable_word ShortOperand.abs16

end ShortOperand

/-- A four-bit field and its value: the value is in range, and shifted back it
fills the field again. -/
theorem nibbleToInt8_bounds (nibble : UInt8) (h : nibble < 16) :
    -8 ≤ (nibbleToInt8 nibble).toInt ∧ (nibbleToInt8 nibble).toInt < 8 ∧
      16 * (nibbleToInt8 nibble).toUInt8 = 16 * nibble := by
  have table : ∀ bits : BitVec 8, (⟨bits⟩ : UInt8) < 16 →
      -8 ≤ (nibbleToInt8 ⟨bits⟩).toInt ∧ (nibbleToInt8 ⟨bits⟩).toInt < 8 ∧
        16 * (nibbleToInt8 ⟨bits⟩).toUInt8 = 16 * ⟨bits⟩ := by decide +kernel
  exact table nibble.toBitVec h

theorem nibbleToInt8_mod (imm : Int8) (hlow : -8 ≤ imm.toInt) (hhigh : imm.toInt < 8) :
    nibbleToInt8 (imm.toUInt8 % 16) = imm := by
  have table : ∀ bits : BitVec 8, -8 ≤ (⟨⟨bits⟩⟩ : Int8).toInt → (⟨⟨bits⟩⟩ : Int8).toInt < 8 →
      nibbleToInt8 ((⟨⟨bits⟩⟩ : Int8).toUInt8 % 16) = ⟨⟨bits⟩⟩ := by decide +kernel
  exact table imm.toBitVec hlow hhigh

theorem Flag.bit_of_ofBit? {bits : UInt8} {flag : Flag} (h : ofBit? bits = some flag) :
    flag.bit = bits := by
  simpa using List.find?_some h

namespace BranchCondition

theorem ofPageByte?_pageByte {condition : BranchCondition} (h : condition.isShort = false) :
    ofPageByte? condition.pageByte = some condition := by
  revert h
  cases condition <;> decide

theorem of_ofPageByte? {byte : UInt8} {condition : BranchCondition}
    (h : ofPageByte? byte = some condition) :
    condition.pageByte = byte ∧ condition.isShort = false := by
  have hmember := List.mem_of_find?_eq_some h
  have hbyte := List.find?_some h
  simp only [List.mem_filter, Bool.not_eq_true'] at hmember
  exact ⟨by simpa using hbyte, hmember.2⟩

end BranchCondition

namespace Instruction

theorem encodeByteDistance_relative (address base : Address) (distance : Int8) :
    encodeByteDistance (Address.relative address base distance.toInt) address base =
      .ok [distance.toUInt8] := by
  have hlow := distance.le_toInt
  have hhigh := distance.toInt_lt
  apply encodeByteDistance_eq_ok.mpr
  exact ⟨distance, Address.displacement_relative address base _ (by omega) (by omega), rfl⟩

theorem encodeWordDistance_relative (address base : Address) (distance : Int16) :
    encodeWordDistance (Address.relative address base distance.toInt) address base =
      .ok (wordBytes distance.toUInt16) := by
  have hlow := distance.le_toInt
  have hhigh := distance.toInt_lt
  apply encodeWordDistance_eq_ok.mpr
  exact ⟨distance, Address.displacement_relative address base _ (by omega) (by omega), rfl⟩

/-- The value of an absolute target from its word and its last byte. -/
theorem toNat_absolute (low : UInt16) (high : UInt8) :
    (UInt32.ofNat (low.toNat + 65536 * high.toNat)).toNat = low.toNat + 65536 * high.toNat := by
  have hlow := low.toNat_lt
  have hhigh := high.toNat_lt
  rw [UInt32.toNat_ofNat']
  omega

theorem toNat_div_toUInt8 (target : Address) :
    (target / 65536).toUInt8.toNat = target.toNat / 65536 % 256 := by
  rw [UInt32.toNat_toUInt8, UInt32.toNat_div]
  rfl

theorem run_readAbsolute_eq_ok {input rest : List UInt8} {target : Address} :
    readAbsolute.run input = .ok (target, rest) ↔
      target ≤ Address.last ∧
        input = wordBytes target.toUInt16 ++ [(target / 65536).toUInt8] ++ rest := by
  unfold readAbsolute
  simp only [run_bind_eq_ok, run_word_eq_ok, run_byte_eq_ok, Address.le_last_iff]
  constructor
  · rintro ⟨low, _, rfl, high, middle, rfl, hrun⟩
    split at hrun
    · next hhigh =>
        obtain ⟨rfl, rfl⟩ := run_pure_eq_ok.mp hrun
        have hlow := low.toNat_lt
        have hbound : high.toNat < 16 := UInt8.lt_iff_toNat_lt.mp hhigh
        have hvalue := toNat_absolute low high
        have hword : (UInt32.ofNat (low.toNat + 65536 * high.toNat)).toUInt16 = low := by
          apply UInt16.toNat.inj
          rw [UInt32.toNat_toUInt16, hvalue]
          omega
        have hbyte : (UInt32.ofNat (low.toNat + 65536 * high.toNat) / 65536).toUInt8 = high := by
          apply UInt8.toNat.inj
          rw [toNat_div_toUInt8, hvalue]
          omega
        rw [hword, hbyte, hvalue, List.append_assoc]
        refine ⟨?_, rfl⟩
        unfold Address.space
        omega
    · cases hrun
  · rintro ⟨htarget, rfl⟩
    unfold Address.space at htarget
    have hbyte := toNat_div_toUInt8 target
    refine ⟨_, _, List.append_assoc _ _ _, _, _, rfl, ?_⟩
    have hhigh : (target / 65536).toUInt8 < 16 := by
      rw [UInt8.lt_iff_toNat_lt, hbyte]
      change target.toNat / 65536 % 256 < 16
      omega
    rw [if_pos hhigh, run_pure_eq_ok]
    refine ⟨?_, rfl⟩
    apply UInt32.toNat.inj
    rw [toNat_absolute, hbyte, UInt32.toNat_toUInt16]
    omega

/-- The reader and the writer of a target are inverse to each other: what is
read leads into the space and is written as the bytes taken, and each target in
the space is read from the bytes written for it. -/
def ReadsTarget {α : Type} (reader : Reader α) (target : α → Address)
    (field : Address → Except EncodeError (List UInt8)) : Prop :=
  ∀ (place : Address) (input rest : List UInt8),
    (∃ a, reader.run input = .ok (a, rest) ∧ target a = place) ↔
      place ≤ Address.last ∧ ∃ code, field place = .ok code ∧ input = code ++ rest

theorem readsTarget_byteDistance (address base : Address) :
    ReadsTarget signedByte (fun distance => Address.relative address base distance.toInt)
      (fun target => encodeByteDistance target address base) := by
  intro place input rest
  constructor
  · rintro ⟨distance, hrun, rfl⟩
    exact ⟨Address.relative_le_last _ _ _, _, encodeByteDistance_relative address base distance,
      run_signedByte_eq_ok.mp hrun⟩
  · rintro ⟨hplace, code, hcode, rfl⟩
    obtain ⟨distance, hdistance, rfl⟩ := encodeByteDistance_eq_ok.mp hcode
    refine ⟨distance, run_signedByte distance rest, ?_⟩
    dsimp only
    rw [← hdistance, Address.relative_displacement, Address.wrap_of_le_last hplace]

theorem readsTarget_wordDistance (address base : Address) :
    ReadsTarget signedWord (fun distance => Address.relative address base distance.toInt)
      (fun target => encodeWordDistance target address base) := by
  intro place input rest
  constructor
  · rintro ⟨distance, hrun, rfl⟩
    exact ⟨Address.relative_le_last _ _ _, _, encodeWordDistance_relative address base distance,
      run_signedWord_eq_ok.mp hrun⟩
  · rintro ⟨hplace, code, hcode, rfl⟩
    obtain ⟨distance, hdistance, rfl⟩ := encodeWordDistance_eq_ok.mp hcode
    refine ⟨distance, run_signedWord distance rest, ?_⟩
    dsimp only
    rw [← hdistance, Address.relative_displacement, Address.wrap_of_le_last hplace]

theorem readsTarget_absolute (address : Address) :
    ReadsTarget readAbsolute id (fun target => encodeAbsolute target address) := by
  intro place input rest
  constructor
  · rintro ⟨target, hrun, rfl⟩
    obtain ⟨hreach, hinput⟩ := run_readAbsolute_eq_ok.mp hrun
    exact ⟨hreach, _, encodeAbsolute_eq_ok.mpr ⟨hreach, rfl⟩, hinput⟩
  · rintro ⟨hplace, code, hcode, rfl⟩
    obtain ⟨_, rfl⟩ := encodeAbsolute_eq_ok.mp hcode
    exact ⟨place, run_readAbsolute_eq_ok.mpr ⟨hplace, rfl⟩, rfl⟩

theorem resumable_readAbsolute : readAbsolute.Resumable := by
  apply Resumable.of_word.bind
  · intro low
    refine Resumable.byte_bind ?_ 0 (completable_pure _)
    intro high
    split
    · exact .of_pure _
    · exact .of_refuse
  · intro low
    exact completable_byte_bind 0 (completable_pure _)

end Instruction

end M16C
