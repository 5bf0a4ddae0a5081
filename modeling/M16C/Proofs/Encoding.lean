import M16C.Proofs.Decoding

/-!
What encoding writes. The bytes of an encoding, whatever follows them, are read
back as the normalized instruction. The argument goes by the instruction, with
one lemma for each format, and mirrors the one for what is read.
-/

namespace M16C

open Reader

/-- Every opcode is in the table, except a branch on a condition that needs
the control page. -/
theorem Opcode.mem_all (opcode : Opcode)
    (h : ∀ condition, opcode = .branch condition → condition.isShort) : opcode ∈ all := by
  cases opcode with
  | branch condition =>
      have hshort := h condition rfl
      clear h
      revert hshort
      cases condition <;> decide
  | jmpShort distance =>
      clear h
      revert distance
      decide
  | push register => cases register <;> decide
  | pop register => cases register <;> decide
  | movG size => cases size <;> decide
  | movImm size => cases size <;> decide
  | quick operation size => cases operation <;> cases size <;> decide
  | movS mode => cases mode <;> decide
  | movZ mode => cases mode <;> decide
  | _ => decide

namespace Instruction

theorem run_read_byte {opcode : Opcode} (h : opcode ∈ Opcode.all) (address : Address)
    (input : List UInt8) :
    (read address).run (opcode.byte :: input) = (readAfter address opcode).run input := by
  have hfirst : byte.run (opcode.byte :: input) = .ok (opcode.byte, input) := rfl
  unfold read
  rw [run_bind_of_ok _ hfirst, readFrom, Opcode.ofByte?_byte h]

theorem run_read_target (opcode : Opcode) (build : Address → Instruction)
    (hopcode : opcode ∈ Opcode.all) {α : Type} {reader : Reader α} {target : α → Address}
    {field : Address → Except EncodeError (List UInt8)} (hfield : ReadsTarget reader target field)
    {place address : Address} {code : List UInt8}
    (hreader : readAfter address opcode = do return build (target (← reader)))
    (hplace : place ≤ Address.last) (hcode : field place = .ok code) (rest : List UInt8) :
    (read address).run (opcode.byte :: code ++ rest) = .ok (build place, rest) := by
  obtain ⟨a, hrun, rfl⟩ := (hfield place _ rest).mpr ⟨hplace, code, hcode, rfl⟩
  rw [List.cons_append, run_read_byte hopcode, hreader]
  exact run_bind_of_ok _ hrun

theorem run_read_jmpShort {target address : Address} {code : List UInt8}
    (h : (jmp .short target).encode address = .ok code) (rest : List UInt8) :
    (read address).run (code ++ rest) = .ok (jmp .short (Address.wrap target), rest) := by
  simp only [encode] at h
  split at h
  · next hrange =>
      cases h
      have hdistance :
          ((Fin.ofNat 8 (Address.displacement target address 2).toNat).val : Int) =
            Address.displacement target address 2 := by
        simp only [Fin.ofNat]
        omega
      rw [List.cons_append, run_read_byte (Opcode.mem_all _ (by simp))]
      simp only [readAfter, hdistance, Address.relative_displacement]
      rfl
  · cases h

theorem run_read_branch {condition : BranchCondition} {target address : Address}
    {code : List UInt8} (h : (jcnd condition target).encode address = .ok code)
    (rest : List UInt8) :
    (read address).run (code ++ rest) = .ok (jcnd condition (Address.wrap target), rest) := by
  simp only [encode] at h
  split at h
  · next hshort =>
      obtain ⟨bytes, hbytes, rfl⟩ := bind_pure_eq_ok.mp h
      have hmember : Opcode.branch condition ∈ Opcode.all := by
        apply Opcode.mem_all
        rintro _ ⟨⟩
        exact hshort
      exact run_read_target (.branch condition) (jcnd condition) hmember
        (readsTarget_byteDistance address 1) rfl (Address.wrap_le_last target)
        (encodeByteDistance_wrap_eq_ok.mpr hbytes) rest
  · next hlong =>
      obtain ⟨bytes, hbytes, rfl⟩ := bind_pure_eq_ok.mp h
      obtain ⟨distance, hdistance, rfl⟩ := encodeByteDistance_eq_ok.mp hbytes
      have hpage := BranchCondition.ofPageByte?_pageByte (Bool.not_eq_true _ ▸ hlong)
      have hwait : condition.pageByte ≠ 0xF3 := by cases condition <;> decide
      have hexit : condition.pageByte ≠ 0xF2 := by cases condition <;> decide
      rw [List.cons_append, run_read_byte (by decide)]
      apply (run_bind_of_ok _ rfl).trans
      rw [if_neg hwait, if_neg hexit, hpage]
      apply (run_bind_of_ok _ (run_signedByte distance rest)).trans
      rw [← hdistance, Address.relative_displacement]
      rfl

theorem run_read_int {vector : UInt8} {address : Address} {code : List UInt8}
    (h : (int vector).encode address = .ok code) (rest : List UInt8) :
    (read address).run (code ++ rest) = .ok (int vector, rest) := by
  simp only [encode] at h
  split at h
  · next hvector =>
      cases h
      have hhigh : 0xC0 ≤ 0xC0 + vector := by grind
      have hlow : 0xC0 + vector - 0xC0 = vector := by grind
      rw [List.cons_append, run_read_byte (by decide)]
      apply (run_bind_of_ok _ rfl).trans
      rw [if_pos hhigh, hlow]
      rfl
  · cases h

theorem run_read_movG (size : Size) (src dest : Operand) (address : Address)
    (rest : List UInt8) :
    (read address).run ([(Opcode.movG size).byte, 16 * src.code + dest.code] ++ src.extension ++
        dest.extension ++ rest) =
      .ok (movG size src.normalized dest.normalized, rest) := by
  have hsrc := src.code_lt
  have hdest := dest.code_lt
  have hhigh : (16 * src.code + dest.code) / 16 = src.code := by grind
  have hlow : (16 * src.code + dest.code) % 16 = dest.code := by grind
  simp only [List.cons_append, List.nil_append, List.append_assoc]
  rw [run_read_byte (Opcode.mem_all _ (by simp))]
  apply (run_bind_of_ok _ rfl).trans
  rw [hhigh, hlow]
  apply (run_bind_of_ok _ (src.run_read_code _)).trans
  exact run_bind_of_ok _ (dest.run_read_code rest)

theorem run_immPage (next : Operand → Reader Instruction) (dest : Operand) (input : List UInt8) :
    (do
      let fields ← byte
      if fields / 16 = 12 then
        let dest ← Operand.read (fields % 16)
        next dest
      else
        refuse : Reader Instruction).run ((0xC0 + dest.code) :: (dest.extension ++ input)) =
      (next dest.normalized).run input := by
  have hdest := dest.code_lt
  have hhigh : (0xC0 + dest.code) / 16 = 12 := by grind
  have hlow : (0xC0 + dest.code) % 16 = dest.code := by grind
  apply (run_bind_of_ok _ rfl).trans
  rw [if_pos hhigh, hlow]
  exact run_bind_of_ok _ (dest.run_read_code input)

theorem run_read_movImm {size : Size} {imm : UInt16} {dest : Operand} {address : Address}
    {code : List UInt8} (h : (movImm size imm dest).encode address = .ok code)
    (rest : List UInt8) :
    (read address).run (code ++ rest) = .ok (movImm size imm dest.normalized, rest) := by
  cases size with
  | byte =>
      simp only [encode] at h
      split at h
      · next himm =>
          cases h
          have hvalue : imm.toUInt8.toUInt16 = imm := by
            apply UInt16.toNat.inj
            rw [UInt8.toNat_toUInt16, UInt16.toNat_toUInt8]
            exact Nat.mod_eq_of_lt (UInt16.lt_iff_toNat_lt.mp himm)
          simp only [List.cons_append, List.nil_append, List.append_assoc]
          rw [run_read_byte (Opcode.mem_all _ (by simp))]
          apply (run_immPage _ dest _).trans
          apply (run_bind_of_ok _ rfl).trans
          rw [hvalue]
          rfl
      · cases h
  | word =>
      cases h
      simp only [List.cons_append, List.nil_append, List.append_assoc]
      rw [run_read_byte (Opcode.mem_all _ (by simp))]
      apply (run_immPage _ dest _).trans
      exact run_bind_of_ok _ (run_word imm rest)

theorem run_read_quick {operation : QuickOperation} {size : Size} {imm : Int8} {dest : Operand}
    {address : Address} {code : List UInt8}
    (h : (quick operation size imm dest).encode address = .ok code) (rest : List UInt8) :
    (read address).run (code ++ rest) = .ok (quick operation size imm dest.normalized, rest) := by
  simp only [encode] at h
  split at h
  · next hrange =>
      cases h
      have hdest := dest.code_lt
      have hhigh : (16 * imm.toUInt8 + dest.code) / 16 = imm.toUInt8 % 16 := by grind
      have hlow : (16 * imm.toUInt8 + dest.code) % 16 = dest.code := by grind
      simp only [List.cons_append, List.nil_append]
      rw [run_read_byte (Opcode.mem_all _ (by simp))]
      apply (run_bind_of_ok _ rfl).trans
      rw [hhigh, hlow, nibbleToInt8_mod imm hrange.1 hrange.2]
      exact run_bind_of_ok _ (dest.run_read_code rest)
  · cases h

/-- Every encoding is read back as the normalized instruction, and what
follows it is left alone. -/
theorem run_read_encode {instruction : Instruction} {address : Address} {code : List UInt8}
    (h : instruction.encode address = .ok code) (rest : List UInt8) :
    (read address).run (code ++ rest) = .ok (instruction.normalized, rest) := by
  cases instruction with
  | brk | nop | rts | reit | und | wait | exitd | enter =>
      cases h
      exact run_read_byte (by decide) address _
  | int vector => exact run_read_int h rest
  | fset flag =>
      cases h
      rw [List.cons_append, run_read_byte (by decide)]
      cases flag <;> rfl
  | fclr flag =>
      cases h
      rw [List.cons_append, run_read_byte (by decide)]
      cases flag <;> rfl
  | jmp distance target =>
      cases distance with
      | short => exact run_read_jmpShort h rest
      | byte =>
          obtain ⟨bytes, hbytes, rfl⟩ := bind_pure_eq_ok.mp h
          exact run_read_target .jmpByte (jmp .byte) (by decide)
            (readsTarget_byteDistance address 1) rfl (Address.wrap_le_last target)
            (encodeByteDistance_wrap_eq_ok.mpr hbytes) rest
      | word =>
          obtain ⟨bytes, hbytes, rfl⟩ := bind_pure_eq_ok.mp h
          exact run_read_target .jmpWord (jmp .word) (by decide)
            (readsTarget_wordDistance address 1) rfl (Address.wrap_le_last target)
            (encodeWordDistance_wrap_eq_ok.mpr hbytes) rest
      | absolute =>
          obtain ⟨bytes, hbytes, rfl⟩ := bind_pure_eq_ok.mp h
          exact run_read_target .jmpAbsolute (jmp .absolute) (by decide)
            (readsTarget_absolute address) rfl (encodeAbsolute_eq_ok.mp hbytes).1 hbytes rest
  | jsr distance target =>
      cases distance with
      | word =>
          obtain ⟨bytes, hbytes, rfl⟩ := bind_pure_eq_ok.mp h
          exact run_read_target .jsrWord (jsr .word) (by decide)
            (readsTarget_wordDistance address 1) rfl (Address.wrap_le_last target)
            (encodeWordDistance_wrap_eq_ok.mpr hbytes) rest
      | absolute =>
          obtain ⟨bytes, hbytes, rfl⟩ := bind_pure_eq_ok.mp h
          exact run_read_target .jsrAbsolute (jsr .absolute) (by decide)
            (readsTarget_absolute address) rfl (encodeAbsolute_eq_ok.mp hbytes).1 hbytes rest
  | jcnd condition target => exact run_read_branch h rest
  | movG size src dest =>
      cases h
      exact run_read_movG size src dest address rest
  | movImm size imm dest => exact run_read_movImm h rest
  | quick operation size imm dest => exact run_read_quick h rest
  | movS imm dest =>
      cases h
      rw [List.append_assoc, List.cons_append, run_read_byte (Opcode.mem_all _ (by simp))]
      apply (run_bind_of_ok _ rfl).trans
      exact run_bind_of_ok _ (dest.run_read_mode rest)
  | movZ dest =>
      cases h
      rw [List.cons_append, run_read_byte (Opcode.mem_all _ (by simp))]
      exact run_bind_of_ok _ (dest.run_read_mode rest)
  | pushS register =>
      cases h
      rw [List.cons_append, run_read_byte (Opcode.mem_all _ (by simp))]
      rfl
  | popS register =>
      cases h
      rw [List.cons_append, run_read_byte (Opcode.mem_all _ (by simp))]
      rfl

end Instruction

end M16C
