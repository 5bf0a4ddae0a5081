import M16C.Proofs.Fields

/-!
What decoding returns. Every instruction that the reader behind it returns is
canonical and encodes, at the same address, to exactly the bytes that were taken;
the argument goes by the opcode, with one lemma for each format. The reader is
resumable as well, so that an input without an instruction either lacks bytes or
is beyond completion.
-/

namespace M16C

open Reader

theorem Opcode.isShort_of_mem_all {condition : BranchCondition}
    (h : Opcode.branch condition ∈ all) : condition.isShort = true := by
  revert h
  cases condition <;> decide

namespace Instruction

/-- The instruction is canonical, and at `address` it encodes to `opcode` and
the bytes of `input` that stand before `rest`. -/
def StandsFor (instruction : Instruction) (address : Address) (opcode : Opcode)
    (input rest : List UInt8) : Prop :=
  instruction.Canonical ∧
    ∃ used, instruction.encode address = .ok (opcode.byte :: used) ∧ input = used ++ rest

section Formats

variable {address : Address} {opcode : Opcode} {input rest : List UInt8}
  {instruction : Instruction}

theorem standsFor_target {α : Type} {reader : Reader α} {target : α → Address}
    {field : Address → Except EncodeError (List UInt8)} {build : Address → Instruction}
    (hfield : ReadsTarget reader target field)
    (hcanonical : ∀ place, place ≤ Address.last → (build place).Canonical)
    (hencode : ∀ place, (build place).encode address = do
      return opcode.byte :: (← field place))
    (h : (do return build (target (← reader))).run input = .ok (instruction, rest)) :
    instruction.StandsFor address opcode input rest := by
  obtain ⟨a, hrun, rfl⟩ := run_bind_pure_eq_ok.mp h
  obtain ⟨hreach, code, hcode, hinput⟩ := (hfield _ _ _).mp ⟨a, hrun, rfl⟩
  refine ⟨hcanonical _ hreach, code, ?_, hinput⟩
  rw [hencode, hcode]
  rfl

theorem standsFor_jmpShort (distance : Fin 8) :
    (jmp .short (Address.relative address 2 distance.val)).StandsFor address
      (.jmpShort distance) rest rest := by
  refine ⟨Address.relative_le_last _ _ _, [], ?_, rfl⟩
  have hdistance := Address.displacement_relative address 2 distance.val (by omega) (by omega)
  have hrange : 0 ≤ (distance.val : Int) ∧ (distance.val : Int) < 8 := by omega
  simp only [encode, hdistance, if_pos hrange]
  simp

theorem standsFor_framePage
    (h : (readAfter address .framePage).run input = .ok (instruction, rest)) :
    instruction.StandsFor address .framePage input rest := by
  obtain ⟨second, middle, hsecond, hframe⟩ := run_bind_eq_ok.mp h
  obtain rfl := run_byte_eq_ok.mp hsecond
  split at hframe
  · next heq =>
      obtain ⟨frame, hread, rfl⟩ := run_bind_pure_eq_ok.mp hframe
      obtain rfl := run_byte_eq_ok.mp hread
      exact ⟨trivial, [second, frame], by rw [heq]; rfl, rfl⟩
  · cases hframe

theorem standsFor_controlPage
    (h : (readAfter address .controlPage).run input = .ok (instruction, rest)) :
    instruction.StandsFor address .controlPage input rest := by
  obtain ⟨second, middle, hsecond, hcontrol⟩ := run_bind_eq_ok.mp h
  obtain rfl := run_byte_eq_ok.mp hsecond
  split at hcontrol
  · next heq =>
      obtain ⟨rfl, rfl⟩ := run_pure_eq_ok.mp hcontrol
      exact ⟨trivial, [second], by rw [heq]; rfl, rfl⟩
  split at hcontrol
  · next heq =>
      obtain ⟨rfl, rfl⟩ := run_pure_eq_ok.mp hcontrol
      exact ⟨trivial, [second], by rw [heq]; rfl, rfl⟩
  split at hcontrol
  · next condition hcondition =>
      obtain ⟨hbyte, hlong⟩ := BranchCondition.of_ofPageByte? hcondition
      obtain ⟨distance, hdistance, rfl⟩ := run_bind_pure_eq_ok.mp hcontrol
      obtain rfl := run_signedByte_eq_ok.mp hdistance
      refine ⟨Address.relative_le_last _ _ _, [second, distance.toUInt8], ?_, rfl⟩
      simp only [encode, hlong, hbyte, encodeByteDistance_relative]
      rfl
  · cases hcontrol

theorem standsFor_flagPage
    (h : (readAfter address .flagPage).run input = .ok (instruction, rest)) :
    instruction.StandsFor address .flagPage input rest := by
  obtain ⟨second, middle, hsecond, hflag⟩ := run_bind_eq_ok.mp h
  obtain rfl := run_byte_eq_ok.mp hsecond
  split at hflag
  · next hvector =>
      obtain ⟨rfl, rfl⟩ := run_pure_eq_ok.mp hflag
      have hbyte : 0xC0 + (second - 0xC0) = second := by grind
      have hbound : second - 0xC0 < 64 := by grind
      refine ⟨?_, [second], ?_, rfl⟩
      · simp only [Canonical]
        grind
      · simp only [encode, if_pos hbound, hbyte]
  split at hflag
  · next flag hbits =>
      have hbit := Flag.bit_of_ofBit? hbits
      split at hflag
      · next hset =>
          obtain ⟨rfl, rfl⟩ := run_pure_eq_ok.mp hflag
          have hbyte : 16 * flag.bit + 4 = second := by grind
          exact ⟨trivial, [second], by simp only [encode, hbyte], rfl⟩
      split at hflag
      · next hclear =>
          obtain ⟨rfl, rfl⟩ := run_pure_eq_ok.mp hflag
          have hbyte : 16 * flag.bit + 5 = second := by grind
          exact ⟨trivial, [second], by simp only [encode, hbyte], rfl⟩
      · cases hflag
  · cases hflag

theorem standsFor_movG {size : Size}
    (h : (readAfter address (.movG size)).run input = .ok (instruction, rest)) :
    instruction.StandsFor address (.movG size) input rest := by
  obtain ⟨fields, middle, hfields, hoperands⟩ := run_bind_eq_ok.mp h
  obtain rfl := run_byte_eq_ok.mp hfields
  obtain ⟨src, behind, hsrc, hlast⟩ := run_bind_eq_ok.mp hoperands
  obtain ⟨dest, hdest, rfl⟩ := run_bind_pure_eq_ok.mp hlast
  obtain ⟨hsrcCanonical, hsrcCode, rfl⟩ := Operand.of_run_read (by grind) hsrc
  obtain ⟨hdestCanonical, hdestCode, rfl⟩ := Operand.of_run_read (by grind) hdest
  have hpacked : 16 * src.code + dest.code = fields := by grind
  refine ⟨⟨hsrcCanonical, hdestCanonical⟩, fields :: (src.extension ++ dest.extension), ?_, ?_⟩
  · simp [encode, hpacked]
  · simp

theorem standsFor_movImm {size : Size}
    (h : (readAfter address (.movImm size)).run input = .ok (instruction, rest)) :
    instruction.StandsFor address (.movImm size) input rest := by
  obtain ⟨fields, middle, hfields, hoperands⟩ := run_bind_eq_ok.mp h
  obtain rfl := run_byte_eq_ok.mp hfields
  split at hoperands
  · next hpage =>
      obtain ⟨dest, behind, hdest, himm⟩ := run_bind_eq_ok.mp hoperands
      obtain ⟨hcanonical, hcode, rfl⟩ := Operand.of_run_read (by grind) hdest
      have hpacked : 0xC0 + dest.code = fields := by grind
      cases size with
      | byte =>
          obtain ⟨imm, hread, rfl⟩ := run_bind_pure_eq_ok.mp himm
          obtain rfl := run_byte_eq_ok.mp hread
          have hbound : imm.toUInt16 < 256 := by
            rw [UInt16.lt_iff_toNat_lt, UInt8.toNat_toUInt16]
            exact imm.toNat_lt
          refine ⟨⟨?_, hcanonical⟩, fields :: (dest.extension ++ [imm]), ?_, by simp⟩
          · intro _
            grind
          · simp only [encode, if_pos hbound, hpacked, UInt8.toUInt8_toUInt16]
            rfl
      | word =>
          obtain ⟨imm, hread, rfl⟩ := run_bind_pure_eq_ok.mp himm
          obtain rfl := run_word_eq_ok.mp hread
          refine ⟨⟨?_, hcanonical⟩, fields :: (dest.extension ++ wordBytes imm), ?_, by simp⟩
          · intro hsize
            cases hsize
          · simp only [encode, hpacked]
            rfl
  · cases hoperands

theorem standsFor_quick {operation : QuickOperation} {size : Size}
    (h : (readAfter address (.quick operation size)).run input = .ok (instruction, rest)) :
    instruction.StandsFor address (.quick operation size) input rest := by
  obtain ⟨fields, middle, hfields, hoperands⟩ := run_bind_eq_ok.mp h
  obtain rfl := run_byte_eq_ok.mp hfields
  obtain ⟨dest, hdest, rfl⟩ := run_bind_pure_eq_ok.mp hoperands
  obtain ⟨hcanonical, hcode, rfl⟩ := Operand.of_run_read (by grind) hdest
  obtain ⟨hlow, hhigh, hshifted⟩ := nibbleToInt8_bounds (fields / 16) (by grind)
  have hpacked : 16 * (nibbleToInt8 (fields / 16)).toUInt8 + dest.code = fields := by
    rw [hshifted]
    grind
  refine ⟨⟨hlow, by omega, hcanonical⟩, fields :: dest.extension, ?_, rfl⟩
  simp [encode, hlow, hhigh, hpacked]

end Formats

/-- What is read after an opcode stands for the opcode and the bytes taken. -/
theorem standsFor_of_run_readAfter {address : Address} {opcode : Opcode}
    (hopcode : opcode ∈ Opcode.all) {input rest : List UInt8} {instruction : Instruction}
    (h : (readAfter address opcode).run input = .ok (instruction, rest)) :
    instruction.StandsFor address opcode input rest := by
  cases opcode with
  | brk | nop | rts | reit | und | push | pop =>
      obtain ⟨rfl, rfl⟩ := run_pure_eq_ok.mp h
      exact ⟨trivial, [], rfl, rfl⟩
  | jmpShort distance =>
      obtain ⟨rfl, rfl⟩ := run_pure_eq_ok.mp h
      exact standsFor_jmpShort distance
  | jmpByte =>
      exact standsFor_target (readsTarget_byteDistance address 1) (fun _ => id) (fun _ => rfl) h
  | jmpWord | jsrWord =>
      exact standsFor_target (readsTarget_wordDistance address 1) (fun _ => id) (fun _ => rfl) h
  | jmpAbsolute | jsrAbsolute =>
      exact standsFor_target (readsTarget_absolute address) (fun _ => id) (fun _ => rfl) h
  | branch condition =>
      have hshort := Opcode.isShort_of_mem_all hopcode
      have hencode (target : Address) : (jcnd condition target).encode address = do
          return (Opcode.branch condition).byte :: (← encodeByteDistance target address 1) :=
        if_pos hshort
      exact standsFor_target (readsTarget_byteDistance address 1) (fun _ => id) hencode h
  | framePage => exact standsFor_framePage h
  | controlPage => exact standsFor_controlPage h
  | flagPage => exact standsFor_flagPage h
  | movG size => exact standsFor_movG h
  | movImm size => exact standsFor_movImm h
  | quick operation size => exact standsFor_quick h
  | movS mode =>
      obtain ⟨imm, middle, himm, hlast⟩ := run_bind_eq_ok.mp h
      obtain rfl := run_byte_eq_ok.mp himm
      obtain ⟨dest, hdest, rfl⟩ := run_bind_pure_eq_ok.mp hlast
      obtain ⟨rfl, rfl⟩ := ShortOperand.of_run_read hdest
      exact ⟨trivial, imm :: dest.extension, rfl, rfl⟩
  | movZ mode =>
      obtain ⟨dest, hdest, rfl⟩ := run_bind_pure_eq_ok.mp h
      obtain ⟨rfl, rfl⟩ := ShortOperand.of_run_read hdest
      exact ⟨trivial, dest.extension, rfl, rfl⟩

/-- What is read from the front of some bytes is canonical and encodes to the
bytes taken. -/
theorem of_run_read {address : Address} {bytes rest : List UInt8} {instruction : Instruction}
    (h : (read address).run bytes = .ok (instruction, rest)) :
    instruction.Canonical ∧
      ∃ code, instruction.encode address = .ok code ∧ bytes = code ++ rest := by
  obtain ⟨first, middle, hfirst, hrest⟩ := run_bind_eq_ok.mp h
  obtain rfl := run_byte_eq_ok.mp hfirst
  unfold readFrom at hrest
  split at hrest
  · next opcode hopcode =>
      have hmember : opcode ∈ Opcode.all := List.mem_of_find?_eq_some hopcode
      have hbyte := Opcode.byte_eq_of_ofByte?_eq_some hopcode
      obtain ⟨hcanonical, used, hencode, rfl⟩ := standsFor_of_run_readAfter hmember hrest
      refine ⟨hcanonical, first :: used, ?_, rfl⟩
      rw [hencode, hbyte]
  · cases hrest

/-- An immediate stands behind an operand whose byte names the page. -/
theorem resumable_immPage {next : Operand → Reader Instruction}
    (hnext : ∀ dest, (next dest).Resumable) (hdone : ∀ dest, Completable (next dest)) :
    Reader.Resumable (do
      let fields ← byte
      if fields / 16 = 12 then
        let dest ← Operand.read (fields % 16)
        next dest
      else
        refuse) := by
  refine Resumable.byte_bind ?_ 0xC0
    (completable_bind (Operand.completable_read 0) hdone)
  intro fields
  split
  · exact (Operand.resumable_read _).bind hnext hdone
  · exact .of_refuse

theorem resumable_readAfter (address : Address) (opcode : Opcode) :
    (readAfter address opcode).Resumable := by
  cases opcode with
  | brk | nop | rts | reit | und | jmpShort | push | pop => exact .of_pure _
  | jmpByte | branch => exact Resumable.of_signedByte.bind_pure _
  | jmpWord | jsrWord => exact Resumable.of_signedWord.bind_pure _
  | jmpAbsolute | jsrAbsolute => exact resumable_readAbsolute.bind_pure _
  | framePage =>
      refine Resumable.byte_bind ?_ 0xF2 (completable_bind_pure completable_byte _)
      intro second
      split
      · exact Resumable.of_byte.bind_pure _
      · exact .of_refuse
  | controlPage =>
      refine Resumable.byte_bind ?_ 0xF3 (completable_pure Instruction.wait)
      intro second
      split
      · exact .of_pure _
      split
      · exact .of_pure _
      split
      · exact Resumable.of_signedByte.bind_pure _
      · exact .of_refuse
  | flagPage =>
      refine Resumable.byte_bind ?_ 0xC0 (completable_pure (Instruction.int 0))
      intro second
      split
      · exact .of_pure _
      split
      · split
        · exact .of_pure _
        split
        · exact .of_pure _
        · exact .of_refuse
      · exact .of_refuse
  | movG size =>
      apply Resumable.of_byte.bind
      · intro fields
        apply (Operand.resumable_read _).bind
        · intro src
          exact (Operand.resumable_read _).bind_pure _
        · intro src
          exact completable_bind_pure (Operand.completable_read _) _
      · intro fields
        apply completable_bind (Operand.completable_read _)
        intro src
        exact completable_bind_pure (Operand.completable_read _) _
  | movImm size =>
      cases size with
      | byte =>
          exact resumable_immPage (fun _ => Resumable.of_byte.bind_pure _)
            (fun _ => completable_bind_pure completable_byte _)
      | word =>
          exact resumable_immPage (fun _ => Resumable.of_word.bind_pure _)
            (fun _ => completable_bind_pure completable_word _)
  | quick operation size =>
      apply Resumable.of_byte.bind
      · intro fields
        exact (Operand.resumable_read _).bind_pure _
      · intro fields
        exact completable_bind_pure (Operand.completable_read _) _
  | movS mode =>
      apply Resumable.of_byte.bind
      · intro imm
        exact (ShortOperand.resumable_read mode).bind_pure _
      · intro imm
        exact completable_bind_pure (ShortOperand.completable_read mode) _
  | movZ mode => exact (ShortOperand.resumable_read mode).bind_pure _

theorem resumable_read (address : Address) : (read address).Resumable := by
  -- `NOP` alone completes the empty input.
  refine Resumable.byte_bind ?_ Instruction.nopByte (completable_pure Instruction.nop)
  intro first
  unfold readFrom
  split
  · exact resumable_readAfter address _
  · exact .of_refuse

/-- Decoding runs the reader and names the cause of a failure. -/
theorem decode_eq (bytes : List UInt8) (address : Address) :
    decode bytes address = match (read address).run bytes with
      | .ok (instruction, _) => .ok instruction
      | .error fault => .error (fault.cause bytes address) := by
  rw [decode, Reader.scan_eq _ _ _ (Nat.zero_le _), List.drop_zero]
  cases (read address).run bytes with
  | ok step => rfl
  | error fault => rfl

theorem decode_eq_ok_iff {bytes : List UInt8} {address : Address} {instruction : Instruction} :
    decode bytes address = .ok instruction ↔
      ∃ rest, (read address).run bytes = .ok (instruction, rest) := by
  rw [decode_eq]
  cases hrun : (read address).run bytes with
  | ok step =>
      obtain ⟨result, rest⟩ := step
      simp
  | error fault => simp

theorem decode_eq_truncated_iff {bytes : List UInt8} {address : Address}
    {needed available : Nat} :
    decode bytes address = .error (.truncated needed available) ↔
      (read address).run bytes = .error .truncated ∧
        needed = bytes.length + 1 ∧ available = bytes.length := by
  rw [decode_eq]
  cases hrun : (read address).run bytes with
  | ok step => simp
  | error fault => cases fault <;> simp [Fault.cause, eq_comm]

theorem decode_eq_invalidOpcode_iff {bytes : List UInt8} {address place : Address}
    {opcode : UInt8} :
    decode bytes address = .error (.invalidOpcode opcode place) ↔
      (read address).run bytes = .error .unassigned ∧
        bytes.head? = some opcode ∧ place = address := by
  have hempty : (read address).run [] = .error .truncated := rfl
  rw [decode_eq]
  cases bytes with
  | nil => simp [hempty, Fault.cause]
  | cons first rest =>
      cases hrun : (read address).run (first :: rest) with
      | ok step => simp
      | error fault => cases fault <;> simp [Fault.cause, eq_comm]

end Instruction

end M16C
