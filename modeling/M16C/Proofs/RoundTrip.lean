import M16C.Proofs.Encoding

/-!
Decoding and encoding against each other. A decoded instruction encodes to the
bytes it was decoded from, and an encoding decodes to the normalized
instruction whatever follows it; when an instruction has no encoding, no bytes
decode to it either. The encodings at one address form a prefix code, and the
two ways in which decoding fails are told apart by it: the bytes are too short
exactly when they begin an encoding without completing it, and invalid exactly
when they neither begin one nor start with one.
-/

namespace M16C.Instruction

open Reader

variable {bytes : List UInt8} {address : Address} {instruction : Instruction}

/-- Decoding splits the bytes after the length of the instruction: the reader
stops there, and the front is the encoding. -/
theorem of_decode_eq_ok (h : decode bytes address = .ok instruction) :
    instruction.Canonical ∧ instruction.length ≤ bytes.length ∧
      instruction.encode address = .ok (bytes.take instruction.length) ∧
      (read address).run bytes = .ok (instruction, bytes.drop instruction.length) := by
  obtain ⟨rest, hrun⟩ := decode_eq_ok_iff.mp h
  obtain ⟨hcanonical, code, hencode, rfl⟩ := of_run_read hrun
  have hlength : code.length = instruction.length := length_of_encode_eq_ok hencode
  have htake : (code ++ rest).take instruction.length = code := by
    rw [← hlength, List.take_left]
  have hdrop : (code ++ rest).drop instruction.length = rest := by
    rw [← hlength, List.drop_left]
  refine ⟨hcanonical, ?_, ?_, ?_⟩
  · rw [List.length_append]
    omega
  · rw [htake]
    exact hencode
  · rw [hdrop]
    exact hrun

theorem decode_append_of_encode {code : List UInt8}
    (h : instruction.encode address = .ok code) (tail : List UInt8) :
    decode (code ++ tail) address = .ok instruction.normalized :=
  decode_eq_ok_iff.mpr ⟨tail, run_read_encode h tail⟩

theorem decode_append_of_ok (h : decode bytes address = .ok instruction) (tail : List UInt8) :
    decode (bytes ++ tail) address = .ok instruction := by
  obtain ⟨rest, hrun⟩ := decode_eq_ok_iff.mp h
  exact decode_eq_ok_iff.mpr ⟨rest ++ tail, run_append_of_ok hrun tail⟩

theorem decode_append_of_invalidOpcode {opcode : UInt8} {place : Address}
    (h : decode bytes address = .error (.invalidOpcode opcode place)) (tail : List UInt8) :
    decode (bytes ++ tail) address = .error (.invalidOpcode opcode place) := by
  obtain ⟨hrun, hfirst, hplace⟩ := decode_eq_invalidOpcode_iff.mp h
  apply decode_eq_invalidOpcode_iff.mpr
  refine ⟨run_append_of_unassigned hrun tail, ?_, hplace⟩
  rw [List.head?_append, hfirst]
  rfl

/-- The reader runs out of bytes exactly inside an encoding. -/
theorem run_read_eq_truncated_iff :
    (read address).run bytes = .error .truncated ↔
      ∃ (instruction : Instruction) (code : List UInt8),
        instruction.encode address = .ok code ∧ bytes <+: code ∧ bytes ≠ code := by
  constructor
  · intro h
    obtain ⟨tail, instruction, hrun⟩ := resumable_read address bytes h
    obtain ⟨_, code, hencode, hcode⟩ := of_run_read hrun
    rw [List.append_nil] at hcode
    refine ⟨instruction, code, hencode, ⟨tail, hcode⟩, ?_⟩
    rintro rfl
    rw [hcode, h] at hrun
    cases hrun
  · rintro ⟨instruction, code, hencode, ⟨missing, rfl⟩, hne⟩
    have hrun := run_read_encode hencode []
    rw [List.append_nil] at hrun
    apply run_of_append hrun
    rintro rfl
    exact hne (List.append_nil bytes).symm

/-- The reader refuses exactly what neither starts with an encoding nor begins
one. -/
theorem run_read_eq_unassigned_iff :
    (read address).run bytes = .error .unassigned ↔
      (∀ (instruction : Instruction) (code : List UInt8),
        instruction.encode address = .ok code → ¬ code <+: bytes) ∧
      ∀ (instruction : Instruction) (code : List UInt8),
        instruction.encode address = .ok code → ¬ (bytes <+: code ∧ bytes ≠ code) := by
  constructor
  · intro h
    constructor
    · rintro instruction code hencode ⟨tail, rfl⟩
      rw [run_read_encode hencode tail] at h
      cases h
    · intro instruction code hencode hpart
      rw [run_read_eq_truncated_iff.mpr ⟨instruction, code, hencode, hpart⟩] at h
      cases h
  · rintro ⟨hstarts, hbegins⟩
    cases hrun : (read address).run bytes with
    | ok step =>
        obtain ⟨instruction, rest⟩ := step
        obtain ⟨_, code, hencode, hbytes⟩ := of_run_read hrun
        exact absurd ⟨rest, hbytes.symm⟩ (hstarts instruction code hencode)
    | error fault =>
        cases fault with
        | unassigned => rfl
        | truncated =>
            obtain ⟨instruction, code, hencode, hpart⟩ := run_read_eq_truncated_iff.mp hrun
            exact absurd hpart (hbegins instruction code hencode)

theorem decode_take_of_lt (h : decode bytes address = .ok instruction) {n : Nat}
    (hn : n < instruction.length) :
    decode (bytes.take n) address = .error (.truncated (n + 1) n) := by
  obtain ⟨_, hfits, hencode, _⟩ := of_decode_eq_ok h
  have hlength : (bytes.take n).length = n := by
    rw [List.length_take]
    omega
  apply decode_eq_truncated_iff.mpr
  refine ⟨?_, by rw [hlength], hlength.symm⟩
  apply run_read_eq_truncated_iff.mpr
  refine ⟨instruction, _, hencode, ?_, ?_⟩
  · exact List.take_prefix_take_left (by omega)
  · intro heq
    have hlengths := congrArg List.length heq
    rw [hlength, List.length_take] at hlengths
    omega

/-- Six bytes decide. -/
theorem decode_take (bytes : List UInt8) (address : Address) {n : Nat} (hn : 6 ≤ n) :
    decode (bytes.take n) address = decode bytes address := by
  have hsplit : bytes.take n ++ bytes.drop n = bytes := List.take_append_drop n bytes
  cases hfront : decode (bytes.take n) address with
  | ok instruction =>
      have happended := decode_append_of_ok hfront (bytes.drop n)
      rw [hsplit] at happended
      exact happended.symm
  | error cause =>
      cases cause with
      | invalidOpcode opcode place =>
          have happended := decode_append_of_invalidOpcode hfront (bytes.drop n)
          rw [hsplit] at happended
          exact happended.symm
      | truncated needed available =>
          -- The front is shorter than an instruction, so it is all there is.
          have hrun := (decode_eq_truncated_iff.mp hfront).1
          obtain ⟨instruction, code, hencode, hstart, hne⟩ := run_read_eq_truncated_iff.mp hrun
          have hcode := length_of_encode_eq_ok hencode
          have hsix := instruction.length_bounds.2
          have hle := hstart.length_le
          have hshort : (bytes.take n).length ≠ code.length := by
            intro heq
            exact hne (hstart.eq_of_length heq)
          have hall : bytes.take n = bytes := by
            rw [List.length_take] at hle hshort
            exact List.take_of_length_le (by omega)
          rw [← hfront, hall]

/-- A decoded instruction is canonical and encodes to the front of the bytes,
as many as it is long; the reader stops right behind them and leaves the others.
Bytes that decode to the same instruction at the same address have the same
front. -/
theorem encode_of_decode (h : decode bytes address = .ok instruction) :
    1 ≤ instruction.length ∧ instruction.length ≤ 6 ∧ instruction.length ≤ bytes.length ∧
      instruction.encode address = .ok (bytes.take instruction.length) ∧
      instruction.Canonical ∧
      (read address).scan bytes address 0 = .ok (instruction, instruction.length) ∧
      (∃ first rest, bytes = first :: rest ∧
        (readFrom address first).run rest = .ok (instruction, bytes.drop instruction.length)) ∧
      ∀ other, decode other address = .ok instruction →
        other.take instruction.length = bytes.take instruction.length := by
  obtain ⟨hcanonical, hfits, hencode, hrun⟩ := of_decode_eq_ok h
  obtain ⟨hpositive, hsix⟩ := instruction.length_bounds
  refine ⟨hpositive, hsix, hfits, hencode, hcanonical, ?_, ?_, ?_⟩
  · rw [scan_eq _ _ _ (Nat.zero_le _), List.drop_zero]
    simp only [hrun, List.length_drop, Nat.sub_sub_self hfits]
  · obtain ⟨first, middle, hfirst, hrest⟩ := run_bind_eq_ok.mp hrun
    exact ⟨first, middle, run_byte_eq_ok.mp hfirst, hrest⟩
  · intro other hother
    obtain ⟨_, _, hencodeOther, _⟩ := of_decode_eq_ok hother
    rw [hencode] at hencodeOther
    exact (Except.ok.inj hencodeOther).symm

/-- `JMP.W` from the top of the address space, followed by a byte that is not
part of it. -/
theorem encode_of_decode_jmpWord :
    decode [0xF4, 0x00, 0x80, 0xFF] 0xFFFFFFFF = .ok (.jmp .word 0xF8000) ∧
      (jmp .word 0xF8000).encode 0xFFFFFFFF = .ok [0xF4, 0x00, 0x80] := by
  have h : decode [0xF4, 0x00, 0x80, 0xFF] 0xFFFFFFFF = .ok (.jmp .word 0xF8000) := by rfl
  exact ⟨h, (encode_of_decode h).2.2.2.1⟩

/-- Encoding an instruction and decoding the bytes gives the normalized
instruction, whatever follows. An instruction that does not encode has a
normalized form to which no bytes decode. -/
theorem decode_of_encode (instruction : Instruction) (address : Address) :
    (∀ code, instruction.encode address = .ok code →
      code.length = instruction.length ∧
        ∀ tail, decode (code ++ tail) address = .ok instruction.normalized) ∧
    (∀ cause, instruction.encode address = .error cause →
      ∀ bytes, decode bytes address ≠ .ok instruction.normalized) := by
  constructor
  · intro code hencode
    exact ⟨length_of_encode_eq_ok hencode, decode_append_of_encode hencode⟩
  · intro cause hfails bytes hdecode
    obtain ⟨_, _, hencode, _⟩ := of_decode_eq_ok hdecode
    rw [(encode_normalized_eq_ok instruction address _).mp hencode] at hfails
    cases hfails

/-- Register 7 is written in two bits and read back as 3; one step beyond the
reach of `JMP.B` there is no encoding. -/
theorem decode_of_encode_masked :
    (movG .word (.data 7) (.dsp8Fb (-4))).encode 0 = .ok [0x73, 0x3B, 0xFC] ∧
      (∀ tail, decode ([0x73, 0x3B, 0xFC] ++ tail) 0 =
        .ok (.movG .word (.data 3) (.dsp8Fb (-4)))) ∧
      (jmp .byte 0x80).encode 0xFFFFF = .error (.displacementOutOfRange 0x80 0xFFFFF) ∧
      ∀ bytes, decode bytes 0xFFFFF ≠ .ok (.jmp .byte 0x80) := by
  have hencode : (movG .word (.data 7) (.dsp8Fb (-4))).encode 0 = .ok [0x73, 0x3B, 0xFC] := by
    rfl
  have hfails :
      (jmp .byte 0x80).encode 0xFFFFF = .error (.displacementOutOfRange 0x80 0xFFFFF) := by
    rfl
  exact ⟨hencode, ((decode_of_encode _ _).1 _ hencode).2, hfails, (decode_of_encode _ _).2 _ hfails⟩

/-- The two failures of decoding, exactly. Bytes are too short when they begin
the encoding of an instruction at the address without being all of it, and
invalid when they are neither that nor start with an encoding. Hence success
and invalidity do not change when bytes follow, and a part of an instruction is
always too short. -/
theorem decode_error_exact (bytes : List UInt8) (address : Address) :
    ((∃ needed available, decode bytes address = .error (.truncated needed available)) ↔
      ∃ (instruction : Instruction) (code : List UInt8),
        instruction.encode address = .ok code ∧ bytes <+: code ∧ bytes ≠ code) ∧
    (∀ needed available, decode bytes address = .error (.truncated needed available) →
      available = bytes.length ∧ needed = bytes.length + 1) ∧
    ((∃ opcode place, decode bytes address = .error (.invalidOpcode opcode place)) ↔
      bytes ≠ [] ∧
      (∀ (instruction : Instruction) (code : List UInt8),
        instruction.encode address = .ok code → ¬ code <+: bytes) ∧
      ∀ (instruction : Instruction) (code : List UInt8),
        instruction.encode address = .ok code → ¬ (bytes <+: code ∧ bytes ≠ code)) ∧
    (∀ opcode place, decode bytes address = .error (.invalidOpcode opcode place) →
      bytes.head? = some opcode ∧ place = address) ∧
    (∀ instruction, decode bytes address = .ok instruction →
      ∀ tail, decode (bytes ++ tail) address = .ok instruction) ∧
    (∀ opcode place, decode bytes address = .error (.invalidOpcode opcode place) →
      ∀ tail, decode (bytes ++ tail) address = .error (.invalidOpcode opcode place)) ∧
    (∀ instruction, decode bytes address = .ok instruction → ∀ n < instruction.length,
      decode (bytes.take n) address = .error (.truncated (n + 1) n)) := by
  refine ⟨?_, ?_, ?_, ?_, ?_, ?_, ?_⟩
  · rw [← run_read_eq_truncated_iff]
    constructor
    · rintro ⟨needed, available, h⟩
      exact (decode_eq_truncated_iff.mp h).1
    · intro hrun
      exact ⟨_, _, decode_eq_truncated_iff.mpr ⟨hrun, rfl, rfl⟩⟩
  · intro needed available h
    obtain ⟨_, hneeded, havailable⟩ := decode_eq_truncated_iff.mp h
    exact ⟨havailable, hneeded⟩
  · rw [← run_read_eq_unassigned_iff]
    constructor
    · rintro ⟨opcode, place, h⟩
      obtain ⟨hrun, hfirst, _⟩ := decode_eq_invalidOpcode_iff.mp h
      refine ⟨?_, hrun⟩
      rintro rfl
      cases hfirst
    · rintro ⟨hne, hrun⟩
      obtain ⟨first, rest, rfl⟩ := List.exists_cons_of_ne_nil hne
      exact ⟨first, address, decode_eq_invalidOpcode_iff.mpr ⟨hrun, rfl, rfl⟩⟩
  · intro opcode place h
    exact (decode_eq_invalidOpcode_iff.mp h).2
  · intro instruction h tail
    exact decode_append_of_ok h tail
  · intro opcode place h tail
    exact decode_append_of_invalidOpcode h tail
  · intro instruction h n hn
    exact decode_take_of_lt h hn

/-- `7C` alone begins an encoding, and with `00` behind it none. -/
theorem decode_error_exact_enter :
    (∃ (instruction : Instruction) (code : List UInt8),
      instruction.encode 5 = .ok code ∧ [0x7C] <+: code ∧ [0x7C] ≠ code) ∧
    ∀ tail, decode ([0x7C, 0x00] ++ tail) 5 = .error (.invalidOpcode 0x7C 5) := by
  have hshort : decode [0x7C] 5 = .error (.truncated 2 1) := by rfl
  have hinvalid : decode [0x7C, 0x00] 5 = .error (.invalidOpcode 0x7C 5) := by rfl
  exact ⟨(decode_error_exact _ _).1.mp ⟨2, 1, hshort⟩,
    (decode_error_exact _ _).2.2.2.2.2.1 _ _ hinvalid⟩

end M16C.Instruction
