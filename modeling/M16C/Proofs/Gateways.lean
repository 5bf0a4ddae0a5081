import M16C.Proofs.RoundTrip
import M16C.Gateway

/-!
What a host is told about the bytes at an address. The check of an instruction
against bytes compares encodings only, and yet it says what decoding says: it
passes exactly the instructions whose normalized form the bytes decode to. The
three questions of a host decode the bytes independently of each other and
agree on whether there is an instruction and how long it is. Lifting appends
to a buffer and never looks at what the buffer holds.
-/

namespace M16C

open Il

namespace Instruction

variable {instruction : Instruction} {bytes : List UInt8} {address : Address} {text : String}

/-- An instruction has the front of the bytes as its encoding exactly when it
encodes at all and the bytes decode to its normalized form. -/
theorem encode_eq_take_iff :
    instruction.encode address = .ok (bytes.take instruction.length) ↔
      (∃ code, instruction.encode address = .ok code) ∧
        decode bytes address = .ok instruction.normalized := by
  constructor
  · intro h
    have hdecode := decode_append_of_encode h (bytes.drop instruction.length)
    rw [List.take_append_drop] at hdecode
    exact ⟨⟨_, h⟩, hdecode⟩
  · rintro ⟨_, hdecode⟩
    obtain ⟨_, _, hfront, _⟩ := of_decode_eq_ok hdecode
    rw [(encode_normalized_eq_ok instruction address _).mp hfront, length_normalized]

theorem verify_of_encode_ok {code : List UInt8} (h : instruction.encode address = .ok code) :
    instruction.verify bytes address text =
      if code = bytes.take instruction.length then .ok ()
      else .error (.mismatch address text (bytes.take instruction.length) code) := by
  simp only [verify, h]

theorem verify_of_encode_error {cause : EncodeError}
    (h : instruction.encode address = .error cause) :
    instruction.verify bytes address text =
      .error (.encode address text (bytes.take instruction.length) cause) := by
  simp only [verify, h]

theorem verify_eq_ok_iff :
    instruction.verify bytes address text = .ok () ↔
      (∃ code, instruction.encode address = .ok code) ∧
        decode bytes address = .ok instruction.normalized := by
  rw [← encode_eq_take_iff]
  cases hencode : instruction.encode address with
  | ok code => simp [verify_of_encode_ok hencode]
  | error cause => simp [verify_of_encode_error hencode]

theorem verify_eq_error_iff {failure : RoundtripError} :
    instruction.verify bytes address text = .error failure ↔
      (∃ cause, instruction.encode address = .error cause ∧
        failure = .encode address text (bytes.take instruction.length) cause) ∨
      (∃ code, instruction.encode address = .ok code ∧ code ≠ bytes.take instruction.length ∧
        failure = .mismatch address text (bytes.take instruction.length) code) := by
  cases hencode : instruction.encode address with
  | ok code =>
      rw [verify_of_encode_ok hencode]
      split
      · next heq => simp [heq]
      · next hne => simp [hne, eq_comm]
  | error cause => simp [verify_of_encode_error hencode, eq_comm]

/-- What is decoded passes the check. -/
theorem verify_of_decode (h : decode bytes address = .ok instruction) (text : String) :
    instruction.verify bytes address text = .ok () := by
  obtain ⟨_, _, hencode, _⟩ := of_decode_eq_ok h
  rw [verify_of_encode_ok hencode, if_pos rfl]

@[simp] theorem length_flow (instruction : Instruction) (address : Address) :
    (instruction.flow address).length = instruction.length := by
  cases instruction <;> rfl

/-- `ENTER` and `EXITD` are lifted to three operations, every other instruction
to one. -/
theorem length_lift (instruction : Instruction) (address : Address) :
    (instruction.lift address).length =
      match instruction with
      | .enter _ | .exitd => 3
      | _ => 1 := by
  cases instruction with
  | quick operation size imm dest => cases operation <;> rfl
  | _ => rfl

theorem lift_ne_nil (instruction : Instruction) (address : Address) :
    instruction.lift address ≠ [] := by
  cases instruction with
  | quick operation size imm dest => cases operation <;> exact List.cons_ne_nil _ _
  | _ => exact List.cons_ne_nil _ _

end Instruction

namespace Gateway

variable {bytes : List UInt8} {address : Address}

theorem decode_of_ok {instruction : Instruction}
    (h : Instruction.decode bytes address = .ok instruction) :
    decode bytes address = ⟨some instruction, []⟩ := by
  simp only [decode, h]

theorem decode_of_error {cause : DecodeError}
    (h : Instruction.decode bytes address = .error cause) :
    decode bytes address = ⟨none, [.undecodable cause]⟩ := by
  simp only [decode, h]

theorem renderVerified_of_ok {instruction : Instruction} {display : Display}
    (h : instruction.verify bytes address (instruction.text display) = .ok ()) :
    renderVerified instruction bytes address display = ⟨instruction.render display, []⟩ := by
  simp only [Instruction.text] at h
  simp only [renderVerified, h]

theorem renderVerified_of_error {instruction : Instruction} {display : Display}
    {failure : RoundtripError}
    (h : instruction.verify bytes address (instruction.text display) = .error failure) :
    renderVerified instruction bytes address display =
      ⟨instruction.render display, [.roundtripFailed failure]⟩ := by
  simp only [Instruction.text] at h
  simp only [renderVerified, h]

theorem text_of_decode_ok {instruction : Instruction} (display : Display)
    (h : Instruction.decode bytes address = .ok instruction) :
    text bytes address display = ⟨some (instruction.render display, instruction.length), []⟩ := by
  simp only [text, decode_of_ok h, renderVerified_of_ok (Instruction.verify_of_decode h _),
    List.append_nil]

theorem text_of_decode_error {cause : DecodeError} (display : Display)
    (h : Instruction.decode bytes address = .error cause) :
    text bytes address display = ⟨none, [.undecodable cause]⟩ := by
  simp only [text, decode_of_error h]

theorem flow_of_decode_ok {instruction : Instruction}
    (h : Instruction.decode bytes address = .ok instruction) :
    flow bytes address = ⟨some (instruction.flow address), []⟩ := by
  simp only [flow, decode_of_ok h, Logged.map, Option.map_some]

theorem flow_of_decode_error {cause : DecodeError}
    (h : Instruction.decode bytes address = .error cause) :
    flow bytes address = ⟨none, [.undecodable cause]⟩ := by
  simp only [flow, decode_of_error h, Logged.map, Option.map_none]

theorem lift_of_decode_ok {instruction : Instruction} (buffer : List Op)
    (h : Instruction.decode bytes address = .ok instruction) :
    lift bytes address buffer =
      ⟨(some instruction.length, buffer ++ instruction.lift address), []⟩ := by
  simp only [lift, decode_of_ok h, Logged.map]

theorem lift_of_decode_error {cause : DecodeError} (buffer : List Op)
    (h : Instruction.decode bytes address = .error cause) :
    lift bytes address buffer = ⟨(none, buffer), [.undecodable cause]⟩ := by
  simp only [lift, decode_of_error h, Logged.map]

/-- Clipping the bytes changes neither the tokens nor what is told. -/
theorem text_take_maxLength (bytes : List UInt8) (address : Address) (display : Display) :
    text (bytes.take Instruction.maxLength) address display = text bytes address display := by
  have hclip := Instruction.decode_take bytes address (n := Instruction.maxLength) (by decide)
  cases hdecode : Instruction.decode bytes address with
  | ok instruction =>
      rw [text_of_decode_ok display hdecode, text_of_decode_ok display (hclip.trans hdecode)]
  | error cause =>
      rw [text_of_decode_error display hdecode, text_of_decode_error display (hclip.trans hdecode)]

/-- The buffer after bytes at one address after the other are lifted into it. -/
def liftAll (buffer : List Op) : List (List UInt8 × Address) → List Op
  | [] => buffer
  | (bytes, address) :: later => liftAll (lift bytes address buffer).result.2 later

/-- The operations that bytes at an address stand for. -/
def lifted (bytes : List UInt8) (address : Address) : List Op :=
  match Instruction.decode bytes address with
  | .ok instruction => instruction.lift address
  | .error _ => []

/-- One step appends to the buffer and reads nothing of it. -/
theorem buffer_lift (bytes : List UInt8) (address : Address) (buffer : List Op) :
    (lift bytes address buffer).result.2 = buffer ++ lifted bytes address := by
  cases hdecode : Instruction.decode bytes address with
  | ok instruction => simp only [lift_of_decode_ok buffer hdecode, lifted, hdecode]
  | error cause => simp only [lift_of_decode_error buffer hdecode, lifted, hdecode, List.append_nil]

theorem liftAll_eq_append (buffer : List Op) (steps : List (List UInt8 × Address)) :
    liftAll buffer steps = buffer ++ steps.flatMap fun (bytes, address) => lifted bytes address := by
  induction steps generalizing buffer with
  | nil => simp [liftAll]
  | cons step later ih =>
      obtain ⟨bytes, address⟩ := step
      rw [liftAll, buffer_lift, ih, List.flatMap_cons, List.append_assoc]

end Gateway

/-- The check of an instruction against bytes, exactly. It passes when the
instruction encodes and the bytes decode to its normalized form. Otherwise it
fails, with the encoder's cause when the instruction does not encode, and with
both byte strings, which differ, when it does; the bytes given are those at the
front, as many as the instruction is long or all there are. Rendering an
instruction gives its tokens whatever the check says, and tells that one failure
or nothing. -/
theorem Instruction.verify_exact (instruction : Instruction) (bytes : List UInt8)
    (address : Address) (text : String) :
    let given := bytes.take (min instruction.length bytes.length)
    (instruction.verify bytes address text = .ok () ↔
      (∃ code, instruction.encode address = .ok code) ∧
        decode bytes address = .ok instruction.normalized) ∧
    (∀ failure, instruction.verify bytes address text = .error failure ↔
      (∃ cause, instruction.encode address = .error cause ∧
        failure = .encode address text given cause) ∨
      (∃ code, instruction.encode address = .ok code ∧
        decode bytes address ≠ .ok instruction.normalized ∧ code ≠ given ∧
        failure = .mismatch address text given code)) ∧
    (∀ display,
      let rendered := Gateway.renderVerified instruction bytes address display
      let shown := Token.lineText (instruction.render display)
      rendered.result = instruction.render display ∧
      (rendered.events = [] ↔ instruction.verify bytes address shown = .ok ()) ∧
      ∀ failure, rendered.events = [.roundtripFailed failure] ↔
        instruction.verify bytes address shown = .error failure) := by
  intro given
  have hgiven : given = bytes.take instruction.length := List.take_eq_take_min.symm
  refine ⟨verify_eq_ok_iff, ?_, ?_⟩
  · intro failure
    rw [verify_eq_error_iff, hgiven]
    constructor
    · rintro (hencode | ⟨code, hencode, hne, hfailure⟩)
      · exact .inl hencode
      · refine .inr ⟨code, hencode, ?_, hne, hfailure⟩
        intro hdecode
        have hfront := encode_eq_take_iff.mpr ⟨⟨code, hencode⟩, hdecode⟩
        exact hne (Except.ok.inj (hencode.symm.trans hfront))
    · rintro (hencode | ⟨code, hencode, _, hne, hfailure⟩)
      · exact .inl hencode
      · exact .inr ⟨code, hencode, hne, hfailure⟩
  · intro display rendered shown
    cases hverify : instruction.verify bytes address shown with
    | ok _ =>
        have hrendered : rendered = _ := Gateway.renderVerified_of_ok hverify
        simp [hrendered]
    | error failure =>
        have hrendered : rendered = _ := Gateway.renderVerified_of_error hverify
        simp [hrendered]

/-- The questions of a host agree, and lifting only appends. Bytes hold no
instruction for any of the three, or for all of them the same one, whose length
is at least one byte and at most all that there are. After any steps of lifting
into one buffer it holds what it held before and then, in order, the operations
of the steps that decode: three for `ENTER` and `EXITD`, one for any other
instruction. -/
theorem Gateway.questions_agree :
    (∀ (bytes : List UInt8) (address : Address) (display : Display),
      ((∃ cause, Instruction.decode bytes address = .error cause) ∧
        (flow bytes address).result = none ∧ (text bytes address display).result = none ∧
        ∀ buffer, (lift bytes address buffer).result = (none, buffer)) ∨
      ∃ instruction, Instruction.decode bytes address = .ok instruction ∧
        1 ≤ instruction.length ∧ instruction.length ≤ bytes.length ∧
        (flow bytes address).result.map Flow.length = some instruction.length ∧
        (text bytes address display).result.map Prod.snd = some instruction.length ∧
        ∀ buffer, (lift bytes address buffer).result.1 = some instruction.length) ∧
    (∀ (buffer : List Op) (steps : List (List UInt8 × Address)),
      liftAll buffer steps = buffer ++ steps.flatMap fun (bytes, address) =>
        match Instruction.decode bytes address with
        | .ok instruction => instruction.lift address
        | .error _ => []) ∧
    (∀ (instruction : Instruction) (address : Address),
      (instruction.lift address).length =
        match instruction with
        | .enter _ | .exitd => 3
        | _ => 1) := by
  refine ⟨?_, liftAll_eq_append, Instruction.length_lift⟩
  intro bytes address display
  cases hdecode : Instruction.decode bytes address with
  | ok instruction =>
      obtain ⟨_, hfits, _, _⟩ := Instruction.of_decode_eq_ok hdecode
      refine .inr ⟨instruction, rfl, instruction.length_bounds.1, hfits, ?_, ?_, ?_⟩
      · simp [flow_of_decode_ok hdecode]
      · simp [text_of_decode_ok display hdecode]
      · intro buffer
        rw [lift_of_decode_ok buffer hdecode]
  | error cause =>
      refine .inl ⟨⟨cause, rfl⟩, ?_, ?_, ?_⟩
      · rw [flow_of_decode_error hdecode]
      · rw [text_of_decode_error display hdecode]
      · intro buffer
        rw [lift_of_decode_error buffer hdecode]

end M16C
