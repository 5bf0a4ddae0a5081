import M16C.Instruction.Decode

/-!
What readers do with the bytes in front of them. `run` gives a reader a list of
bytes and returns what it leaves, without counting; a scan of a window is such
a run with the positions filled in, so that running out always happens at the
end of the window. For each primitive reader the runs that succeed are described
from both sides: it returns a value exactly when the input starts with the bytes
of that value. Bytes behind those taken play no part, and a refusal stays a
refusal whatever follows. `Resumable` readers run out of bytes only while some
continuation still succeeds.
-/

namespace M16C.Reader

variable {α β : Type}

instance : LawfulMonad Reader := LawfulMonad.mk' Reader
  (fun reader => by
    induction reader with
    | done value => rfl
    | refuse => rfl
    | take next ih => exact congrArg take (funext ih))
  (fun value next => rfl)
  (fun reader next last => by
    induction reader with
    | done value => rfl
    | refuse => rfl
    | take more ih => exact congrArg take (funext ih))

/-- Why a reader gets to no value. -/
inductive Fault where
  | truncated
  | unassigned
  deriving DecidableEq, Repr

/-- The value that a reader finds at the front of some bytes, and the bytes it
leaves. -/
def run : Reader α → List UInt8 → Except Fault (α × List UInt8)
  | .done value, input => .ok (value, input)
  | .refuse, _ => .error .unassigned
  | .take _, [] => .error .truncated
  | .take next, first :: rest => (next first).run rest

/-- The cause of a failure as told for a window at `address`. -/
def Fault.cause (window : List UInt8) (address : Address) : Fault → DecodeError
  | .truncated => .truncated (window.length + 1) window.length
  | .unassigned => .invalidOpcode (window.headD 0) address

/-- A scan runs the reader on the bytes from the position on. The position is
never past the end of the window, so a byte is missing only at the end. -/
theorem scan_eq (reader : Reader α) (window : List UInt8) (address : Address) {position : Nat}
    (h : position ≤ window.length) :
    reader.scan window address position = match reader.run (window.drop position) with
      | .ok (value, rest) => .ok (value, window.length - rest.length)
      | .error fault => .error (fault.cause window address) := by
  induction reader generalizing position with
  | done value => simp only [scan, run, List.length_drop, Nat.sub_sub_self h]
  | refuse => rfl
  | take next ih =>
      by_cases hinside : position < window.length
      · rw [scan, List.getElem?_eq_getElem hinside, List.drop_eq_getElem_cons hinside]
        exact ih _ hinside
      · have hend : position = window.length := by omega
        rw [scan, List.getElem?_eq_none (by omega), List.drop_eq_nil_of_le (by omega), hend]
        rfl

theorem run_bind_of_ok {reader : Reader α} (next : α → Reader β) {input middle : List UInt8}
    {a : α} (h : reader.run input = .ok (a, middle)) :
    (reader >>= next).run input = (next a).run middle := by
  induction reader generalizing input with
  | done value =>
      cases h
      rfl
  | refuse => cases h
  | take more ih =>
      cases input with
      | nil => cases h
      | cons first rest => exact ih first h

theorem run_bind_of_error {reader : Reader α} (next : α → Reader β) {input : List UInt8}
    {fault : Fault} (h : reader.run input = .error fault) :
    (reader >>= next).run input = .error fault := by
  induction reader generalizing input with
  | done value => cases h
  | refuse =>
      cases h
      rfl
  | take more ih =>
      cases input with
      | nil =>
          cases h
          rfl
      | cons first rest => exact ih first h

theorem run_map (f : α → β) (reader : Reader α) (input : List UInt8) :
    (f <$> reader).run input = match reader.run input with
      | .ok (a, rest) => .ok (f a, rest)
      | .error fault => .error fault := by
  rw [map_eq_pure_bind]
  cases hrun : reader.run input with
  | ok step => exact run_bind_of_ok _ hrun
  | error fault => exact run_bind_of_error _ hrun

theorem run_bind_eq_ok {reader : Reader α} {next : α → Reader β} {input rest : List UInt8}
    {b : β} :
    (reader >>= next).run input = .ok (b, rest) ↔
      ∃ a middle, reader.run input = .ok (a, middle) ∧ (next a).run middle = .ok (b, rest) := by
  constructor
  · intro h
    cases hfirst : reader.run input with
    | error fault =>
        rw [run_bind_of_error next hfirst] at h
        cases h
    | ok step =>
        obtain ⟨a, middle⟩ := step
        rw [run_bind_of_ok next hfirst] at h
        exact ⟨a, middle, rfl, h⟩
  · rintro ⟨a, middle, hfirst, hnext⟩
    rw [run_bind_of_ok next hfirst]
    exact hnext

theorem run_bind_eq_error {reader : Reader α} {next : α → Reader β} {input : List UInt8}
    {fault : Fault} :
    (reader >>= next).run input = .error fault ↔
      reader.run input = .error fault ∨
        ∃ a middle, reader.run input = .ok (a, middle) ∧ (next a).run middle = .error fault := by
  cases hfirst : reader.run input with
  | error cause => rw [run_bind_of_error next hfirst]; simp
  | ok step =>
      obtain ⟨a, middle⟩ := step
      rw [run_bind_of_ok next hfirst]
      constructor
      · intro h
        exact .inr ⟨a, middle, rfl, h⟩
      · rintro (h | ⟨a', middle', hstep, h⟩)
        · cases h
        · cases hstep
          exact h

@[simp] theorem run_pure_eq_ok {input rest : List UInt8} {a b : α} :
    (pure a : Reader α).run input = .ok (b, rest) ↔ b = a ∧ rest = input := by
  simp [pure, run, eq_comm]

theorem run_bind_pure_eq_ok {reader : Reader α} {f : α → β} {input rest : List UInt8} {b : β} :
    (reader >>= fun a => pure (f a)).run input = .ok (b, rest) ↔
      ∃ a, reader.run input = .ok (a, rest) ∧ b = f a := by
  rw [run_bind_eq_ok]
  constructor
  · rintro ⟨a, middle, hfirst, hpure⟩
    obtain ⟨rfl, rfl⟩ := run_pure_eq_ok.mp hpure
    exact ⟨a, hfirst, rfl⟩
  · rintro ⟨a, hfirst, rfl⟩
    exact ⟨a, rest, hfirst, rfl⟩

@[simp] theorem run_byte_eq_ok {input rest : List UInt8} {b : UInt8} :
    byte.run input = .ok (b, rest) ↔ input = b :: rest := by
  cases input with
  | nil => simp [byte, run]
  | cons first tail => simp [byte, run]

theorem wordBytes_wordOfBytes (low high : UInt8) :
    wordBytes (wordOfBytes low high) = [low, high] := by
  have hlow := low.toNat_lt
  have hhigh := high.toNat_lt
  have hvalue : (wordOfBytes low high).toNat = low.toNat + 256 * high.toNat := by
    rw [wordOfBytes, UInt16.toNat_ofNat']
    omega
  have hfirst : (wordOfBytes low high).toUInt8 = low := by
    apply UInt8.toNat.inj
    rw [UInt16.toNat_toUInt8, hvalue]
    omega
  have hsecond : (wordOfBytes low high / 256).toUInt8 = high := by
    have hdivisor : (256 : UInt16).toNat = 256 := rfl
    apply UInt8.toNat.inj
    rw [UInt16.toNat_toUInt8, UInt16.toNat_div, hvalue, hdivisor]
    omega
  rw [wordBytes, hfirst, hsecond]

@[simp] theorem run_word_eq_ok {input rest : List UInt8} {w : UInt16} :
    word.run input = .ok (w, rest) ↔ input = wordBytes w ++ rest := by
  unfold word
  simp only [run_bind_eq_ok, run_byte_eq_ok, run_pure_eq_ok]
  constructor
  · rintro ⟨low, _, rfl, high, _, rfl, rfl, rfl⟩
    rw [wordBytes_wordOfBytes]
    rfl
  · rintro rfl
    exact ⟨_, _, rfl, _, _, rfl, (wordOfBytes_wordBytes w).symm, rfl⟩

@[simp] theorem run_signedByte_eq_ok {input rest : List UInt8} {b : Int8} :
    signedByte.run input = .ok (b, rest) ↔ input = b.toUInt8 :: rest := by
  unfold signedByte
  simp only [run_bind_eq_ok, run_byte_eq_ok, run_pure_eq_ok]
  constructor
  · rintro ⟨unsigned, _, rfl, rfl, rfl⟩
    rw [UInt8.toUInt8_toInt8]
  · rintro rfl
    exact ⟨_, _, rfl, (Int8.toInt8_toUInt8 b).symm, rfl⟩

@[simp] theorem run_signedWord_eq_ok {input rest : List UInt8} {w : Int16} :
    signedWord.run input = .ok (w, rest) ↔ input = wordBytes w.toUInt16 ++ rest := by
  unfold signedWord
  simp only [run_bind_eq_ok, run_word_eq_ok, run_pure_eq_ok]
  constructor
  · rintro ⟨unsigned, _, rfl, rfl, rfl⟩
    rw [UInt16.toUInt16_toInt16]
  · rintro rfl
    exact ⟨_, _, rfl, (Int16.toInt16_toUInt16 w).symm, rfl⟩

theorem run_word (w : UInt16) (rest : List UInt8) :
    word.run (wordBytes w ++ rest) = .ok (w, rest) :=
  run_word_eq_ok.mpr rfl

theorem run_signedByte (b : Int8) (rest : List UInt8) :
    signedByte.run (b.toUInt8 :: rest) = .ok (b, rest) :=
  run_signedByte_eq_ok.mpr rfl

theorem run_signedWord (w : Int16) (rest : List UInt8) :
    signedWord.run (wordBytes w.toUInt16 ++ rest) = .ok (w, rest) :=
  run_signedWord_eq_ok.mpr rfl

/-- Bytes behind those that a reader takes play no part. -/
theorem run_append_of_ok {reader : Reader α} {input rest : List UInt8} {a : α}
    (h : reader.run input = .ok (a, rest)) (tail : List UInt8) :
    reader.run (input ++ tail) = .ok (a, rest ++ tail) := by
  induction reader generalizing input with
  | done value =>
      cases h
      rfl
  | refuse => cases h
  | take next ih =>
      cases input with
      | nil => cases h
      | cons first input => exact ih first h

/-- A refusal is final. -/
theorem run_append_of_unassigned {reader : Reader α} {input : List UInt8}
    (h : reader.run input = .error .unassigned) (tail : List UInt8) :
    reader.run (input ++ tail) = .error .unassigned := by
  induction reader generalizing input with
  | done value => cases h
  | refuse => rfl
  | take next ih =>
      cases input with
      | nil => cases h
      | cons first input => exact ih first h

/-- A proper prefix of an input that is read to its end runs out of bytes. -/
theorem run_of_append {reader : Reader α} {input missing : List UInt8} {a : α}
    (h : reader.run (input ++ missing) = .ok (a, [])) (hmissing : missing ≠ []) :
    reader.run input = .error .truncated := by
  cases hrun : reader.run input with
  | ok step =>
      obtain ⟨a', rest⟩ := step
      rw [run_append_of_ok hrun missing] at h
      have hrest : rest ++ missing = [] := congrArg Prod.snd (Except.ok.inj h)
      exact absurd (List.append_eq_nil_iff.mp hrest).2 hmissing
  | error fault =>
      cases fault with
      | truncated => rfl
      | unassigned =>
          rw [run_append_of_unassigned hrun missing] at h
          cases h

/-- Some input is read to its end. -/
def Completable (reader : Reader α) : Prop :=
  ∃ input a, reader.run input = .ok (a, [])

/-- A reader that runs out of bytes only where more bytes can still complete a
value. -/
def Resumable (reader : Reader α) : Prop :=
  ∀ input, reader.run input = .error .truncated → ∃ tail a, reader.run (input ++ tail) = .ok (a, [])

theorem completable_pure (a : α) : Completable (pure a : Reader α) :=
  ⟨[], a, rfl⟩

theorem completable_byte : Completable byte :=
  ⟨[0], 0, rfl⟩

theorem completable_byte_bind {next : UInt8 → Reader β} (b : UInt8)
    (h : Completable (next b)) : Completable (byte >>= next) := by
  obtain ⟨input, value, hrun⟩ := h
  refine ⟨b :: input, value, ?_⟩
  exact run_bind_eq_ok.mpr ⟨b, input, rfl, hrun⟩

theorem completable_bind_pure {reader : Reader α} (h : Completable reader) (f : α → β) :
    Completable (reader >>= fun a => pure (f a)) := by
  obtain ⟨input, a, hrun⟩ := h
  exact ⟨input, f a, run_bind_of_ok _ hrun⟩

theorem completable_bind {reader : Reader α} {next : α → Reader β} (h : Completable reader)
    (hnext : ∀ a, Completable (next a)) : Completable (reader >>= next) := by
  obtain ⟨input, a, hrun⟩ := h
  obtain ⟨more, b, hmore⟩ := hnext a
  refine ⟨input ++ more, b, ?_⟩
  rw [run_bind_of_ok next (run_append_of_ok hrun more)]
  exact hmore

theorem completable_word : Completable word :=
  ⟨wordBytes 0, 0, run_word 0 []⟩

theorem completable_signedByte : Completable signedByte :=
  ⟨[0], 0, run_signedByte 0 []⟩

namespace Resumable

variable {reader : Reader α} {next : α → Reader β}

theorem of_pure (a : α) : Resumable (pure a : Reader α) := by
  intro input h
  cases h

theorem of_refuse : Resumable (refuse : Reader α) := by
  intro input h
  cases h

theorem of_byte : Resumable byte := by
  intro input h
  cases input with
  | nil => exact ⟨[0], 0, rfl⟩
  | cons first rest => cases h

/-- Sequencing needs the second reader only to succeed on some input, for
each value of the first that can still come about: the inputs that cut the
first one short are then completed by both. -/
theorem bind_of_reachable (hnext : ∀ a, (next a).Resumable)
    (hreach : ∀ input, reader.run input = .error .truncated →
      ∃ tail a, reader.run (input ++ tail) = .ok (a, []) ∧ Completable (next a)) :
    (reader >>= next).Resumable := by
  intro input h
  rcases run_bind_eq_error.mp h with hfirst | ⟨a, middle, hfirst, hsecond⟩
  · obtain ⟨tail, a, hrun, more, b, hmore⟩ := hreach input hfirst
    refine ⟨tail ++ more, b, ?_⟩
    rw [← List.append_assoc, run_bind_of_ok next (run_append_of_ok hrun more)]
    exact hmore
  · obtain ⟨tail, b, hrun⟩ := hnext a middle hsecond
    refine ⟨tail, b, ?_⟩
    rw [run_bind_of_ok next (run_append_of_ok hfirst tail)]
    exact hrun

theorem bind (hreader : reader.Resumable) (hnext : ∀ a, (next a).Resumable)
    (hcompletable : ∀ a, Completable (next a)) : (reader >>= next).Resumable := by
  apply bind_of_reachable hnext
  intro input h
  obtain ⟨tail, a, hrun⟩ := hreader input h
  exact ⟨tail, a, hrun, hcompletable a⟩

theorem bind_pure (hreader : reader.Resumable) (f : α → β) :
    (reader >>= fun a => pure (f a)).Resumable :=
  hreader.bind (fun a => of_pure (f a)) (fun a => completable_pure (f a))

/-- After a single byte it is enough that one value of it goes on. -/
theorem byte_bind {next : UInt8 → Reader β} (hnext : ∀ b, (next b).Resumable)
    (b : UInt8) (hcompletable : Completable (next b)) : (byte >>= next).Resumable := by
  apply bind_of_reachable hnext
  intro input h
  cases input with
  | nil => exact ⟨[b], b, rfl, hcompletable⟩
  | cons first rest => cases h

theorem of_word : Resumable word := by
  apply of_byte.bind
  · intro low
    exact of_byte.bind_pure (wordOfBytes low)
  · intro low
    exact completable_bind_pure completable_byte (wordOfBytes low)

theorem of_signedByte : Resumable signedByte :=
  of_byte.bind_pure UInt8.toInt8

theorem of_signedWord : Resumable signedWord :=
  of_word.bind_pure UInt16.toInt16

end Resumable

end M16C.Reader
