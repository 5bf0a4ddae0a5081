import M16C.Proofs.Gateways
import M16C.Row

/-!
A sweep tiles its image. Rows cover the bytes from the first to the last
without gap or overlap, at addresses that count modulo the address space. Each
row says what decoding all of the remaining bytes says: the clip to a window
hides nothing, because six bytes decide every instruction. What a sweep decodes
also encodes back, so it has no failed round trip to tell.
-/

namespace M16C

open Instruction (decode)

theorem Instruction.length_le_maxLength (instruction : Instruction) :
    instruction.length ≤ maxLength := by
  have hsix := instruction.length_bounds.2
  have hmax : maxLength = 8 := rfl
  omega

namespace Row

/-- The sum of the lengths of rows. -/
def covered : List Row → Nat
  | [] => 0
  | row :: rows => row.length + covered rows

theorem covered_append (first second : List Row) :
    covered (first ++ second) = covered first + covered second := by
  induction first with
  | nil => exact (Nat.zero_add _).symm
  | cons row rows ih =>
      rw [List.cons_append, covered, covered, ih, Nat.add_assoc]

theorem covered_take_succ {rows : List Row} {k : Nat} {row : Row} (h : rows[k]? = some row) :
    covered (rows.take (k + 1)) = covered (rows.take k) + row.length := by
  rw [List.take_add_one, h, covered_append]
  rfl

/-- What a row says about the bytes it stands in front of. -/
structure Describes (row : Row) (display : Display) (address : Address) (bytes : List UInt8) :
    Prop where
  address_eq : row.address = address
  one_le_length : 1 ≤ row.length
  length_le : row.length ≤ (bytes.take Instruction.maxLength).length
  bytes_eq : row.bytes = bytes.take row.length
  valid : ∀ instruction, decode bytes address = .ok instruction →
    row.isInvalid = false ∧ row.length = instruction.length ∧
      row.text = Token.lineText (instruction.render display)
  invalid : ∀ cause, decode bytes address = .error cause →
    row.isInvalid = true ∧ row.length = 1 ∧
      ∃ byte, bytes.head? = some byte ∧ row.text = ".byte " ++ Hex.byte byte

namespace Describes

variable {row : Row} {display : Display} {address : Address} {bytes : List UInt8}

theorem isInvalid_eq_false_iff (h : row.Describes display address bytes) :
    row.isInvalid = false ↔ ∃ instruction, decode bytes address = .ok instruction := by
  constructor
  · intro hvalid
    cases hdecode : decode bytes address with
    | ok instruction => exact ⟨instruction, rfl⟩
    | error cause =>
        rw [(h.invalid cause hdecode).1] at hvalid
        cases hvalid
  · rintro ⟨instruction, hdecode⟩
    exact (h.valid instruction hdecode).1

theorem of_isInvalid (h : row.Describes display address bytes) (hinvalid : row.isInvalid = true) :
    row.length = 1 ∧ ∃ byte, bytes.head? = some byte ∧ row.text = ".byte " ++ Hex.byte byte := by
  cases hdecode : decode bytes address with
  | ok instruction =>
      rw [(h.valid instruction hdecode).1] at hinvalid
      cases hinvalid
  | error cause => exact (h.invalid cause hdecode).2

theorem ne_nil (h : row.Describes display address bytes) : bytes ≠ [] := by
  rintro rfl
  exact absurd (Nat.le_trans h.one_le_length h.length_le) (Nat.not_succ_le_zero 0)

theorem length_le_bytes (h : row.Describes display address bytes) :
    row.length ≤ bytes.length := by
  have hfits := h.length_le
  rw [List.length_take] at hfits
  omega

theorem length_eq (h : row.Describes display address bytes) : row.length = row.bytes.length := by
  rw [h.bytes_eq, List.length_take_of_le h.length_le_bytes]

end Describes

/-- Rows that follow each other over some bytes until none are left. -/
inductive Tiles (display : Display) : Address → List UInt8 → List Row → Prop
  | nil (address : Address) : Tiles display address [] []
  | cons {address : Address} {bytes : List UInt8} {row : Row} {rows : List Row}
      (first : row.Describes display address bytes)
      (later : Tiles display (Address.following address row.length) (bytes.drop row.length) rows) :
      Tiles display address bytes (row :: rows)

theorem here_of_decode_ok {first : UInt8} {rest : List UInt8} {address : Address}
    {instruction : Instruction} (display : Display)
    (h : decode (first :: rest) address = .ok instruction) :
    here first rest address display =
      ⟨{ address, length := instruction.length, bytes := (first :: rest).take instruction.length,
         text := Token.lineText (instruction.render display), isInvalid := false }, []⟩ := by
  simp only [here, Gateway.text_take_maxLength, Gateway.text_of_decode_ok display h, Logged.map,
    List.take_take]
  rw [Nat.min_eq_left instruction.length_le_maxLength]

theorem here_of_decode_error {first : UInt8} {rest : List UInt8} {address : Address}
    {cause : DecodeError} (display : Display)
    (h : decode (first :: rest) address = .error cause) :
    here first rest address display = ⟨ofByte first address, [.undecodable cause]⟩ := by
  simp only [here, Gateway.text_take_maxLength, Gateway.text_of_decode_error display h, Logged.map]

/-- One step of a sweep. -/
theorem describes_here (first : UInt8) (rest : List UInt8) (address : Address)
    (display : Display) :
    (here first rest address display).result.Describes display address (first :: rest) := by
  cases hdecode : decode (first :: rest) address with
  | ok instruction =>
      obtain ⟨_, hfits, _, _⟩ := Instruction.of_decode_eq_ok hdecode
      rw [here_of_decode_ok display hdecode]
      refine ⟨rfl, instruction.length_bounds.1, ?_, rfl, ?_, ?_⟩
      · rw [List.length_take]
        exact Nat.le_min.mpr ⟨instruction.length_le_maxLength, hfits⟩
      · intro other hother
        cases hdecode.symm.trans hother
        exact ⟨rfl, rfl, rfl⟩
      · intro cause hcause
        cases hdecode.symm.trans hcause
  | error cause =>
      have hclip : 1 ≤ Instruction.maxLength := by decide
      rw [here_of_decode_error display hdecode]
      refine ⟨rfl, Nat.le_refl 1, ?_, rfl, ?_, ?_⟩
      · rw [List.length_take]
        exact Nat.le_min.mpr ⟨hclip, Nat.le_add_left 1 rest.length⟩
      · intro instruction hinstruction
        cases hdecode.symm.trans hinstruction
      · intro _ _
        exact ⟨rfl, rfl, first, rfl, rfl⟩

/-- All steps of a sweep. The bytes that still belong to a row already there
are skipped one at a time, and the address counts with them. -/
theorem tiles_sweepFrom (display : Display) (pending : Nat) {address : Address}
    (haddress : address ≤ Address.last) (bytes : List UInt8) :
    Tiles display (Address.following address pending) (bytes.drop pending)
      (sweepFrom display pending address bytes).result := by
  induction bytes generalizing pending address with
  | nil =>
      rw [sweepFrom_nil, List.drop_nil]
      exact .nil _
  | cons first rest ih =>
      have hnext : Address.following address 1 ≤ Address.last :=
        Address.following_le_last address 1
      cases pending with
      | zero =>
          have hrow := describes_here first rest address display
          obtain ⟨length, hlength⟩ : ∃ length,
              (here first rest address display).result.length = length + 1 :=
            ⟨_, (Nat.sub_add_cancel hrow.one_le_length).symm⟩
          have hlater := ih length hnext
          rw [Address.following_following, Nat.add_comm 1 length] at hlater
          rw [Address.following_zero haddress]
          apply Tiles.cons hrow
          rw [hlength]
          exact hlater
      | succ pending =>
          have hlater := ih pending hnext
          rw [Address.following_following, Nat.add_comm 1 pending] at hlater
          exact hlater

namespace Tiles

variable {display : Display} {address : Address} {bytes : List UInt8} {rows : List Row}

theorem flatMap_bytes (h : Tiles display address bytes rows) :
    rows.flatMap Row.bytes = bytes := by
  induction h with
  | nil address => rfl
  | cons first later ih =>
      rw [List.flatMap_cons, ih, first.bytes_eq, List.take_append_drop]

theorem length_le (h : Tiles display address bytes rows) : rows.length ≤ bytes.length := by
  induction h with
  | nil address => exact Nat.le_refl 0
  | cons first later ih =>
      have hpositive := first.one_le_length
      have hfits := first.length_le_bytes
      rw [List.length_drop] at ih
      rw [List.length_cons]
      omega

theorem eq_nil (h : Tiles display address [] rows) : rows = [] :=
  List.eq_nil_of_length_eq_zero (Nat.le_zero.mp h.length_le)

theorem exists_cons (h : Tiles display address bytes rows) (hbytes : bytes ≠ []) :
    ∃ row later, rows = row :: later ∧ row.Describes display address bytes ∧
      Tiles display (Address.following address row.length) (bytes.drop row.length) later := by
  cases h with
  | nil => exact absurd rfl hbytes
  | cons first later => exact ⟨_, _, rfl, first, later⟩

/-- A row describes the bytes behind those of the rows before it. -/
theorem describes (h : Tiles display address bytes rows) (haddress : address ≤ Address.last)
    {k : Nat} {row : Row} (hrow : rows[k]? = some row) :
    row.Describes display (Address.following address (covered (rows.take k)))
      (bytes.drop (covered (rows.take k))) := by
  induction h generalizing k with
  | nil address => cases hrow
  | @cons address bytes head rows first later ih =>
      cases k with
      | zero =>
          cases hrow
          rw [List.take_zero, covered, Address.following_zero haddress]
          exact first
      | succ k =>
          have htail := ih (Address.following_le_last address head.length) hrow
          rw [Address.following_following, List.drop_drop] at htail
          rw [List.take_succ_cons, covered]
          exact htail

/-- A row starts where the one before it ends. -/
theorem address_succ (h : Tiles display address bytes rows) (haddress : address ≤ Address.last)
    {k : Nat} {row later : Row} (hrow : rows[k]? = some row) (hlater : rows[k + 1]? = some later) :
    later.address = Address.following row.address row.length := by
  rw [(h.describes haddress hlater).address_eq, (h.describes haddress hrow).address_eq,
    covered_take_succ hrow, Address.following_following]

end Tiles

theorem tiles_sweep (image : List UInt8) (base : Address) (display : Display) :
    Tiles display (Address.wrap base) image (sweep image base display).result := by
  have hbase : Address.wrap base ≤ Address.last := Address.wrap_le_last base
  have htiles := tiles_sweepFrom display 0 hbase image
  rw [Address.following_zero hbase] at htiles
  exact htiles

theorem describes_sweep {image : List UInt8} {base : Address} {display : Display} {k : Nat}
    {row : Row} (hrow : (sweep image base display).result[k]? = some row) :
    row.Describes display row.address
      (image.drop (covered ((sweep image base display).result.take k))) := by
  have h := (tiles_sweep image base display).describes (Address.wrap_le_last base) hrow
  rw [← h.address_eq] at h
  exact h

theorem address_le_last_sweep {image : List UInt8} {base : Address} {display : Display} {k : Nat}
    {row : Row} (hrow : (sweep image base display).result[k]? = some row) :
    row.address ≤ Address.last := by
  rw [((tiles_sweep image base display).describes (Address.wrap_le_last base) hrow).address_eq]
  exact Address.following_le_last _ _

end Row

end M16C
