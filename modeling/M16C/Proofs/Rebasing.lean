import M16C.Proofs.Sweep

/-!
Decoding the same bytes at another address. The target of a relative branch
moves with the address, modulo the space; nothing else that decoding returns
depends on the address, neither whether there is an instruction nor why there
is none. Two sweeps of one image therefore keep in step from any two bases, and
bits of the base above the address space play no part at all.
-/

namespace M16C

namespace Address

/-- The address that is as far from `new` as `target` is from `old`, modulo the
space. -/
def moved (target old new : Address) : Address :=
  UInt32.ofNat ((target.toNat + new.toNat - old.toNat) % space : Int).toNat

theorem toNat_moved (target old new : Address) :
    ((moved target old new).toNat : Int) = (target.toNat + new.toNat - old.toNat) % space := by
  unfold moved space
  rw [UInt32.toNat_ofNat', Nat.mod_eq_of_lt (by omega)]
  omega

/-- A distance leads to the moved target from the new address. -/
theorem moved_relative (old new base : Address) (distance : Int) :
    moved (relative old base distance) old new = relative new base distance := by
  have hold := toNat_relative old base distance
  have hnew := toNat_relative new base distance
  have hmoved := toNat_moved (relative old base distance) old new
  apply UInt32.toNat.inj
  unfold space at *
  omega

end Address

/-- The cause of a failure as told at another address. -/
def DecodeError.rebased (new : Address) : DecodeError → DecodeError
  | .invalidOpcode opcode _ => .invalidOpcode opcode new
  | .truncated needed available => .truncated needed available

namespace Instruction

/-- The instruction at `new` that has the bytes of this one at `old`: relative
branches move their targets, absolute ones keep them. -/
def rebased (old new : Address) : Instruction → Instruction
  | .jmp .absolute target => .jmp .absolute target
  | .jmp distance target => .jmp distance (target.moved old new)
  | .jsr .absolute target => .jsr .absolute target
  | .jsr .word target => .jsr .word (target.moved old new)
  | .jcnd condition target => .jcnd condition (target.moved old new)
  | other => other

theorem length_rebased (old new : Address) (instruction : Instruction) :
    (instruction.rebased old new).length = instruction.length := by
  cases instruction with
  | jmp distance target => cases distance <;> rfl
  | jsr distance target => cases distance <;> rfl
  | _ => rfl

/-- What follows an opcode is read alike at both addresses. The readers differ
only in the value they return at the end. -/
theorem map_rebased_readAfter (old new : Address) (opcode : Opcode) :
    rebased old new <$> readAfter old opcode = readAfter new opcode := by
  have hrefuse : rebased old new <$> (Reader.refuse : Reader Instruction) = Reader.refuse := rfl
  cases opcode with
  | brk | nop | rts | reit | und | push | pop => rfl
  | jmpShort distance => simp only [readAfter, map_pure, rebased, Address.moved_relative]
  | jmpByte | jmpWord | jsrWord | branch =>
      simp only [readAfter, map_bind, map_pure, rebased, Address.moved_relative]
  | jmpAbsolute | jsrAbsolute | movG | quick | movS | movZ =>
      simp only [readAfter, map_bind, map_pure, rebased]
  | framePage => simp only [readAfter, map_bind, map_pure, rebased, apply_ite, hrefuse]
  | controlPage =>
      -- Of what the second byte selects, only a branch knows the address.
      simp only [readAfter, map_bind]
      congr 1
      funext second
      split
      · rfl
      split
      · rfl
      split
      · simp only [map_bind, map_pure, rebased, Address.moved_relative]
      · rfl
  | flagPage =>
      simp only [readAfter, map_bind]
      congr 1
      funext second
      split
      · rfl
      split
      · split
        · rfl
        split <;> rfl
      · rfl
  | movImm size =>
      cases size <;> simp only [readAfter, map_bind, map_pure, rebased, apply_ite, hrefuse]

theorem map_rebased_read (old new : Address) :
    rebased old new <$> read old = read new := by
  unfold read
  rw [map_bind]
  congr 1
  funext first
  unfold readFrom
  split
  · exact map_rebased_readAfter old new _
  · rfl

/-- Decoding at `new`, from what decoding at `old` gives. -/
theorem decode_rebased (bytes : List UInt8) (old new : Address) :
    decode bytes new = match decode bytes old with
      | .ok instruction => .ok (instruction.rebased old new)
      | .error cause => .error (cause.rebased new) := by
  rw [decode_eq bytes new, decode_eq bytes old, ← map_rebased_read old new, Reader.run_map]
  cases (read old).run bytes with
  | ok step => rfl
  | error fault => cases fault <;> rfl

end Instruction

namespace Row

open Instruction (decode decode_rebased length_rebased)

/-- What of a row depends neither on where it stands nor on how it is shown. -/
def shape (row : Row) : Nat × List UInt8 × Bool := (row.length, row.bytes, row.isInvalid)

theorem Describes.shape_eq {row other : Row} {display otherDisplay : Display}
    {here there : Address} {bytes : List UInt8} (hrow : row.Describes display here bytes)
    (hother : other.Describes otherDisplay there bytes) : row.shape = other.shape := by
  have hthere := decode_rebased bytes here there
  have hagree : row.length = other.length ∧ row.isInvalid = other.isInvalid := by
    cases hhere : decode bytes here with
    | ok instruction =>
        rw [hhere] at hthere
        obtain ⟨hvalid, hlength, _⟩ := hrow.valid _ hhere
        obtain ⟨hotherValid, hotherLength, _⟩ := hother.valid _ hthere
        rw [length_rebased] at hotherLength
        exact ⟨hlength.trans hotherLength.symm, hvalid.trans hotherValid.symm⟩
    | error cause =>
        rw [hhere] at hthere
        obtain ⟨hinvalid, hlength, _⟩ := hrow.invalid _ hhere
        obtain ⟨hotherInvalid, hotherLength, _⟩ := hother.invalid _ hthere
        exact ⟨hlength.trans hotherLength.symm, hinvalid.trans hotherInvalid.symm⟩
  unfold shape
  rw [hrow.bytes_eq, hother.bytes_eq, hagree.1, hagree.2]

/-- Rows over the same bytes keep in step: each pair covers as many bytes, so
that the next pair starts at the same bytes again. -/
theorem Tiles.map_shape_eq {display : Display} {here there : Address} {bytes : List UInt8}
    {rows others : List Row} (hrows : Tiles display here bytes rows)
    (hothers : Tiles display there bytes others) : rows.map shape = others.map shape := by
  induction hrows generalizing there others with
  | nil here => rw [hothers.eq_nil]
  | cons first later ih =>
      obtain ⟨other, rest, rfl, hfirst, hlater⟩ := hothers.exists_cons first.ne_nil
      have hshape := first.shape_eq hfirst
      have hlength := congrArg Prod.fst hshape
      simp only [shape] at hlength
      rw [← hlength] at hlater
      rw [List.map_cons, List.map_cons, hshape, ih hlater]

theorem sweep_wrap (image : List UInt8) (base : Address) (display : Display) :
    sweep image (Address.wrap base) display = sweep image base display := by
  unfold sweep
  rw [Address.wrap_of_le_last (Address.wrap_le_last base)]

/-- Another address moves the targets of relative branches and changes nothing
else. Bytes that decode at one address decode at every other, to the rebased
instruction; bytes that do not decode fail for the same cause, told at the
other address. Sweeps from two bases have rows of the same lengths, bytes and
validity, and a base counts modulo the address space. -/
theorem rebase_moves_relative_targets (bytes : List UInt8) (old new : Address)
    (image : List UInt8) (base other : Address) (display : Display) :
    ((∃ instruction, decode bytes old = .ok instruction) ↔
      ∃ instruction, decode bytes new = .ok instruction) ∧
    (∀ instruction, decode bytes old = .ok instruction →
      decode bytes new = .ok (instruction.rebased old new)) ∧
    (∀ needed available, decode bytes old = .error (.truncated needed available) →
      decode bytes new = .error (.truncated needed available)) ∧
    (∀ opcode place, decode bytes old = .error (.invalidOpcode opcode place) →
      place = old ∧ decode bytes new = .error (.invalidOpcode opcode new)) ∧
    (sweep image base display).result.map (fun row => (row.length, row.bytes, row.isInvalid)) =
      (sweep image other display).result.map (fun row => (row.length, row.bytes, row.isInvalid)) ∧
    sweep image base display =
      sweep image (UInt32.ofNat (base.toNat % Address.space)) display := by
  have hnew := decode_rebased bytes old new
  refine ⟨?_, ?_, ?_, ?_, ?_, ?_⟩
  · cases hold : decode bytes old with
    | ok instruction =>
        rw [hold] at hnew
        exact iff_of_true ⟨_, rfl⟩ ⟨_, hnew⟩
    | error cause =>
        rw [hold] at hnew
        rw [hnew]
        simp
  · intro instruction hold
    rw [hnew, hold]
  · intro needed available hold
    rw [hnew, hold]
    rfl
  · intro opcode place hold
    refine ⟨(Instruction.decode_eq_invalidOpcode_iff.mp hold).2.2, ?_⟩
    rw [hnew, hold]
    rfl
  · exact (tiles_sweep image base display).map_shape_eq (tiles_sweep image other display)
  · rw [Address.ofNat_mod_space, sweep_wrap]

/-- `JSR.W` far back from address 0x10, and the same bytes at the top of the
address space: the target moves across the wrap. -/
theorem rebase_moves_relative_targets_jsrWord :
    decode [0xF5, 0x00, 0x80] 0x10 = .ok (.jsr .word 0xF8011) ∧
      decode [0xF5, 0x00, 0x80] 0xFFFFFFFF = .ok (.jsr .word 0xF8000) := by
  have hold : decode [0xF5, 0x00, 0x80] 0x10 = .ok (.jsr .word 0xF8011) := by rfl
  have hnew := (rebase_moves_relative_targets _ 0x10 0xFFFFFFFF [] 0 0 {}).2.1 _ hold
  exact ⟨hold, hnew.trans (by rfl)⟩

end Row

end M16C
