import M16C.Proofs.Word
import M16C.RegisterFile

/-!
The register file as byte storage. Each root has a word of four bytes, the
lowest first, and a register is a view of some of them. A write changes the
bytes of its view and nothing else, however views nest or overlap, so after any
history of writes a byte is the one that the last write over it put there. The
flags are apart from the bytes, and each has the value it was last given.
-/

namespace M16C

/-- Whether a byte of a root's storage lies in a view. -/
def View.Covers (view : View) (root : Root) (index : Nat) : Prop :=
  view.root = root ∧ view.offset ≤ index ∧ index < view.offset + view.width

instance (view : View) (root : Root) (index : Nat) : Decidable (view.Covers root index) :=
  inferInstanceAs (Decidable (_ ∧ _))

theorem Register.offset_lt (register : Register) : register.offset < 4 := by
  cases register <;> decide

theorem Register.offset_add_width_le (register : Register) :
    register.offset + register.width ≤ 4 := by
  cases register <;> decide

/-- A change to a register file by hand. -/
inductive Access where
  | write (register : Register) (value : UInt32)
  | setFlag (flag : Flag) (value : Bool)
  deriving DecidableEq, Repr

namespace Access

/-- The byte that an access puts at a place in storage, if it covers the place. -/
def stored? (root : Root) (index : Nat) : Access → Option UInt8
  | .write register value =>
      if register.view.Covers root index then some (byteAt value (index - register.view.offset))
      else none
  | .setFlag _ _ => none

/-- The value that an access gives a flag, if it sets that flag. -/
def flagged? (flag : Flag) : Access → Option Bool
  | .write _ _ => none
  | .setFlag other value => if other = flag then some value else none

end Access

namespace RegisterFile

/-- A byte of storage. -/
def byte (file : RegisterFile) (root : Root) (index : Nat) : UInt8 :=
  byteAt (file.slot root) index

/-- The bytes of a view, in storage order. -/
def bytes (file : RegisterFile) (view : View) : List UInt8 :=
  (List.range view.width).map fun index => file.byte view.root (view.offset + index)

def access (file : RegisterFile) : Access → RegisterFile
  | .write register value => file.write register value
  | .setFlag flag value => file.setFlag flag value

/-- The file after some accesses in turn. -/
def accessAll (file : RegisterFile) (accesses : List Access) : RegisterFile :=
  accesses.foldl access file

/-- A register file is its words and its flag register. -/
theorem eq_of_slots {file other : RegisterFile} (hslot : ∀ root, file.slot root = other.slot root)
    (hflg : file.flg = other.flg) : file = other := by
  cases file
  cases other
  simp only [mk.injEq]
  exact ⟨hslot .r2r0, hslot .r3r1, hslot .a1a0, hslot .fb, hslot .pc, hslot .sp, hslot .sb,
    hslot .intb, hflg⟩

theorem slot_write (file : RegisterFile) (register : Register) (value : UInt32) (root : Root) :
    (file.write register value).slot root =
      if root = register.root then
        (file.slot register.root &&& ~~~register.view.mask) |||
          ((value <<< UInt32.ofNat (8 * register.offset)) &&& register.view.mask)
      else file.slot root := by
  rw [write, slot_setSlot]

@[simp] theorem flg_write (file : RegisterFile) (register : Register) (value : UInt32) :
    (file.write register value).flg = file.flg := by
  rw [write, flg_setSlot]

@[simp] theorem flag_write (file : RegisterFile) (register : Register) (value : UInt32)
    (flag : Flag) : (file.write register value).flag flag = file.flag flag := by
  rw [RegisterFile.flag, flg_write, RegisterFile.flag]

theorem flags_write (file : RegisterFile) (register : Register) (value : UInt32) :
    (file.write register value).flag = file.flag := funext (file.flag_write register value)

/-- What a write does to each byte. -/
theorem byte_write (file : RegisterFile) (register : Register) (value : UInt32) (root : Root)
    (index : Nat) :
    (file.write register value).byte root index =
      if register.view.Covers root index then byteAt value (index - register.view.offset)
      else file.byte root index := by
  by_cases hroot : root = register.root
  · subst hroot
    have hcovers : register.view.Covers register.root index ↔
        register.offset ≤ index ∧ index < register.offset + register.width :=
      and_iff_right rfl
    rw [byte, slot_write, if_pos rfl, View.mask]
    simp only [hcovers]
    exact byteAt_replace register.offset_lt register.offset_add_width_le _ _ _
  · have hcovers : ¬ register.view.Covers root index := fun h => hroot h.1.symm
    rw [byte, slot_write, if_neg hroot, if_neg hcovers, byte]

/-- The four bytes of a root are all of its storage. -/
theorem toNat_slot (file : RegisterFile) (root : Root) :
    (file.slot root).toNat = littleEndian (file.bytes ⟨root, 0, 4⟩) := by
  have hbytes := littleEndian_bytes (file.slot root) 0 4
  rw [Nat.pow_zero, Nat.div_one, pow_256 4, Nat.mod_eq_of_lt (file.slot root).toNat_lt] at hbytes
  exact hbytes.symm

/-- A register shows the bytes of its view. -/
theorem toNat_read (file : RegisterFile) (register : Register) :
    (file.read register).toNat = littleEndian (file.bytes register.view) := by
  have hspan := toNat_span register.offset_lt register.offset_add_width_le
    (file.slot register.root)
  have hbytes := littleEndian_bytes (file.slot register.root) register.offset register.width
  rw [read, View.mask]
  exact hspan.trans hbytes.symm

/-- A register holds no more than its width. -/
theorem read_and_byteMask (file : RegisterFile) (register : Register) :
    file.read register &&& byteMask register.width = file.read register := by
  have hwidth : register.width ≤ 4 :=
    (Nat.le_add_left _ _).trans register.offset_add_width_le
  have hread : (file.read register).toNat =
      (file.slot register.root).toNat / 256 ^ register.offset % 256 ^ register.width :=
    toNat_span register.offset_lt register.offset_add_width_le _
  apply UInt32.toNat.inj
  rw [toNat_and_byteMask_of_le hwidth, hread, pow_256 register.width, Nat.mod_mod]

/-- A register shows what was last written to it, cut to its width. -/
theorem read_write_self (file : RegisterFile) (register : Register) (value : UInt32) :
    (file.write register value).read register = value &&& byteMask register.width := by
  have hwidth : register.width ≤ 4 :=
    (Nat.le_add_left _ _).trans register.offset_add_width_le
  have hbytes : (file.write register value).bytes register.view =
      (List.range register.width).map fun index => byteAt value (0 + index) := by
    apply List.map_congr_left
    intro index hindex
    have hcovers : register.view.Covers register.view.root (register.view.offset + index) :=
      ⟨rfl, Nat.le_add_right _ _, Nat.add_lt_add_left (List.mem_range.mp hindex) _⟩
    rw [byte_write, if_pos hcovers, Nat.add_sub_cancel_left, Nat.zero_add]
  apply UInt32.toNat.inj
  rw [toNat_read, hbytes, littleEndian_bytes, Nat.pow_zero, Nat.div_one, pow_256,
    toNat_and_byteMask_of_le hwidth]

theorem byte_access (root : Root) (index : Nat) (file : RegisterFile) (access : Access) :
    (file.access access).byte root index =
      (access.stored? root index).getD (file.byte root index) := by
  cases access with
  | write register value =>
      rw [RegisterFile.access, byte_write, Access.stored?]
      split <;> rfl
  | setFlag flag value =>
      rw [RegisterFile.access, byte, slot_setFlag, Access.stored?]
      rfl

theorem flag_access (flag : Flag) (file : RegisterFile) (access : Access) :
    (file.access access).flag flag = (access.flagged? flag).getD (file.flag flag) := by
  cases access with
  | write register value =>
      rw [RegisterFile.access, flag_write, Access.flagged?]
      rfl
  | setFlag other value =>
      rw [RegisterFile.access, flag_setFlag, Access.flagged?]
      by_cases hflag : flag = other
      · rw [if_pos hflag, if_pos hflag.symm]
        rfl
      · rw [if_neg hflag, if_neg (Ne.symm hflag)]
        rfl

/-- When each access either replaces what is observed or leaves it alone, the
last replacement stands after all of them. -/
theorem observe_accessAll {α : Type} (observe : RegisterFile → α) {effect : Access → Option α}
    (hstep : ∀ file access, observe (file.access access) = (effect access).getD (observe file))
    (file : RegisterFile) (accesses : List Access) :
    observe (file.accessAll accesses) =
      (accesses.reverse.findSome? effect).getD (observe file) := by
  induction accesses generalizing file with
  | nil => rfl
  | cons access accesses ih =>
      have hlast : [access].findSome? effect = effect access := by
        rw [List.findSome?_cons]
        cases effect access <;> rfl
      rw [List.reverse_cons, List.findSome?_append, Option.getD_or, hlast, ← hstep, ← ih]
      rfl

/-- Any history of writes and flag changes. Storage is four bytes for each root.
A byte is the one that the last write over it stored, or the one that was there
before; a register shows the bytes of its view; a flag has the value that it
was last given, or the one it had. Writes leave the flags alone, and flag
changes the storage. -/
theorem accessAll_bytewise (file : RegisterFile) (accesses : List Access) :
    (∀ root, ((file.accessAll accesses).slot root).toNat =
      littleEndian ((file.accessAll accesses).bytes ⟨root, 0, 4⟩)) ∧
    (∀ root index, (file.accessAll accesses).byte root index =
      (accesses.reverse.findSome? (Access.stored? root index)).getD (file.byte root index)) ∧
    (∀ register, ((file.accessAll accesses).read register).toNat =
      littleEndian ((file.accessAll accesses).bytes register.view)) ∧
    (∀ flag, (file.accessAll accesses).flag flag =
      (accesses.reverse.findSome? (Access.flagged? flag)).getD (file.flag flag)) ∧
    (∀ register value, ((file.accessAll accesses).write register value).flg =
      (file.accessAll accesses).flg) ∧
    (∀ flag value root, ((file.accessAll accesses).setFlag flag value).slot root =
      (file.accessAll accesses).slot root) := by
  refine ⟨?_, ?_, ?_, ?_, ?_, ?_⟩
  · intro root
    exact toNat_slot _ root
  · intro root index
    exact observe_accessAll (·.byte root index) (byte_access root index) file accesses
  · intro register
    exact toNat_read _ register
  · intro flag
    exact observe_accessAll (·.flag flag) (flag_access flag) file accesses
  · intro register value
    exact flg_write _ register value
  · intro flag value root
    exact slot_setFlag _ flag value root

end RegisterFile

end M16C
