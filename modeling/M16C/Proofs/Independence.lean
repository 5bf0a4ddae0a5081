import M16C.Proofs.Effects

/-!
Operations that do not meet. An operation reads the bytes and flags that its
value mentions, and writes the bytes of its destination and the flags of its
class. Registers alias, so both are counted in bytes of storage and not in
register names: `R0H` and `R2` share a word and no byte, `R0H` and `R0` share a
byte. When neither of two operations writes what the other reads or writes,
their order does not matter, although each evaluates its operands twice and the
second time with flags that it has set itself.
-/

namespace M16C

open Il

/-- A place in a register file: a byte in the storage of a root, or a flag. -/
inductive Cell where
  | byte (root : Root) (index : Nat)
  | flag (flag : Flag)
  deriving DecidableEq, Repr

def View.cells (view : View) : List Cell :=
  (List.range view.width).map fun index => .byte view.root (view.offset + index)

theorem View.mem_cells_iff {view : View} {root : Root} {index : Nat} :
    .byte root index ∈ view.cells ↔ view.Covers root index := by
  simp only [cells, List.mem_map, List.mem_range, Cell.byte.injEq, Covers]
  constructor
  · rintro ⟨place, hplace, hroot, rfl⟩
    exact ⟨hroot, Nat.le_add_right _ _, Nat.add_lt_add_left hplace _⟩
  · rintro ⟨hroot, hfirst, hlast⟩
    exact ⟨index - view.offset, by omega, hroot, by omega⟩

theorem Flag.eq_of_isSet {flg other : UInt8} (h : ∀ flag : Flag, flag.isSet flg = flag.isSet other) :
    flg = other := by
  have hbits : ∀ i < 8, ∃ flag ∈ Flag.all, flag.bit.toNat = i := by decide
  apply UInt8.toBitVec_inj.mp
  apply BitVec.eq_of_getLsbD_eq
  intro i hi
  obtain ⟨flag, _, rfl⟩ := hbits i hi
  rw [← Flag.isSet_eq_getLsbD, ← Flag.isSet_eq_getLsbD, h]

namespace Il

/-- The bytes of the registers, and the flags, that an expression mentions. -/
def Expr.cells (expr : Expr) : List Cell :=
  expr.registers.flatMap (·.view.cells) ++ expr.flags.map .flag

namespace Op

/-- The register that an operation writes. -/
def dest? : Op → Option Register
  | .setRegister dest _ _ => some dest
  | .store .. | .setFlag .. | .eval .. | .push .. | .jump _ | .call _ | .return | .branch ..
  | .trap _ | .breakpoint | .intrinsic _ | .nop | .undefined => none

/-- What an operation reads: everything that its value mentions. -/
def readCells (op : Op) : List Cell := op.value?.elim [] Expr.cells

/-- What an operation writes: the bytes of its destination, and the flags of its
class or the one that it sets. -/
def writtenCells (op : Op) : List Cell :=
  op.dest?.elim [] (·.view.cells) ++ op.writtenFlags.map .flag

/-- The operation writes nothing that the other reads or writes. -/
def Spares (op other : Op) : Prop :=
  ∀ cell ∈ op.writtenCells, cell ∉ other.readCells ∧ cell ∉ other.writtenCells

instance (op other : Op) : Decidable (op.Spares other) :=
  inferInstanceAs (Decidable (∀ cell ∈ _, _))

/-- Neither operation writes what the other reads or writes. -/
def Independent (op other : Op) : Prop := op.Spares other ∧ other.Spares op

instance (op other : Op) : Decidable (op.Independent other) :=
  inferInstanceAs (Decidable (_ ∧ _))

end Op

end Il

namespace RegisterFile

def contents (file : RegisterFile) : Cell → UInt8 ⊕ Bool
  | .byte root index => .inl (file.byte root index)
  | .flag flag => .inr (file.flag flag)

/-- Two files with the same contents in some places. -/
def SameOn (cells : List Cell) (file other : RegisterFile) : Prop :=
  ∀ cell ∈ cells, file.contents cell = other.contents cell

/-- The contents of all places are the whole file. -/
theorem eq_of_contents {file other : RegisterFile}
    (h : ∀ cell, file.contents cell = other.contents cell) : file = other := by
  apply eq_of_slots
  · intro root
    have hbyte (index : Nat) : file.byte root index = other.byte root index :=
      Sum.inl.inj (h (.byte root index))
    apply UInt32.toNat.inj
    rw [toNat_slot, toNat_slot, bytes, bytes]
    simp only [hbyte]
  · exact Flag.eq_of_isSet fun flag => Sum.inr.inj (h (.flag flag))

namespace SameOn

variable {cells : List Cell} {file other : RegisterFile}

theorem flag_eq (h : SameOn cells file other) {flag : Flag} (hflag : .flag flag ∈ cells) :
    file.flag flag = other.flag flag := Sum.inr.inj (h _ hflag)

theorem byte_eq (h : SameOn cells file other) {root : Root} {index : Nat}
    (hbyte : .byte root index ∈ cells) : file.byte root index = other.byte root index :=
  Sum.inl.inj (h _ hbyte)

/-- A register is read off the bytes of its view. -/
theorem read_eq (h : SameOn cells file other) {register : Register}
    (hview : ∀ cell ∈ register.view.cells, cell ∈ cells) :
    file.read register = other.read register := by
  have hbytes : file.bytes register.view = other.bytes register.view := by
    apply List.map_congr_left
    intro index hindex
    exact h.byte_eq (hview _ (List.mem_map_of_mem hindex))
  apply UInt32.toNat.inj
  rw [toNat_read, toNat_read, hbytes]

/-- The same change to both files puts the same into a place, or leaves it. -/
theorem stable : Stable (SameOn cells) where
  setFlag := by
    intro file other h flag value cell hcell
    cases cell with
    | byte root index =>
        have hbyte := h.byte_eq hcell
        simpa only [contents, byte, slot_setFlag] using congrArg Sum.inl hbyte
    | flag shown => simp only [contents, flag_setFlag, h.flag_eq hcell]
  write := by
    intro file other h register value cell hcell
    cases cell with
    | byte root index => simp only [contents, byte_write, h.byte_eq hcell]
    | flag shown => simp only [contents, flag_write, h.flag_eq hcell]

theorem sees {expr : Expr} (hexpr : ∀ cell ∈ expr.cells, cell ∈ cells) :
    Sees (SameOn cells) expr := by
  simp only [Expr.cells, List.forall_mem_append, List.mem_flatMap, List.forall_mem_map] at hexpr
  obtain ⟨hregisters, hflags⟩ := hexpr
  intro file other h
  refine ⟨?_, fun flag hflag => h.flag_eq (hflags flag hflag)⟩
  intro register hregister
  exact h.read_eq fun cell hcell => hregisters cell ⟨register, hregister, hcell⟩

/-- What an operation does in some places is found there, as long as they hold
all that it reads. -/
theorem apply {op : Op} (hop : ∀ cell ∈ op.readCells, cell ∈ cells) (h : SameOn cells file other) :
    (file.apply op).1 = (other.apply op).1 ∧
      SameOn cells (file.apply op).2 (other.apply op).2 := by
  refine stable.apply ?_ h
  intro value hvalue
  rw [Op.readCells, hvalue] at hop
  exact sees hop

end SameOn

/-- What is outside of the cells that an operation writes stays as it is. -/
theorem Performs.contents_eq {file after : RegisterFile} {op : Op} (h : file.Performs op after)
    {cell : Cell} (hother : cell ∉ op.writtenCells) : after.contents cell = file.contents cell := by
  simp only [Op.writtenCells, List.mem_append, not_or] at hother
  obtain ⟨hbytes, hflags⟩ := hother
  cases cell with
  | flag flag =>
      refine congrArg Sum.inr (h.flag_eq fun hflag => hflags ?_)
      exact List.mem_map_of_mem hflag
  | byte root index =>
      apply congrArg Sum.inl
      cases h with
      | setRegister dest flags hvalue =>
          have hcovers : ¬ dest.view.Covers root index := fun h => hbytes (View.mem_cells_iff.mpr h)
          rw [byte_write, if_neg hcovers, byte, slot_updateFlags, byte]
      | setFlag flag value => rw [byte, slot_setFlag, byte]
      | eval flags hvalue => rw [byte, slot_updateFlags, byte]
      | nop => rfl

theorem contents_apply (file : RegisterFile) {op : Op} {cell : Cell}
    (hother : cell ∉ op.writtenCells) :
    (file.apply op).2.contents cell = file.contents cell := by
  by_cases hstays : op.StaysInRegisters
  · exact (file.apply_of_staysInRegisters hstays).2.contents_eq hother
  · rw [file.apply_of_not_staysInRegisters hstays]

/-- An operation does the same, where it acts at all, before and after one that
spares it. -/
theorem apply_of_spares (file : RegisterFile) {op other : Op} (h : other.Spares op) :
    ((file.apply other).2.apply op).1 = (file.apply op).1 ∧
      SameOn op.writtenCells ((file.apply other).2.apply op).2 (file.apply op).2 := by
  have hsame : SameOn (op.readCells ++ op.writtenCells) (file.apply other).2 file := by
    intro cell hcell
    refine file.contents_apply fun hwritten => ?_
    obtain ⟨hread, hwrite⟩ := h cell hwritten
    rcases List.mem_append.mp hcell with hcell | hcell
    · exact hread hcell
    · exact hwrite hcell
  obtain ⟨happlied, hafter⟩ := hsame.apply fun cell hcell => List.mem_append_left _ hcell
  exact ⟨happlied, fun cell hcell => hafter cell (List.mem_append_right _ hcell)⟩

theorem applyAll_pair (file : RegisterFile) (op other : Op) :
    file.applyAll [op, other] =
      ([(file.apply op).1, ((file.apply op).2.apply other).1],
        ((file.apply op).2.apply other).2) := rfl

/-- Independent operations commute. If neither of two operations writes a byte
or a flag that the other reads or writes, both orders carry out the same of the
two and end in the same file. -/
theorem applyAll_comm_of_independent (file : RegisterFile) (op other : Op)
    (h : op.Independent other) :
    ∃ applied otherApplied after,
      file.applyAll [op, other] = ([applied, otherApplied], after) ∧
      file.applyAll [other, op] = ([otherApplied, applied], after) := by
  obtain ⟨hspares, hspared⟩ := h
  obtain ⟨happlied, hop⟩ := file.apply_of_spares hspared
  obtain ⟨hotherApplied, hother⟩ := file.apply_of_spares hspares
  have hafter : ((file.apply op).2.apply other).2 = ((file.apply other).2.apply op).2 := by
    apply eq_of_contents
    intro cell
    by_cases hcell : cell ∈ op.writtenCells
    · rw [hop cell hcell, contents_apply _ (hspares cell hcell).2]
    · rw [contents_apply (file.apply other).2 hcell]
      by_cases hwritten : cell ∈ other.writtenCells
      · exact hother cell hwritten
      · rw [contents_apply _ hwritten, contents_apply _ hcell, contents_apply _ hwritten]
  refine ⟨(file.apply op).1, (file.apply other).1, ((file.apply op).2.apply other).2, ?_, ?_⟩
  · rw [applyAll_pair, hotherApplied]
  · rw [applyAll_pair, happlied, hafter]

/-- A sum with carry into `R0H` that sets zero and sign, and a difference into
`R0L` that sets nothing: two bytes of one register, in either order. -/
theorem applyAll_comm_of_independent_halves :
    let sum : Op := .setRegister .r0h (.add 1 (.register .r0h) (.flag .c)) .sz
    let difference : Op := .setRegister .r0l (.sub 1 (.register .r0l) (.register .r2)) .none
    let file : RegisterFile := { r2r0 := 0x0001FF00, flg := 0x01 }
    sum.Independent difference ∧
      file.applyAll [difference, sum] =
        ([true, true], { r2r0 := 0x000100FF, flg := 0x05 }) := by
  intro sum difference file
  have hindependent : sum.Independent difference := by decide
  have hsumFirst : file.applyAll [sum, difference] =
      ([true, true], { r2r0 := 0x000100FF, flg := 0x05 }) := by decide
  obtain ⟨applied, otherApplied, after, hfirst, hsecond⟩ :=
    applyAll_comm_of_independent file sum difference hindependent
  rw [hsumFirst] at hfirst
  cases hfirst
  exact ⟨hindependent, hsecond⟩

end RegisterFile

end M16C
