import M16C.Proofs.Evaluation

/-!
What carrying out an operation can change. An operation is carried out when
everything it needs is in the registers, and then all of it is; otherwise
nothing is. Flags are set before the destination is written, but the value is
found before both, so nothing can fail between them. What changes is bounded by
what the operation names: the bits of its destination, and the flags of its
class or the one flag it sets.
-/

namespace M16C

open Il

/-- The bits of a root's word that belong to a view. -/
def View.maskIn (view : View) (root : Root) : UInt32 :=
  if view.root = root then view.mask else 0

namespace Il

/-- Whether an operation needs nothing but registers and flags. -/
def Op.StaysInRegisters : Op → Prop
  | .nop | .setFlag .. => True
  | .setRegister _ value _ | .eval value _ => ∀ part ∈ value.parts, part.readsOutside = false
  | .store .. | .push .. | .jump _ | .call _ | .return | .branch .. | .trap _ | .breakpoint
  | .intrinsic _ | .undefined => False

/-- The flags that an operation names as its effect. -/
def Op.writtenFlags : Op → List Flag
  | .setRegister _ _ flags | .store _ _ _ flags | .eval _ flags => flags.flags
  | .setFlag flag _ => [flag]
  | .push .. | .jump _ | .call _ | .return | .branch .. | .trap _ | .breakpoint | .intrinsic _
  | .nop | .undefined => []

end Il

namespace RegisterFile

/-- Two files with the same storage outside a view. -/
def SameOutside (view : View) (file other : RegisterFile) : Prop :=
  ∀ root, file.slot root &&& ~~~view.maskIn root = other.slot root &&& ~~~view.maskIn root

theorem sameOutside_write (file : RegisterFile) (register : Register) (value : UInt32) :
    SameOutside register.view (file.write register value) file := by
  intro root
  rw [slot_write, View.maskIn]
  by_cases hroot : root = register.root
  · subst hroot
    have hview : register.view.root = register.root := rfl
    rw [if_pos rfl, if_pos hview, replace_and_not UInt32.and_self]
  · rw [if_neg hroot]

/-- Setting flags before a write adds nothing to what changes in storage. -/
theorem sameOutside_updateFlags_write (file : RegisterFile) (flags : FlagWrite) (source : Expr)
    (result : UInt32) (register : Register) :
    SameOutside register.view ((file.updateFlags flags source result).write register result) file := by
  intro root
  rw [sameOutside_write, slot_updateFlags]

/-- The operations that are carried out, each with the file after it. -/
inductive Performs (file : RegisterFile) : Op → RegisterFile → Prop
  | setRegister (dest : Register) {value : Expr} (flags : FlagWrite) {result : UInt32}
      (hvalue : file.evaluate value = some result) :
      Performs file (.setRegister dest value flags)
        ((file.updateFlags flags value.flagSource result).write dest result)
  | setFlag (flag : Flag) (value : Bool) :
      Performs file (.setFlag flag value) (file.setFlag flag value)
  | eval {value : Expr} (flags : FlagWrite) {result : UInt32}
      (hvalue : file.evaluate value = some result) :
      Performs file (.eval value flags) (file.updateFlags flags value.flagSource result)
  | nop : Performs file .nop file

/-- An operation that stays in the registers is carried out. -/
theorem apply_of_staysInRegisters (file : RegisterFile) {op : Op} (h : op.StaysInRegisters) :
    (file.apply op).1 = true ∧ file.Performs op (file.apply op).2 := by
  cases op with
  | setRegister dest value flags =>
      obtain ⟨result, hvalue⟩ := (file.exists_evaluate_iff value).mpr h
      simp only [apply, hvalue]
      exact ⟨trivial, .setRegister dest flags hvalue⟩
  | eval value flags =>
      obtain ⟨result, hvalue⟩ := (file.exists_evaluate_iff value).mpr h
      simp only [apply, hvalue]
      exact ⟨trivial, .eval flags hvalue⟩
  | setFlag flag value => exact ⟨rfl, .setFlag flag value⟩
  | nop => exact ⟨rfl, .nop⟩
  | _ => exact h.elim

/-- Any other operation is refused as a whole. -/
theorem apply_of_not_staysInRegisters (file : RegisterFile) {op : Op}
    (h : ¬ op.StaysInRegisters) : file.apply op = (false, file) := by
  cases op with
  | setRegister dest value flags | eval value flags =>
      have hvalue : file.evaluate value = none := by
        rw [Option.eq_none_iff_forall_ne_some]
        intro result hresult
        exact h ((file.exists_evaluate_iff value).mp ⟨result, hresult⟩)
      simp only [apply, hvalue]
  | setFlag flag value => exact (h trivial).elim
  | nop => exact (h trivial).elim
  | _ => rfl

theorem apply_eq_true_iff (file : RegisterFile) (op : Op) :
    (file.apply op).1 = true ↔ op.StaysInRegisters := by
  constructor
  · intro happlied
    by_contra hrefused
    rw [file.apply_of_not_staysInRegisters hrefused] at happlied
    cases happlied
  · intro h
    exact (file.apply_of_staysInRegisters h).1

namespace Performs

variable {file after : RegisterFile} {op : Op}

/-- Only a write to a register changes storage, and only inside its view. -/
theorem slot_eq (h : file.Performs op after) {root : Root}
    (hother : ∀ dest value flags, op = .setRegister dest value flags → dest.root ≠ root) :
    after.slot root = file.slot root := by
  cases h with
  | setRegister dest flags hvalue =>
      rw [slot_write, if_neg (hother dest _ flags rfl).symm, slot_updateFlags]
  | setFlag flag value => exact slot_setFlag file flag value root
  | eval flags hvalue => exact slot_updateFlags file flags _ _ root
  | nop => rfl

theorem sameOutside {dest : Register} {value : Expr} {flags : FlagWrite}
    (h : file.Performs (.setRegister dest value flags) after) :
    SameOutside dest.view after file := by
  cases h with
  | setRegister _ _ hvalue => exact file.sameOutside_updateFlags_write flags _ _ dest

/-- The destination shows the value that was found before the operation. -/
theorem toNat_read_dest {dest : Register} {value : Expr} {flags : FlagWrite}
    (h : file.Performs (.setRegister dest value flags) after) :
    ∃ result, file.evaluate value = some result ∧
      (after.read dest).toNat = result.toNat % 2 ^ (8 * dest.width) := by
  cases h with
  | @setRegister _ _ _ result hvalue =>
      have hwidth : dest.width ≤ 4 := (Nat.le_add_left _ _).trans dest.offset_add_width_le
      exact ⟨result, hvalue, by rw [read_write_self, toNat_and_byteMask_of_le hwidth]⟩

theorem flag_eq (h : file.Performs op after) {flag : Flag} (hother : flag ∉ op.writtenFlags) :
    after.flag flag = file.flag flag := by
  cases h with
  | setRegister dest flags hvalue =>
      rw [flag_write]
      exact file.flag_updateFlags _ _ hother
  | setFlag other value =>
      have hne : flag ≠ other := fun h => hother (List.mem_singleton.mpr h)
      rw [flag_setFlag, if_neg hne]
  | eval flags hvalue => exact file.flag_updateFlags _ _ hother
  | nop => rfl

/-- Control flags are set by name or not at all. -/
theorem control_flag_eq (h : file.Performs op after) {flag : Flag}
    (hcontrol : flag ∈ [Flag.d, .b, .i, .u]) (hother : ∀ value, op ≠ .setFlag flag value) :
    after.flag flag = file.flag flag := by
  apply h.flag_eq
  cases h with
  | setRegister dest flags hvalue => exact FlagWrite.not_mem_flags hcontrol flags
  | setFlag other value =>
      intro hmember
      rw [List.mem_singleton.mp hmember] at hother
      exact hother value rfl
  | eval flags hvalue => exact FlagWrite.not_mem_flags hcontrol flags
  | nop => exact List.not_mem_nil

end Performs

/-- Operations are atomic and stay in their frame. An operation is carried out
exactly when it is one of the four kinds that act on registers and flags and
its value reads neither memory nor the stack at any depth; one that is not
carried out leaves the file as it was. When it is carried out, storage changes
only inside the view of the destination, which then shows the value that was
found before, cut to its width. Only the flags that the operation names change,
so those that steer the processor change only when they are set by name. -/
theorem apply_atomic (file : RegisterFile) (op : Op) :
    ((file.apply op).1 = true ↔ op.StaysInRegisters) ∧
    ((file.apply op).1 = false → (file.apply op).2 = file) ∧
    ((file.apply op).1 = true →
      (∀ dest value flags, op = .setRegister dest value flags →
        SameOutside dest.view (file.apply op).2 file ∧
        ∃ result, file.evaluate value = some result ∧
          ((file.apply op).2.read dest).toNat = result.toNat % 2 ^ (8 * dest.width)) ∧
      (∀ root, (file.apply op).2.slot root ≠ file.slot root →
        ∃ dest value flags, op = .setRegister dest value flags ∧ dest.root = root) ∧
      (∀ flag, (file.apply op).2.flag flag ≠ file.flag flag → flag ∈ op.writtenFlags) ∧
      ∀ flag ∈ [Flag.d, .b, .i, .u], (file.apply op).2.flag flag ≠ file.flag flag →
        ∃ value, op = .setFlag flag value) := by
  refine ⟨file.apply_eq_true_iff op, ?_, ?_⟩
  · intro hrefused
    have houtside : ¬ op.StaysInRegisters := by
      rw [← file.apply_eq_true_iff op, hrefused]
      exact Bool.false_ne_true
    rw [file.apply_of_not_staysInRegisters houtside]
  · intro happlied
    obtain ⟨_, hperforms⟩ := file.apply_of_staysInRegisters ((file.apply_eq_true_iff op).mp happlied)
    refine ⟨?_, ?_, ?_, ?_⟩
    · rintro dest value flags rfl
      exact ⟨hperforms.sameOutside, hperforms.toNat_read_dest⟩
    · intro root hchanged
      by_contra hnone
      refine hchanged (hperforms.slot_eq fun dest value flags hop hroot => hnone ?_)
      exact ⟨dest, value, flags, hop, hroot⟩
    · intro flag hchanged
      by_contra hother
      exact hchanged (hperforms.flag_eq hother)
    · intro flag hcontrol hchanged
      by_contra hnone
      exact hchanged (hperforms.control_flag_eq hcontrol fun value hop => hnone ⟨value, hop⟩)

/-- A sum into `R0H` with everything around it set, and the same sum with a load
hidden in it: the first changes one byte of storage, the second nothing. -/
theorem apply_atomic_hiddenLoad :
    let file : RegisterFile := { r2r0 := 0xAAAAFFFF, flg := 0xFF }
    let sum (right : Expr) : Op := .setRegister .r0h (.add 1 (.register .r0h) right) .sz
    let plain := file.apply (sum (.const 1 0x12))
    let hidden := file.apply (sum (.lowPart 1 (.load 2 (.const 2 0x400))))
    plain.1 = true ∧ (plain.2.read .r0h).toNat = 0x11 ∧
      SameOutside Register.r0h.view plain.2 file ∧ plain.2.flag .u = file.flag .u ∧
      hidden.1 = false ∧ hidden.2 = file := by
  intro file sum plain hidden
  obtain ⟨_, _, heffect⟩ := apply_atomic file (sum (.const 1 0x12))
  obtain ⟨hwrite, _, _, hcontrol⟩ := heffect rfl
  obtain ⟨houtside, result, hresult, hread⟩ := hwrite _ _ _ rfl
  have hvalue : result = 0x11 := Option.some.inj (hresult.symm.trans (by decide))
  have hkept : plain.2.flag .u = file.flag .u := by
    by_contra hchanged
    obtain ⟨value, hop⟩ := hcontrol .u (by simp) hchanged
    cases hop
  refine ⟨rfl, ?_, houtside, hkept, rfl, ?_⟩
  · rw [hread, hvalue]
    rfl
  · exact (apply_atomic file (sum (.lowPart 1 (.load 2 (.const 2 0x400))))).2.1 rfl

end RegisterFile

end M16C
