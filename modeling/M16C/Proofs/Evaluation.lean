import M16C.Proofs.Storage
import M16C.Il.Execute

/-!
What the value of an expression depends on. An expression mentions registers
and flags, and two files that agree on those give it the same value. It has one
unless it reads memory or the stack somewhere inside. Zero extensions around an
expression change its value only when they are narrower than it. The flags that
follow a value are set, those of the write's class only, and storage is left
alone. A relation between files that the same change to both keeps is kept by
every operation whose value looks the same in both.
-/

namespace M16C

open Il

namespace Il.Expr

/-- The registers that an expression mentions. -/
def registers : Expr → List Register
  | .register r => [r]
  | .add _ left right | .sub _ left right => left.registers ++ right.registers
  | .zeroExtend _ value | .lowPart _ value => value.registers
  | .load _ address => address.registers
  | .const _ _ | .flag _ | .pop _ => []

/-- The flags that an expression mentions. -/
def flags : Expr → List Flag
  | .flag f => [f]
  | .add _ left right | .sub _ left right => left.flags ++ right.flags
  | .zeroExtend _ value | .lowPart _ value => value.flags
  | .load _ address => address.flags
  | .const _ _ | .register _ | .pop _ => []

/-- An expression and all expressions inside it, at any depth. -/
def parts : Expr → List Expr
  | .add size left right => .add size left right :: (left.parts ++ right.parts)
  | .sub size left right => .sub size left right :: (left.parts ++ right.parts)
  | .zeroExtend size value => .zeroExtend size value :: value.parts
  | .lowPart size value => .lowPart size value :: value.parts
  | .load size address => .load size address :: address.parts
  | .const size value => [.const size value]
  | .register r => [.register r]
  | .flag f => [.flag f]
  | .pop size => [.pop size]

/-- Whether the outermost step of an expression reads memory or the stack. -/
def readsOutside : Expr → Bool
  | .load .. | .pop _ => true
  | .const .. | .register _ | .flag _ | .add .. | .sub .. | .zeroExtend .. | .lowPart .. => false

/-- An expression inside zero extensions to `widths`, the outermost first. -/
def extended (widths : List Nat) (expr : Expr) : Expr := widths.foldr .zeroExtend expr

theorem flagSource_extended (widths : List Nat) (expr : Expr) :
    (expr.extended widths).flagSource = expr.flagSource := by
  induction widths with
  | nil => rfl
  | cons width widths ih => exact ih

theorem registers_flagSource (expr : Expr) : expr.flagSource.registers = expr.registers := by
  induction expr with
  | zeroExtend size value ih => exact ih
  | _ => rfl

theorem flags_flagSource (expr : Expr) : expr.flagSource.flags = expr.flags := by
  induction expr with
  | zeroExtend size value ih => exact ih
  | _ => rfl

end Il.Expr

/-- No class has a flag that steers the processor. -/
theorem Il.FlagWrite.not_mem_flags {flag : Flag} (hcontrol : flag ∈ [Flag.d, .b, .i, .u])
    (write : FlagWrite) : flag ∉ write.flags := by
  simp only [List.mem_cons, List.not_mem_nil, or_false] at hcontrol
  rcases hcontrol with rfl | rfl | rfl | rfl <;> cases write <;> simp [FlagWrite.flags]

/-- The expression whose value an operation puts somewhere or tests. -/
def Il.Op.value? : Op → Option Expr
  | .setRegister _ value _ | .store _ _ value _ | .eval value _ | .push _ value => some value
  | .setFlag .. | .jump _ | .call _ | .return | .branch .. | .trap _ | .breakpoint | .intrinsic _
  | .nop | .undefined => none

namespace RegisterFile

@[simp] theorem read_setFlag (file : RegisterFile) (flag : Flag) (value : Bool)
    (register : Register) : (file.setFlag flag value).read register = file.read register := by
  rw [read, slot_setFlag, read]

theorem slot_updateFlags (file : RegisterFile) (write : FlagWrite) (source : Expr)
    (result : UInt32) (root : Root) :
    (file.updateFlags write source result).slot root = file.slot root := by
  cases write with
  | none => rfl
  | sz => simp only [updateFlags, setZeroSign, slot_setFlag]
  | oszc =>
      cases source with
      | add size left right | sub size left right =>
          simp only [updateFlags]
          split <;> simp only [setSumFlags, setDifferenceFlags, setZeroSign, slot_setFlag]
      | _ => simp only [updateFlags, setZeroSign, slot_setFlag]

/-- A result sets the flags of its class and no others. -/
theorem flag_updateFlags (file : RegisterFile) {write : FlagWrite} (source : Expr)
    (result : UInt32) {flag : Flag} (hother : flag ∉ write.flags) :
    (file.updateFlags write source result).flag flag = file.flag flag := by
  cases write with
  | none => rfl
  | sz =>
      obtain ⟨hs, hz⟩ : flag ≠ .s ∧ flag ≠ .z := by simpa [FlagWrite.flags] using hother
      simp only [updateFlags, setZeroSign, flag_setFlag, if_neg hs, if_neg hz]
  | oszc =>
      obtain ⟨ho, hs, hz, hc⟩ : flag ≠ .o ∧ flag ≠ .s ∧ flag ≠ .z ∧ flag ≠ .c := by
        simpa [FlagWrite.flags] using hother
      cases source with
      | add size left right | sub size left right =>
          simp only [updateFlags]
          split <;> simp only [setSumFlags, setDifferenceFlags, setZeroSign, flag_setFlag,
            if_neg ho, if_neg hs, if_neg hz, if_neg hc]
      | _ => simp only [updateFlags, setZeroSign, flag_setFlag, if_neg hs, if_neg hz]

/-- An expression has no value exactly when it reads memory or the stack
somewhere inside. -/
theorem evaluate_eq_none_iff (file : RegisterFile) (expr : Expr) :
    file.evaluate expr = none ↔ ∃ part ∈ expr.parts, part.readsOutside = true := by
  induction expr with
  | const | register | flag | load | pop => simp [evaluate, Expr.parts, Expr.readsOutside]
  | add size left right hleft hright | sub size left right hleft hright =>
      have hsplit : (∃ part ∈ left.parts ++ right.parts, part.readsOutside = true) ↔
          file.evaluate left = none ∨ file.evaluate right = none := by
        rw [hleft, hright]
        simp only [List.mem_append, or_and_right, exists_or]
      simp only [Expr.parts, List.mem_cons, exists_eq_or_imp, hsplit]
      cases hx : file.evaluate left <;> cases hy : file.evaluate right <;>
        simp [evaluate, hx, hy, Expr.readsOutside]
  | zeroExtend size value ih | lowPart size value ih =>
      simp only [Expr.parts, List.mem_cons, exists_eq_or_imp, ← ih]
      cases hx : file.evaluate value <;> simp [evaluate, hx, Expr.readsOutside]

theorem exists_evaluate_iff (file : RegisterFile) (expr : Expr) :
    (∃ result, file.evaluate expr = some result) ↔
      ∀ part ∈ expr.parts, part.readsOutside = false := by
  rw [← Option.ne_none_iff_exists', ne_eq, evaluate_eq_none_iff]
  simp only [not_exists, not_and, Bool.not_eq_true]

/-- The value of an expression is found from what it mentions. -/
theorem evaluate_congr {file other : RegisterFile} {expr : Expr}
    (hregisters : ∀ register ∈ expr.registers, file.read register = other.read register)
    (hflags : ∀ flag ∈ expr.flags, file.flag flag = other.flag flag) :
    file.evaluate expr = other.evaluate expr := by
  induction expr with
  | const size value => rfl
  | register register =>
      rw [evaluate, evaluate, hregisters register (List.mem_singleton_self register)]
  | flag flag => rw [evaluate, evaluate, hflags flag (List.mem_singleton_self flag)]
  | add size left right hleft hright | sub size left right hleft hright =>
      have hleft := hleft (fun r h => hregisters r (List.mem_append_left _ h))
        (fun f h => hflags f (List.mem_append_left _ h))
      have hright := hright (fun r h => hregisters r (List.mem_append_right _ h))
        (fun f h => hflags f (List.mem_append_right _ h))
      rw [evaluate, evaluate, hleft, hright]
  | zeroExtend size value ih | lowPart size value ih =>
      rw [evaluate, evaluate, ih hregisters hflags]
  | load size address => rfl
  | pop size => rfl

/-- Extensions that are wide enough do not change a value. -/
theorem evaluate_extended {file : RegisterFile} {expr : Expr} {value : UInt32}
    {widths : List Nat} (hvalue : file.evaluate expr = some value)
    (hfits : ∀ width ∈ widths, value &&& byteMask width = value) :
    file.evaluate (expr.extended widths) = some value := by
  induction widths with
  | nil => exact hvalue
  | cons width widths ih =>
      have hinner : file.evaluate (expr.extended widths) = some value :=
        ih fun other hother => hfits other (List.mem_cons_of_mem width hother)
      have houter : file.evaluate (expr.extended (width :: widths)) =
          some (value &&& byteMask width) := by
        change file.evaluate (.zeroExtend width (expr.extended widths)) = _
        rw [evaluate, hinner]
        rfl
      rw [houter, hfits width List.mem_cons_self]

/-- A relation between files that is kept when one flag is set, or one register
written, in both alike. -/
structure Stable (related : RegisterFile → RegisterFile → Prop) : Prop where
  setFlag : ∀ {file other}, related file other → ∀ flag value,
    related (file.setFlag flag value) (other.setFlag flag value)
  write : ∀ {file other}, related file other → ∀ register value,
    related (file.write register value) (other.write register value)

/-- Related files show alike what an expression mentions. -/
def Sees (related : RegisterFile → RegisterFile → Prop) (expr : Expr) : Prop :=
  ∀ ⦃file other⦄, related file other →
    (∀ register ∈ expr.registers, file.read register = other.read register) ∧
    ∀ flag ∈ expr.flags, file.flag flag = other.flag flag

section Related

variable {related : RegisterFile → RegisterFile → Prop} {file other : RegisterFile}

theorem Sees.evaluate_eq {expr : Expr} (hsees : Sees related expr) (h : related file other) :
    file.evaluate expr = other.evaluate expr :=
  evaluate_congr (hsees h).1 (hsees h).2

theorem Sees.flagSource {expr : Expr} (hsees : Sees related expr) :
    Sees related expr.flagSource := by
  intro file other h
  rw [Expr.registers_flagSource, Expr.flags_flagSource]
  exact hsees h

theorem Sees.of_append {expr left right : Expr} (hsees : Sees related expr)
    (hregisters : expr.registers = left.registers ++ right.registers)
    (hflags : expr.flags = left.flags ++ right.flags) :
    Sees related left ∧ Sees related right := by
  simp only [Sees, hregisters, hflags, List.forall_mem_append] at hsees
  exact ⟨fun _ _ h => ⟨(hsees h).1.1, (hsees h).2.1⟩, fun _ _ h => ⟨(hsees h).1.2, (hsees h).2.2⟩⟩

/-- The flags that follow a result: operands are evaluated for them a second
time, in files that are still related. -/
theorem Stable.updateFlags (hstable : Stable related) {source : Expr}
    (hsees : Sees related source) (h : related file other) (write : FlagWrite)
    (result : UInt32) :
    related (file.updateFlags write source result) (other.updateFlags write source result) := by
  have hmarked (size : Nat) (cut : UInt32) :
      related (file.setZeroSign size cut) (other.setZeroSign size cut) :=
    hstable.setFlag (hstable.setFlag h .z _) .s _
  cases write with
  | none => exact h
  | sz => exact hmarked _ _
  | oszc =>
      cases source with
      | add size left right | sub size left right =>
          obtain ⟨hleft, hright⟩ : Sees related left ∧ Sees related right :=
            hsees.of_append rfl rfl
          simp only [RegisterFile.updateFlags, hleft.evaluate_eq (hmarked _ _),
            hright.evaluate_eq (hmarked _ _)]
          split
          · exact hstable.setFlag (hstable.setFlag (hmarked _ _) .c _) .o _
          · exact hmarked _ _
      | _ => exact hmarked _ _

/-- One operation: both files carry it out or neither does, and they stay
related. -/
theorem Stable.apply (hstable : Stable related) {op : Op}
    (hsees : ∀ value, op.value? = some value → Sees related value) (h : related file other) :
    (file.apply op).1 = (other.apply op).1 ∧ related (file.apply op).2 (other.apply op).2 := by
  cases op with
  | setRegister dest value flags =>
      have hvalue := hsees value rfl
      simp only [RegisterFile.apply, hvalue.evaluate_eq h]
      split
      · next result _ =>
          exact ⟨rfl, hstable.write (hstable.updateFlags hvalue.flagSource h flags result) dest result⟩
      · exact ⟨rfl, h⟩
  | eval value flags =>
      have hvalue := hsees value rfl
      simp only [RegisterFile.apply, hvalue.evaluate_eq h]
      split
      · next result _ => exact ⟨rfl, hstable.updateFlags hvalue.flagSource h flags result⟩
      · exact ⟨rfl, h⟩
  | setFlag flag value => exact ⟨rfl, hstable.setFlag h flag value⟩
  | _ => exact ⟨rfl, h⟩

end Related

end RegisterFile

end M16C
