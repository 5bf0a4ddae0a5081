import M16C.Proofs.Evaluation

/-!
The flags after a sum or a difference. Zero and sign describe the result at the
size of the operation. The carry of a sum is what does not fit, and that of a
difference says that nothing was borrowed; overflow is said of the operands
read as signed numbers. Carry and overflow come from evaluating the operands a
second time, when zero and sign are already set, so they describe the operation
only if no operand reads one of these two as it changes.
-/

namespace M16C

open Il

/-- The operations that set carry and overflow. -/
inductive Arithmetic where
  | sum | difference
  deriving DecidableEq, Repr

namespace Arithmetic

def expr : Arithmetic → Nat → Expr → Expr → Expr
  | .sum => .add
  | .difference => .sub

def result {width : Nat} : Arithmetic → BitVec width → BitVec width → BitVec width
  | .sum, a, b => a + b
  | .difference, a, b => a - b

/-- The carry: a sum that needs another bit, or a difference without borrow. -/
def Carries {width : Nat} : Arithmetic → BitVec width → BitVec width → Prop
  | .sum, a, b => 2 ^ width ≤ a.toNat + b.toNat
  | .difference, a, b => b.toNat ≤ a.toNat

instance {width : Nat} (operation : Arithmetic) (a b : BitVec width) :
    Decidable (operation.Carries a b) :=
  match operation with
  | .sum => inferInstanceAs (Decidable (2 ^ width ≤ a.toNat + b.toNat))
  | .difference => inferInstanceAs (Decidable (b.toNat ≤ a.toNat))

/-- The operation on signed numbers of any size. -/
def signed : Arithmetic → Int → Int → Int
  | .sum, a, b => a + b
  | .difference, a, b => a - b

/-- The signed result is not one that the width can hold. -/
def Overflows {width : Nat} (operation : Arithmetic) (a b : BitVec width) : Prop :=
  ¬ (-2 ^ (width - 1) ≤ operation.signed a.toInt b.toInt ∧
    operation.signed a.toInt b.toInt < 2 ^ (width - 1))

instance {width : Nat} (operation : Arithmetic) (a b : BitVec width) :
    Decidable (operation.Overflows a b) :=
  inferInstanceAs (Decidable (¬ (_ ∧ _)))

theorem overflows_sum_iff {width : Nat} (a b : BitVec width) :
    sum.Overflows a b ↔ a.saddOverflow b = true := by
  simp only [Overflows, signed, BitVec.saddOverflow, Bool.or_eq_true, decide_eq_true_eq]
  omega

theorem overflows_difference_iff {width : Nat} (a b : BitVec width) :
    difference.Overflows a b ↔ a.ssubOverflow b = true := by
  simp only [Overflows, signed, BitVec.ssubOverflow, Bool.or_eq_true, decide_eq_true_eq]
  omega

/-- Flags that describe the operation on `a` and `b`. -/
structure Shows {width : Nat} (operation : Arithmetic) (a b : BitVec width)
    (flags : Flag → Bool) : Prop where
  zero : flags .z = true ↔ operation.result a b = 0
  sign : flags .s = (operation.result a b).msb
  carry : flags .c = true ↔ operation.Carries a b
  overflow : flags .o = true ↔ operation.Overflows a b

/-- The two flags that are found from the operands. -/
def setFlags : Arithmetic → RegisterFile → Nat → UInt32 → UInt32 → UInt32 → RegisterFile
  | .sum => RegisterFile.setSumFlags
  | .difference => RegisterFile.setDifferenceFlags

theorem flag_setFlags_of_ne (operation : Arithmetic) (file : RegisterFile) (size : Nat)
    (a b cut : UInt32) {flag : Flag} (hc : flag ≠ .c) (ho : flag ≠ .o) :
    (operation.setFlags file size a b cut).flag flag = file.flag flag := by
  cases operation <;>
    simp [setFlags, RegisterFile.setSumFlags, RegisterFile.setDifferenceFlags, hc, ho]

section Operands

variable {size : Nat} (hlow : 1 ≤ size) (hhigh : size ≤ 4) (file : RegisterFile) (x y cut : UInt32)
include hhigh

theorem carry_setFlags (operation : Arithmetic) :
    (operation.setFlags file size (x &&& byteMask size) (y &&& byteMask size) cut).flag .c = true ↔
      operation.Carries (lowBytes size x) (lowBytes size y) := by
  cases operation with
  | sum =>
      have hmask : (byteMask size).toNat + 1 = 2 ^ (8 * size) := by
        rw [toNat_byteMask, Nat.min_eq_left hhigh]
        exact Nat.sub_add_cancel Nat.one_le_two_pow
      simp only [setFlags, RegisterFile.setSumFlags, RegisterFile.flag_setFlag, reduceCtorEq,
        if_false, if_true, decide_eq_true_eq, Carries,
        toNat_and_byteMask_eq_toNat_lowBytes hhigh]
      omega
  | difference =>
      simp only [setFlags, RegisterFile.setDifferenceFlags, RegisterFile.flag_setFlag, reduceCtorEq,
        if_false, if_true, decide_eq_true_eq, Carries, UInt32.le_iff_toNat_le,
        toNat_and_byteMask_eq_toNat_lowBytes hhigh]

include hlow in
theorem overflow_setFlags (operation : Arithmetic)
    (hcut : lowBytes size cut = operation.result (lowBytes size x) (lowBytes size y)) :
    (operation.setFlags file size (x &&& byteMask size) (y &&& byteMask size) cut).flag .o = true ↔
      operation.Overflows (lowBytes size x) (lowBytes size y) := by
  cases operation with
  | sum =>
      simp only [setFlags, RegisterFile.setSumFlags, RegisterFile.flag_setFlag, if_true]
      rw [and_xor_and_signBit_ne_zero hlow hhigh, lowBytes_and_byteMask hhigh,
        lowBytes_and_byteMask hhigh, hcut, result, overflows_sum_iff, BitVec.saddOverflow_eq]
      cases (lowBytes size x).msb <;> cases (lowBytes size y).msb <;>
        cases (lowBytes size x + lowBytes size y).msb <;> decide
  | difference =>
      simp only [setFlags, RegisterFile.setDifferenceFlags, RegisterFile.flag_setFlag, if_true]
      rw [and_xor_and_signBit_ne_zero hlow hhigh, lowBytes_and_byteMask hhigh,
        lowBytes_and_byteMask hhigh, hcut, result, overflows_difference_iff,
        BitVec.ssubOverflow_eq]
      cases (lowBytes size x).msb <;> cases (lowBytes size y).msb <;>
        cases (lowBytes size x - lowBytes size y).msb <;> decide

end Operands

end Arithmetic

namespace RegisterFile

/-- A sum or difference has a value when its operands have, and the value fits
any width that is not less than its size. -/
theorem evaluate_arithmetic (operation : Arithmetic) {file : RegisterFile} {size : Nat}
    (hhigh : size ≤ 4) {left right : Expr} {x y : UInt32}
    (hleft : file.evaluate left = some x) (hright : file.evaluate right = some y) :
    ∃ result, file.evaluate (operation.expr size left right) = some result ∧
      lowBytes size result = operation.result (lowBytes size x) (lowBytes size y) ∧
      ∀ width, size ≤ width → result &&& byteMask width = result := by
  cases operation with
  | sum =>
      refine ⟨(x + y) &&& byteMask size, ?_, ?_, ?_⟩
      · rw [Arithmetic.expr, evaluate, hleft, hright]
        rfl
      · rw [lowBytes_and_byteMask hhigh, lowBytes_add hhigh, Arithmetic.result]
      · intro width hwidth
        exact and_byteMask_and_byteMask hwidth (x + y)
  | difference =>
      refine ⟨(x - y) &&& byteMask size, ?_, ?_, ?_⟩
      · rw [Arithmetic.expr, evaluate, hleft, hright]
        rfl
      · rw [lowBytes_and_byteMask hhigh, lowBytes_sub hhigh, Arithmetic.result]
      · intro width hwidth
        exact and_byteMask_and_byteMask hwidth (x - y)

theorem flag_setZeroSign (file : RegisterFile) (size : Nat) (result : UInt32) (flag : Flag) :
    (file.setZeroSign size result).flag flag =
      if flag = .s then result &&& signBit size != 0
      else if flag = .z then result == 0
      else file.flag flag := by
  rw [setZeroSign, flag_setFlag, flag_setFlag]

theorem zero_setZeroSign {size : Nat} (hhigh : size ≤ 4) (file : RegisterFile) (result : UInt32) :
    (file.setZeroSign size (result &&& byteMask size)).flag .z = true ↔
      lowBytes size result = 0 := by
  rw [flag_setZeroSign, if_neg (by decide), if_pos rfl, beq_iff_eq, ← BitVec.toNat_inj,
    ← UInt32.toNat_inj, toNat_and_byteMask_eq_toNat_lowBytes hhigh]
  rfl

theorem sign_setZeroSign {size : Nat} (hlow : 1 ≤ size) (hhigh : size ≤ 4) (file : RegisterFile)
    (result : UInt32) :
    (file.setZeroSign size (result &&& byteMask size)).flag .s = (lowBytes size result).msb := by
  rw [flag_setZeroSign, if_pos rfl, and_signBit_ne_zero hlow hhigh, lowBytes_and_byteMask hhigh]

/-- Setting zero and sign leaves the value of an expression alone if every one
of the two that it reads keeps its value. -/
theorem evaluate_setZeroSign {file : RegisterFile} {size : Nat} {result : UInt32} {expr : Expr}
    (hkept : ∀ flag ∈ expr.flags, flag = .z ∨ flag = .s →
      (file.setZeroSign size result).flag flag = file.flag flag) :
    (file.setZeroSign size result).evaluate expr = file.evaluate expr := by
  apply evaluate_congr
  · intro register _
    rw [setZeroSign, read_setFlag, read_setFlag]
  · intro flag hmember
    by_cases hset : flag = .z ∨ flag = .s
    · exact hkept flag hmember hset
    · rw [flag_setZeroSign, if_neg (fun h => hset (.inr h)), if_neg (fun h => hset (.inl h))]

/-- The flags of a sum or difference: the result decides zero and sign, then
the operands are evaluated again for carry and overflow. -/
theorem updateFlags_arithmetic (operation : Arithmetic) (file : RegisterFile) (size : Nat)
    (left right : Expr) (result : UInt32) :
    file.updateFlags .oszc (operation.expr size left right) result =
      let cut := result &&& byteMask size
      let marked := file.setZeroSign size cut
      match marked.evaluate left, marked.evaluate right with
      | some a, some b =>
          operation.setFlags marked size (a &&& byteMask size) (b &&& byteMask size) cut
      | _, _ => marked := by
  cases operation <;> rfl

theorem flag_updateFlags_of_ne (operation : Arithmetic) (file : RegisterFile) (size : Nat)
    (left right : Expr) (result : UInt32) {flag : Flag} (hc : flag ≠ .c) (ho : flag ≠ .o) :
    (file.updateFlags .oszc (operation.expr size left right) result).flag flag =
      (file.setZeroSign size (result &&& byteMask size)).flag flag := by
  rw [updateFlags_arithmetic]
  dsimp only
  split
  · exact operation.flag_setFlags_of_ne _ _ _ _ _ hc ho
  · rfl

section Law

variable {operation : Arithmetic} {file : RegisterFile} {size : Nat} {left right : Expr}
  {x y result : UInt32} (hlow : 1 ≤ size) (hhigh : size ≤ 4)
  (hresult : lowBytes size result = operation.result (lowBytes size x) (lowBytes size y))
include hhigh hresult

theorem zero_updateFlags :
    (file.updateFlags .oszc (operation.expr size left right) result).flag .z = true ↔
      operation.result (lowBytes size x) (lowBytes size y) = 0 := by
  rw [flag_updateFlags_of_ne operation file size left right result (by decide) (by decide),
    zero_setZeroSign hhigh, hresult]

include hlow in
theorem sign_updateFlags :
    (file.updateFlags .oszc (operation.expr size left right) result).flag .s =
      (operation.result (lowBytes size x) (lowBytes size y)).msb := by
  rw [flag_updateFlags_of_ne operation file size left right result (by decide) (by decide),
    sign_setZeroSign hlow hhigh, hresult]

include hlow in
/-- Operands that keep their values when zero and sign are set decide carry and
overflow. -/
theorem carry_overflow_updateFlags
    (hleft : (file.setZeroSign size (result &&& byteMask size)).evaluate left = some x)
    (hright : (file.setZeroSign size (result &&& byteMask size)).evaluate right = some y) :
    ((file.updateFlags .oszc (operation.expr size left right) result).flag .c = true ↔
      operation.Carries (lowBytes size x) (lowBytes size y)) ∧
    ((file.updateFlags .oszc (operation.expr size left right) result).flag .o = true ↔
      operation.Overflows (lowBytes size x) (lowBytes size y)) := by
  have hcut : lowBytes size (result &&& byteMask size) =
      operation.result (lowBytes size x) (lowBytes size y) := by
    rw [lowBytes_and_byteMask hhigh, hresult]
  rw [updateFlags_arithmetic]
  simp only [hleft, hright]
  exact ⟨operation.carry_setFlags hhigh _ x y _, operation.overflow_setFlags hlow hhigh _ x y _ hcut⟩

include hlow in
/-- Operands that read no flag are not changed by zero and sign, so all four
flags describe the operation. -/
theorem shows_updateFlags (hleft : file.evaluate left = some x) (hright : file.evaluate right = some y)
    (hleftFlags : left.flags = []) (hrightFlags : right.flags = []) :
    operation.Shows (lowBytes size x) (lowBytes size y)
      (file.updateFlags .oszc (operation.expr size left right) result).flag := by
  have hmarked {expr : Expr} (hnone : expr.flags = []) :
      (file.setZeroSign size (result &&& byteMask size)).evaluate expr = file.evaluate expr := by
    apply evaluate_setZeroSign
    intro flag hmember
    rw [hnone] at hmember
    cases hmember
  obtain ⟨hcarry, hoverflow⟩ := carry_overflow_updateFlags hlow hhigh hresult
    ((hmarked hleftFlags).trans hleft) ((hmarked hrightFlags).trans hright)
  exact ⟨zero_updateFlags hhigh hresult, sign_updateFlags hlow hhigh hresult, hcarry, hoverflow⟩

end Law

/-- A sum or difference of values of its own size. -/
theorem evaluate_widened (operation : Arithmetic) {file : RegisterFile} {size : Nat}
    (hhigh : size ≤ 4) {left right : Expr} {a b : BitVec (8 * size)}
    (hleft : file.evaluate left = some (widened a))
    (hright : file.evaluate right = some (widened b)) :
    file.evaluate (operation.expr size left right) = some (widened (operation.result a b)) := by
  obtain ⟨result, hvalue, hresult, hfits⟩ := evaluate_arithmetic operation hhigh hleft hright
  rw [lowBytes_widened hhigh, lowBytes_widened hhigh] at hresult
  rw [hvalue, ← hresult, widened_lowBytes hhigh, hfits size le_rfl]

/-- The flags of such a sum or difference. -/
theorem shows_widened (operation : Arithmetic) {file : RegisterFile} {size : Nat}
    (hlow : 1 ≤ size) (hhigh : size ≤ 4) {left right : Expr} {a b : BitVec (8 * size)}
    (hleft : file.evaluate left = some (widened a))
    (hright : file.evaluate right = some (widened b))
    (hleftFlags : left.flags = []) (hrightFlags : right.flags = []) :
    operation.Shows a b (file.updateFlags .oszc (operation.expr size left right)
      (widened (operation.result a b))).flag := by
  have hresult : lowBytes size (widened (operation.result a b)) =
      operation.result (lowBytes size (widened a)) (lowBytes size (widened b)) := by
    simp only [lowBytes_widened hhigh]
  have hshows := shows_updateFlags hlow hhigh hresult hleft hright hleftFlags hrightFlags
  simpa only [lowBytes_widened hhigh] using hshows

/-- An operation that sets all four flags from a value. -/
theorem apply_oszc {file : RegisterFile} {op : Op} {value : Expr} {result : UInt32}
    (hop : op = .eval value .oszc ∨ ∃ dest, op = .setRegister dest value .oszc)
    (hvalue : file.evaluate value = some result) :
    (file.apply op).1 = true ∧ ∀ flag, (file.apply op).2.flag flag =
      (file.updateFlags .oszc value.flagSource result).flag flag := by
  rcases hop with rfl | ⟨dest, rfl⟩
  · simp only [apply, hvalue, implies_true, and_self]
  · simp only [apply, hvalue, flag_write, implies_true, and_self]

/-- The law of the flags. An operation whose value is a sum or difference inside
zero extensions is carried out, and then zero and sign describe the result at
the size of the sum or difference. Carry and overflow describe it too, by the
values of the operands before the operation, unless an operand reads a zero or
sign flag that the operation changes. -/
theorem apply_arithmetic_flags (operation : Arithmetic) (file : RegisterFile) (size : Nat)
    (hlow : 1 ≤ size) (hhigh : size ≤ 4) (left right : Expr) (x y : UInt32)
    (hleft : file.evaluate left = some x) (hright : file.evaluate right = some y)
    (widths : List Nat) (hwidths : ∀ width ∈ widths, size ≤ width) (op : Op)
    (hop : op = .eval ((operation.expr size left right).extended widths) .oszc ∨
      ∃ dest, op = .setRegister dest ((operation.expr size left right).extended widths) .oszc) :
    let a := lowBytes size x
    let b := lowBytes size y
    let after := (file.apply op).2
    (file.apply op).1 = true ∧
    (after.flag .z = true ↔ operation.result a b = 0) ∧
    (after.flag .s = (operation.result a b).msb) ∧
    ((∀ flag ∈ left.flags ++ right.flags, flag = .z ∨ flag = .s →
        after.flag flag = file.flag flag) →
      (after.flag .c = true ↔ operation.Carries a b) ∧
      (after.flag .o = true ↔ operation.Overflows a b)) := by
  obtain ⟨result, hvalue, hresult, hfits⟩ := evaluate_arithmetic operation hhigh hleft hright
  have hextended := evaluate_extended hvalue fun width hwidth => hfits width (hwidths width hwidth)
  have hsource : ((operation.expr size left right).extended widths).flagSource =
      operation.expr size left right := by
    rw [Expr.flagSource_extended]
    cases operation <;> rfl
  obtain ⟨happlied, hflags⟩ := apply_oszc hop hextended
  rw [hsource] at hflags
  intro a b after
  simp only [after, hflags]
  refine ⟨happlied, zero_updateFlags hhigh hresult, sign_updateFlags hlow hhigh hresult, ?_⟩
  intro hkept
  have hkeptMarked : ∀ flag ∈ left.flags ++ right.flags, flag = .z ∨ flag = .s →
      (file.setZeroSign size (result &&& byteMask size)).flag flag = file.flag flag := by
    intro flag hmember hset
    have hother : flag ≠ .c ∧ flag ≠ .o := by
      rcases hset with rfl | rfl <;> decide
    rw [← hkept flag hmember hset, flag_updateFlags_of_ne _ _ _ _ _ _ hother.1 hother.2]
  apply carry_overflow_updateFlags hlow hhigh hresult
  · rw [evaluate_setZeroSign fun flag hmember => hkeptMarked flag (List.mem_append_left _ hmember),
      hleft]
  · rw [evaluate_setZeroSign fun flag hmember => hkeptMarked flag (List.mem_append_right _ hmember),
      hright]

/-- A sum with the carry added, written back wider: `0x7F` and a set carry
overflow without carrying. -/
theorem apply_arithmetic_flags_withCarry :
    let file : RegisterFile := { r2r0 := 0x7F, flg := 1 }
    let after := (file.apply (.setRegister .r0
      (.zeroExtend 2 (.add 1 (.register .r0l) (.flag .c))) .oszc)).2
    after.flag .s = true ∧ after.flag .c = false ∧ after.flag .o = true := by
  intro file after
  obtain ⟨_, _, hsign, hlaw⟩ := apply_arithmetic_flags .sum file 1 (by decide) (by decide)
    (.register .r0l) (.flag .c) 0x7F 1 (by decide) (by decide) [2] (by decide) _ (.inr ⟨.r0, rfl⟩)
  obtain ⟨hcarry, hoverflow⟩ := hlaw (by decide)
  exact ⟨hsign, Bool.eq_false_iff.mpr (mt hcarry.mp (by decide)), hoverflow.mpr (by decide)⟩

/-- Zero minus a clear zero flag borrows nothing and still clears the carry:
the difference sets the zero flag, and the second evaluation reads it as one. -/
theorem carry_of_changed_zero :
    let file : RegisterFile := {}
    let after := (file.apply (.eval (.sub 1 (.const 1 0) (.flag .z)) .oszc)).2
    file.evaluate (.const 1 0) = some 0 ∧ file.evaluate (.flag .z) = some 0 ∧
      ¬ (after.flag .c = true ↔ Arithmetic.difference.Carries (lowBytes 1 0) (lowBytes 1 0)) := by
  decide

end RegisterFile

end M16C
