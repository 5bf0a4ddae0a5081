import M16C.BranchCondition
import M16C.Proofs.Arithmetic

/-!
Comparing and branching. A compare is a difference that is evaluated for its
flags only. After it every branch condition holds exactly when the operands
stand in the relation that the condition names: the unsigned relations from
carry and zero, the signed ones from sign and overflow together, because the
sign of a difference is wrong when it overflows.
-/

namespace M16C

open Il

/-- The relation between two values that a branch condition tests for after
they are compared. -/
def BranchCondition.Compares {width : Nat} (a b : BitVec width) : BranchCondition → Prop
  | .geu => b.toNat ≤ a.toNat
  | .gtu => b.toNat < a.toNat
  | .ltu => a.toNat < b.toNat
  | .leu => a.toNat ≤ b.toNat
  | .eq => a = b
  | .ne => a ≠ b
  | .ge => b.toInt ≤ a.toInt
  | .gt => b.toInt < a.toInt
  | .lt => a.toInt < b.toInt
  | .le => a.toInt ≤ b.toInt
  | .n => (a - b).msb = true
  | .pz => (a - b).msb = false
  | .o => Arithmetic.difference.Overflows a b
  | .no => ¬ Arithmetic.difference.Overflows a b

instance {width : Nat} (a b : BitVec width) (condition : BranchCondition) :
    Decidable (condition.Compares a b) :=
  match condition with
  | .geu => inferInstanceAs (Decidable (b.toNat ≤ a.toNat))
  | .gtu => inferInstanceAs (Decidable (b.toNat < a.toNat))
  | .ltu => inferInstanceAs (Decidable (a.toNat < b.toNat))
  | .leu => inferInstanceAs (Decidable (a.toNat ≤ b.toNat))
  | .eq => inferInstanceAs (Decidable (a = b))
  | .ne => inferInstanceAs (Decidable (a ≠ b))
  | .ge => inferInstanceAs (Decidable (b.toInt ≤ a.toInt))
  | .gt => inferInstanceAs (Decidable (b.toInt < a.toInt))
  | .lt => inferInstanceAs (Decidable (a.toInt < b.toInt))
  | .le => inferInstanceAs (Decidable (a.toInt ≤ b.toInt))
  | .n => inferInstanceAs (Decidable ((a - b).msb = true))
  | .pz => inferInstanceAs (Decidable ((a - b).msb = false))
  | .o => inferInstanceAs (Decidable (Arithmetic.difference.Overflows a b))
  | .no => inferInstanceAs (Decidable (¬ Arithmetic.difference.Overflows a b))

namespace FlagTest

theorem eval_ofFlag (flags : Flag → Bool) (flag : Flag) :
    (ofFlag flag).eval flags = flags flag := by
  cases hflag : flags flag <;> simp [ofFlag, eval, hflag]

theorem eval_ofClear (flags : Flag → Bool) (flag : Flag) :
    (ofClear flag).eval flags = !flags flag := by
  cases hflag : flags flag <;> simp [ofClear, eval, hflag]

theorem eval_signMatches (flags : Flag → Bool) :
    signMatches.eval flags = (flags .s == flags .o) := by
  rw [signMatches, eval, eval_ofFlag, eval_ofClear]
  cases flags .s <;> cases flags .o <;> rfl

theorem eval_signDiffers (flags : Flag → Bool) :
    signDiffers.eval flags = (flags .s != flags .o) := by
  rw [signDiffers, eval, eval_ofFlag, eval_ofClear]
  cases flags .s <;> cases flags .o <;> rfl

end FlagTest

/-- A signed number is less than another when the sign of their difference is
set, or clear if it overflows. -/
theorem toInt_lt_iff_msb_sub {width : Nat} (a b : BitVec width) :
    a.toInt < b.toInt ↔ (a - b).msb ≠ a.ssubOverflow b := by
  cases hoverflow : a.ssubOverflow b with
  | false =>
      have hdifference : (a - b).toInt = a.toInt - b.toInt :=
        BitVec.toInt_sub_of_not_ssubOverflow (Bool.eq_false_iff.mp hoverflow)
      rw [BitVec.msb_eq_toInt, hdifference, Bool.ne_false_iff, decide_eq_true_eq]
      omega
  | true =>
      -- The operands differ in sign, and the difference has the sign of the second.
      have hsigns : (a.msb = false ∧ b.msb = true ∧ (a - b).msb = true) ∨
          (a.msb = true ∧ b.msb = false ∧ (a - b).msb = false) := by
        rw [BitVec.ssubOverflow_eq] at hoverflow
        simpa [and_assoc] using hoverflow
      rcases hsigns with ⟨ha, hb, hdifference⟩ | ⟨ha, hb, hdifference⟩
      · have hnonneg := BitVec.toInt_nonneg_of_msb_false ha
        have hneg := BitVec.toInt_neg_of_msb_true hb
        rw [hdifference]
        exact iff_of_false (by omega) (by decide)
      · have hneg := BitVec.toInt_neg_of_msb_true ha
        have hnonneg := BitVec.toInt_nonneg_of_msb_false hb
        rw [hdifference]
        exact iff_of_true (by omega) (by decide)

namespace BranchCondition

/-- Flags that show a difference decide every branch condition by the relation
of the operands. -/
theorem holds_iff_compares {width : Nat} {a b : BitVec width} {flags : Flag → Bool}
    (hshows : Arithmetic.difference.Shows a b flags) (condition : BranchCondition) :
    condition.condition.holds flags = true ↔ condition.Compares a b := by
  obtain ⟨hzero, hsign, hcarry, hoverflow⟩ := hshows
  rw [Arithmetic.result] at hzero hsign
  rw [Arithmetic.Carries] at hcarry
  have hequal : flags .z = true ↔ a = b := by
    rw [hzero, BitVec.sub_eq_iff_eq_add]
    exact Eq.congr_right (BitVec.zero_add b)
  have hunsigned : flags .z = true ↔ a.toNat = b.toNat := by
    rw [hequal, BitVec.toNat_inj]
  have hsigned : flags .z = true ↔ a.toInt = b.toInt := by
    rw [hequal, BitVec.toInt_inj]
  have hless : a.toInt < b.toInt ↔ flags .s ≠ flags .o := by
    have hflag : flags .o = a.ssubOverflow b := by
      rw [Bool.eq_iff_iff, hoverflow, Arithmetic.overflows_difference_iff]
    rw [toInt_lt_iff_msb_sub, hsign, hflag]
  have hnot (flag : Flag) : (!flags flag) = true ↔ ¬ flags flag = true := by
    rw [Bool.not_eq_true', Bool.not_eq_true]
  have hdiffers : (flags .s != flags .o) = true ↔ a.toInt < b.toInt := by
    rw [hless, bne_iff_ne]
  have hmatches : (flags .s == flags .o) = true ↔ b.toInt ≤ a.toInt := by
    rw [beq_iff_eq, ← not_lt, hless, not_not]
  cases condition <;>
    simp only [BranchCondition.condition, Condition.holds, Condition.test, FlagTest.eval,
      FlagTest.eval_ofFlag, FlagTest.eval_ofClear, FlagTest.eval_signMatches,
      FlagTest.eval_signDiffers, Compares]
  case geu => exact hcarry
  case gtu =>
    rw [Bool.if_false_right, Bool.decide_eq_true, Bool.and_eq_true, hcarry, hnot, hunsigned]
    omega
  case eq => exact hequal
  case n => rw [hsign]
  case ltu =>
    rw [hnot, hcarry]
    omega
  case leu =>
    rw [Bool.if_true_right, Bool.decide_eq_true, Bool.or_eq_true, hnot, hcarry, hunsigned]
    omega
  case ne => rw [hnot, hequal]
  case pz => rw [hnot, hsign, Bool.not_eq_true]
  case le =>
    rw [Bool.if_true_left, Bool.decide_eq_true, Bool.or_eq_true, hsigned, hdiffers]
    omega
  case o => exact hoverflow
  case ge => exact hmatches
  case gt =>
    rw [Bool.if_false_left, Bool.decide_eq_true, Bool.and_eq_true, hnot, hsigned, hmatches]
    omega
  case no => rw [hnot, hoverflow]
  case lt => exact hdiffers

end BranchCondition

namespace RegisterFile

/-- Comparing for a branch. The compare is carried out and leaves all storage
and the control flags alone, and then each branch condition holds exactly when
the compared values, cut to the size, stand in its relation. -/
theorem compare_then_branch (file : RegisterFile) (size : Nat) (hlow : 1 ≤ size)
    (hhigh : size ≤ 4) (left right : Expr) (x y : UInt32)
    (hleft : file.evaluate left = some x) (hright : file.evaluate right = some y)
    (hleftFlags : left.flags = []) (hrightFlags : right.flags = []) :
    let a := lowBytes size x
    let b := lowBytes size y
    let compared := file.apply (.eval (.sub size left right) .oszc)
    compared.1 = true ∧
    (∀ root, compared.2.slot root = file.slot root) ∧
    (∀ flag ∈ [Flag.d, .b, .i, .u], compared.2.flag flag = file.flag flag) ∧
    ∀ condition : BranchCondition,
      condition.condition.holds compared.2.flag = true ↔ condition.Compares a b := by
  obtain ⟨result, hvalue, hresult, _⟩ := evaluate_arithmetic .difference hhigh hleft hright
  have hcompared : file.apply (.eval (.sub size left right) .oszc) =
      (true, file.updateFlags .oszc (Arithmetic.difference.expr size left right) result) := by
    rw [apply, show file.evaluate (.sub size left right) = some result from hvalue]
    rfl
  have hshows := shows_updateFlags hlow hhigh hresult hleft hright hleftFlags hrightFlags
  intro a b compared
  simp only [compared, hcompared]
  refine ⟨trivial, ?_, ?_, ?_⟩
  · intro root
    exact slot_updateFlags file _ _ _ root
  · intro flag hcontrol
    exact flag_updateFlags file _ _ (FlagWrite.not_mem_flags hcontrol .oszc)
  · exact BranchCondition.holds_iff_compares hshows

/-- Minus 128 compared with 1 in one byte: the difference is positive, because
it overflows, and the branch on "less" is still taken. -/
theorem compare_then_branch_overflow :
    let compared := RegisterFile.apply { r2r0 := 0xFFFFFF80 }
      (.eval (.sub 1 (.register .r0l) (.const 1 1)) .oszc)
    BranchCondition.pz.condition.holds compared.2.flag = true ∧
      BranchCondition.o.condition.holds compared.2.flag = true ∧
      BranchCondition.lt.condition.holds compared.2.flag = true ∧
      BranchCondition.gtu.condition.holds compared.2.flag = true := by
  obtain ⟨_, _, _, hbranch⟩ := compare_then_branch { r2r0 := 0xFFFFFF80 } 1 (by decide) (by decide)
    (.register .r0l) (.const 1 1) 0x80 1 (by decide) (by decide) rfl rfl
  exact ⟨(hbranch .pz).mpr (by decide), (hbranch .o).mpr (by decide),
    (hbranch .lt).mpr (by decide), (hbranch .gtu).mpr (by decide)⟩

end RegisterFile

end M16C
