import M16C.Proofs.Operands

/-!
Sizes in lifted operations. Expressions carry their sizes with them, and nothing
checks that these fit together: evaluation cuts what is too wide and goes on.
`Sized` is the judgement that they do fit. Constants are within their size, both
sides of a sum have its size, extensions widen, low parts narrow and addresses
are two bytes; flags have no rule. Every operation that an instruction is lifted
to is sized, with values as wide as what they are put into, as long as a branch
target fits the program counter.
-/

namespace M16C

namespace Il

/-- What the outermost step of an expression asks of its parts. -/
def Expr.Fits : Expr → Prop
  | .const size value => value.toNat < 2 ^ (8 * size)
  | .add size left right | .sub size left right => left.size = size ∧ right.size = size
  | .zeroExtend size value => value.size < size
  | .lowPart size value => size < value.size
  | .load _ address => address.size = 2
  | .register _ | .flag _ | .pop _ => True

/-- What an operation asks of the sizes of its expressions. -/
def Op.Fits : Op → Prop
  | .setRegister dest value _ => value.size = dest.width
  | .store size address value _ => address.size = 2 ∧ value.size = size
  | .push size value => value.size = size
  | .jump target | .call target => target.size = 3
  | .setFlag .. | .eval .. | .return | .branch .. | .trap _ | .breakpoint | .intrinsic _ | .nop
  | .undefined => True

/-- The expressions of an operation. -/
def Op.exprs : Op → List Expr
  | .setRegister _ value _ | .eval value _ | .push _ value => [value]
  | .store _ address value _ => [address, value]
  | .jump target | .call target => [target]
  | .setFlag .. | .return | .branch .. | .trap _ | .breakpoint | .intrinsic _ | .nop
  | .undefined => []

/-- An expression of `size` bytes without flags, in which all sizes fit. -/
inductive Sized : Expr → Nat → Prop
  | const {size : Nat} {value : UInt32} (hvalue : value.toNat < 2 ^ (8 * size)) :
      Sized (.const size value) size
  | register {size : Nat} {register : Register} (hwidth : register.width = size) :
      Sized (.register register) size
  | add {size : Nat} {left right : Expr} (hleft : Sized left size) (hright : Sized right size) :
      Sized (.add size left right) size
  | sub {size : Nat} {left right : Expr} (hleft : Sized left size) (hright : Sized right size) :
      Sized (.sub size left right) size
  | zeroExtend {narrow size : Nat} {value : Expr} (hvalue : Sized value narrow)
      (hwider : narrow < size) : Sized (.zeroExtend size value) size
  | lowPart {size wide : Nat} {value : Expr} (hvalue : Sized value wide)
      (hnarrower : size < wide) : Sized (.lowPart size value) size
  | load (size : Nat) {address : Expr} (haddress : Sized address 2) :
      Sized (.load size address) size
  | pop (size : Nat) : Sized (.pop size) size

namespace Sized

variable {expr : Expr} {size : Nat}

theorem size_eq (h : Sized expr size) : expr.size = size := by
  cases h with
  | register hwidth => exact hwidth
  | _ => rfl

theorem flags_eq_nil (h : Sized expr size) : expr.flags = [] := by
  induction h with
  | const | register | pop => rfl
  | add _ _ hleft hright | sub _ _ hleft hright => rw [Expr.flags, hleft, hright, List.append_nil]
  | zeroExtend _ _ ih | lowPart _ _ ih | load _ _ ih => exact ih

/-- Everything inside a sized expression fits. -/
theorem fits_of_mem_parts (h : Sized expr size) : ∀ part ∈ expr.parts, part.Fits := by
  induction h with
  | const hvalue => exact List.forall_mem_singleton.mpr hvalue
  | register | pop => exact List.forall_mem_singleton.mpr trivial
  | add hleft hright ihleft ihright | sub hleft hright ihleft ihright =>
      refine List.forall_mem_cons.mpr ⟨⟨hleft.size_eq, hright.size_eq⟩, ?_⟩
      exact List.forall_mem_append.mpr ⟨ihleft, ihright⟩
  | zeroExtend hvalue hwider ih =>
      exact List.forall_mem_cons.mpr ⟨hvalue.size_eq.trans_lt hwider, ih⟩
  | lowPart hvalue hnarrower ih =>
      exact List.forall_mem_cons.mpr ⟨hnarrower.trans_eq hvalue.size_eq.symm, ih⟩
  | load _ haddress ih => exact List.forall_mem_cons.mpr ⟨haddress.size_eq, ih⟩

end Sized

/-- An operation whose expressions are sized, each for the place it stands in. -/
def Op.WellSized : Op → Prop
  | .setRegister dest value _ => Sized value dest.width
  | .store size address value _ => Sized address 2 ∧ Sized value size
  | .eval value _ => ∃ size, Sized value size
  | .push size value => Sized value size
  | .jump target | .call target => Sized target 3
  | .setFlag .. | .return | .branch .. | .trap _ | .breakpoint | .intrinsic _ | .nop
  | .undefined => True

namespace Op.WellSized

variable {op : Op}

theorem fits (h : op.WellSized) : op.Fits := by
  cases op with
  | setRegister | push | jump | call => exact h.size_eq
  | store => exact ⟨h.1.size_eq, h.2.size_eq⟩
  | _ => trivial

theorem sized_of_mem_exprs (h : op.WellSized) : ∀ expr ∈ op.exprs, ∃ size, Sized expr size := by
  cases op with
  | setRegister | push | jump | call => exact List.forall_mem_singleton.mpr ⟨_, h⟩
  | eval => exact List.forall_mem_singleton.mpr h
  | store =>
      exact List.forall_mem_cons.mpr ⟨⟨_, h.1⟩, List.forall_mem_singleton.mpr ⟨_, h.2⟩⟩
  | _ => exact List.forall_mem_nil _

end Op.WellSized

end Il

open Il

theorem sized_masked (size : Size) (word : UInt32) :
    Sized (.const size.bytes (word &&& size.mask)) size.bytes := by
  apply Sized.const
  rw [Size.mask, toNat_and_byteMask_of_le size.bytes_le_four]
  exact Nat.mod_lt _ (Nat.two_pow_pos _)

theorem sized_signedConst (imm : Int8) (size : Size) : Sized (signedConst imm size) size.bytes :=
  sized_masked size _

theorem sized_word (word : UInt16) : Sized (.const 2 word.toUInt32) 2 := by
  apply Sized.const
  rw [UInt16.toNat_toUInt32]
  exact word.toNat_lt

theorem sized_byte {size : Nat} (hsize : 1 ≤ size) (byte : UInt8) :
    Sized (.const size byte.toUInt32) size := by
  apply Sized.const
  rw [UInt8.toNat_toUInt32]
  exact byte.toNat_lt.trans_le (Nat.pow_le_pow_right Nat.two_pos (by omega))

theorem sized_based {base : Register} (hbase : base.width = 2) (dsp : UInt16) :
    Sized (.based base dsp) 2 :=
  .add (.register hbase) (sized_word dsp)

namespace Operand

/-- Memory operands are addressed with two bytes, in every mode. -/
theorem sized_place {operand : Operand} {size : Size} {place : Expr}
    (h : operand.location size = .memory place) : Sized place 2 := by
  cases operand with
  | data index | address index => cases h
  | indirect index =>
      cases h
      exact .register (width_addressRegister index)
  | dsp8Address index dsp | dsp16Address index dsp =>
      cases h
      exact sized_based (width_addressRegister index) _
  | dsp8Sb dsp | dsp8Fb dsp | dsp16Sb dsp =>
      cases h
      exact sized_based rfl _
  | abs16 place =>
      cases h
      exact sized_word place

theorem sized_value (operand : Operand) (size : Size) : Sized (operand.value size) size.bytes := by
  cases hregister : operand.register? size with
  | some register =>
      simp only [value, location_of_register? hregister]
      split
      · next hnarrow => exact .lowPart (.register rfl) hnarrow
      · next hwide => exact .register (width_eq_bytes hregister hwide)
  | none =>
      obtain ⟨place, hplace⟩ := exists_location_of_register? hregister
      simp only [value, hplace]
      exact .load _ (sized_place hplace)

/-- Assigning a value of the operation's size: an address register gets it
extended, everything else as it is. -/
theorem wellSized_assign (operand : Operand) {size : Size} {value : Expr}
    (hvalue : Sized value size.bytes) (flags : FlagWrite) :
    (operand.assign size value flags).WellSized := by
  cases hregister : operand.register? size with
  | some register =>
      simp only [assign, location_of_register? hregister]
      split
      · next hnarrow => exact .zeroExtend hvalue hnarrow
      · next hwide =>
          change Sized value register.width
          rw [width_eq_bytes hregister hwide]
          exact hvalue
  | none =>
      obtain ⟨place, hplace⟩ := exists_location_of_register? hregister
      simp only [assign, hplace]
      exact ⟨sized_place hplace, hvalue⟩

end Operand

namespace Instruction

/-- The branch target that an instruction names. -/
def target? : Instruction → Option Address
  | .jmp _ target | .jsr _ target | .jcnd _ target => some target
  | _ => none

/-- The judgement for each instruction. Only jumps and calls need the bound on the
target; that of a branch stands in no expression. -/
theorem wellSized_of_mem_lift {instruction : Instruction} {address : Address}
    (htarget : ∀ target, instruction.target? = some target → target.toNat < 2 ^ 24) :
    ∀ op ∈ instruction.lift address, op.WellSized := by
  cases instruction with
  | exitd =>
      intro op hop
      simp only [lift, List.mem_cons, List.not_mem_nil, or_false] at hop
      rcases hop with rfl | rfl | rfl
      · exact .register rfl
      · exact .pop 2
      · trivial
  | enter frame =>
      intro op hop
      simp only [lift, List.mem_cons, List.not_mem_nil, or_false] at hop
      rcases hop with rfl | rfl | rfl
      · exact .register rfl
      · exact .register rfl
      · exact .sub (.register rfl) (sized_byte (by omega) frame)
  | jmp distance target | jsr distance target =>
      exact List.forall_mem_singleton.mpr (.const (htarget target rfl))
  | movG size src dest =>
      exact List.forall_mem_singleton.mpr (dest.wellSized_assign (src.sized_value size) .sz)
  | movImm size imm dest =>
      exact List.forall_mem_singleton.mpr (dest.wellSized_assign (sized_masked size _) .sz)
  | quick operation size imm dest =>
      have hleft := dest.sized_value size
      have hright := sized_signedConst imm size
      cases operation with
      | mov => exact List.forall_mem_singleton.mpr (dest.wellSized_assign hright .sz)
      | add => exact List.forall_mem_singleton.mpr (dest.wellSized_assign (.add hleft hright) .oszc)
      | cmp => exact List.forall_mem_singleton.mpr ⟨_, .sub hleft hright⟩
  | movS imm dest =>
      exact List.forall_mem_singleton.mpr (dest.general.wellSized_assign (sized_byte le_rfl imm) .sz)
  | movZ dest =>
      exact List.forall_mem_singleton.mpr (dest.general.wellSized_assign (sized_byte le_rfl 0) .sz)
  | pushS register =>
      refine List.forall_mem_singleton.mpr (.register ?_)
      cases register <;> rfl
  | popS register =>
      have hwidth : register.register.width = 1 := by cases register <;> rfl
      refine List.forall_mem_singleton.mpr ?_
      change Sized (.pop 1) register.register.width
      rw [hwidth]
      exact .pop 1
  | _ => exact List.forall_mem_singleton.mpr trivial

/-- Lifted operations are well sized. If the branch target of an instruction, when
it has one, fits the program counter, each operation that it is lifted to puts
values of the right size into registers, memory, the stack and the program
counter, every part of their expressions fits, at any depth, and none of them
reads a flag. -/
theorem lift_wellSized (instruction : Instruction) (address : Address)
    (htarget : ∀ target, instruction.target? = some target → target.toNat < 2 ^ 24) :
    ∀ op ∈ instruction.lift address, op.Fits ∧
      ∀ expr ∈ op.exprs, expr.flags = [] ∧ ∀ part ∈ expr.parts, part.Fits := by
  intro op hop
  have hsized := wellSized_of_mem_lift htarget op hop
  refine ⟨hsized.fits, ?_⟩
  intro expr hexpr
  obtain ⟨size, hexprSized⟩ := hsized.sized_of_mem_exprs expr hexpr
  exact ⟨hexprSized.flags_eq_nil, hexprSized.fits_of_mem_parts⟩

/-- A call to the highest target that the program counter holds. -/
theorem lift_wellSized_highestCall :
    (0xFFFFFF : Address).toNat < 2 ^ 24 ∧
      (jsr .absolute 0xFFFFFF).lift 0 = [.call (.const 3 0xFFFFFF)] ∧
      ∀ op ∈ (jsr .absolute 0xFFFFFF).lift 0, op.Fits ∧
        ∀ expr ∈ op.exprs, expr.flags = [] ∧ ∀ part ∈ expr.parts, part.Fits := by
  have htarget : (0xFFFFFF : Address).toNat < 2 ^ 24 := by decide
  refine ⟨htarget, rfl, lift_wellSized (jsr .absolute 0xFFFFFF) 0 ?_⟩
  intro target h
  cases h
  exact htarget

end Instruction

end M16C
