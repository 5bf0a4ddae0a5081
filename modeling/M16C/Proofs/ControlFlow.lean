import M16C.Proofs.Sweep

/-!
Control flow, said three times. Edges, lifted operations and the rows of a
sweep each name the places where control can go after an instruction, and each
computes them on its own. `Transfer` pairs the edges with the operations that
say the same; every instruction is such a pair, and what one side says about
control is read off the other. In a sweep all targets lie inside the address
space, and control that does not follow a branch meets the next row.
-/

namespace M16C

namespace Il.Op

/-- Whether the operation can send control elsewhere than to what follows. -/
def transfersControl : Op → Bool
  | .jump _ | .call _ | .return | .branch .. | .trap _ | .breakpoint | .undefined => true
  | .setRegister .. | .store .. | .setFlag .. | .eval .. | .push .. | .intrinsic _ | .nop => false

/-- Whether a basic block ends with the operation. Calls and traps come back. -/
def endsBlock : Op → Bool
  | .jump _ | .return | .branch .. | .breakpoint | .undefined => true
  | .call _ | .trap _ => false
  | .setRegister .. | .store .. | .setFlag .. | .eval .. | .push .. | .intrinsic _ | .nop => false

/-- The targets that the operation names are addresses of the space, and none
is left to be computed. -/
def StaysInside : Op → Prop
  | .jump target | .call target => ∃ place, target = .const 3 place ∧ place ≤ Address.last
  | .branch _ taken notTaken => taken ≤ Address.last ∧ notTaken ≤ Address.last
  | _ => True

/-- Operations of which none transfers control. -/
def Straight (ops : List Op) : Prop := ∀ op ∈ ops, op.transfersControl = false

theorem straight_nil : Straight [] := by
  intro op hmember
  cases hmember

theorem Straight.cons {op : Op} {ops : List Op} (h : Straight ops)
    (hop : op.transfersControl = false) : Straight (op :: ops) := by
  intro other hmember
  rcases List.mem_cons.mp hmember with rfl | hrest
  · exact hop
  · exact h other hrest

theorem Straight.not_mem {ops : List Op} (h : Straight ops) {op : Op}
    (hop : op.transfersControl = true) : op ∉ ops := by
  intro hmember
  rw [h op hmember] at hop
  cases hop

theorem Straight.ne_singleton {ops : List Op} (h : Straight ops) {op : Op}
    (hop : op.transfersControl = true) : ops ≠ [op] := by
  rintro rfl
  exact h.not_mem hop (List.mem_singleton_self op)

theorem endsBlock_of_not_transfersControl {op : Op} (h : op.transfersControl = false) :
    op.endsBlock = false := by
  revert h
  cases op <;> simp [transfersControl, endsBlock]

theorem staysInside_of_not_transfersControl {op : Op} (h : op.transfersControl = false) :
    op.StaysInside := by
  revert h
  cases op <;> simp [transfersControl, StaysInside]

end Il.Op

open Il

/-- The address an edge leads to, when it is known. -/
def Edge.target? : Edge → Option Address
  | .unconditional target | .taken target | .notTaken target | .call target => some target
  | .functionReturn | .systemCall | .exception | .indirect => none

/-- The edge leads to an address of the space, when it names one. -/
def Edge.StaysInside (edge : Edge) : Prop :=
  ∀ target, edge.target? = some target → target ≤ Address.last

/-- Edges and operations that say the same about where control goes. -/
inductive Transfer : List Edge → List Op → Prop
  | straight {ops : List Op} (body : Op.Straight ops) : Transfer [] ops
  | jump (target : Address) : Transfer [.unconditional target] [.jump (targetConst target)]
  | call (target : Address) : Transfer [.call target] [.call (targetConst target)]
  | branch (condition : Condition) (taken notTaken : Address) :
      Transfer [.taken taken, .notTaken notTaken] [.branch condition taken notTaken]
  | returns {ops : List Op} (body : Op.Straight ops) :
      Transfer [.functionReturn] (ops ++ [.return])
  | trap (vector : UInt8) : Transfer [.systemCall] [.trap vector]
  | breakpoint : Transfer [.exception] [.breakpoint]
  | undefined : Transfer [.exception] [.undefined]

namespace Transfer

variable {edges : List Edge} {ops : List Op}

theorem unconditional_iff (h : Transfer edges ops) (target : Address) :
    edges = [.unconditional target] ↔ ops = [.jump (.const 3 target)] := by
  cases h with
  | straight body => exact iff_of_false (List.cons_ne_nil _ _).symm (body.ne_singleton rfl)
  | returns body => simp [List.append_eq_singleton_iff]
  | _ => simp [targetConst]

theorem call_iff (h : Transfer edges ops) (target : Address) :
    edges = [.call target] ↔ ops = [.call (.const 3 target)] := by
  cases h with
  | straight body => exact iff_of_false (List.cons_ne_nil _ _).symm (body.ne_singleton rfl)
  | returns body => simp [List.append_eq_singleton_iff]
  | _ => simp [targetConst]

theorem branch_iff (h : Transfer edges ops) (taken notTaken : Address) :
    edges = [.taken taken, .notTaken notTaken] ↔
      ∃ condition, ops = [.branch condition taken notTaken] := by
  cases h with
  | straight body =>
      refine iff_of_false (List.cons_ne_nil _ _).symm ?_
      rintro ⟨condition, hops⟩
      exact body.ne_singleton rfl hops
  | returns body => simp [List.append_eq_singleton_iff]
  | _ => simp

theorem functionReturn_iff (h : Transfer edges ops) :
    edges = [.functionReturn] ↔ ops.getLast? = some .return := by
  cases h with
  | straight body =>
      refine iff_of_false (List.cons_ne_nil _ _).symm ?_
      intro hlast
      exact body.not_mem rfl (List.mem_of_getLast? hlast)
  | _ => simp

theorem systemCall_iff (h : Transfer edges ops) :
    edges = [.systemCall] ↔ ∃ vector, ops = [.trap vector] := by
  cases h with
  | straight body =>
      refine iff_of_false (List.cons_ne_nil _ _).symm ?_
      rintro ⟨vector, hops⟩
      exact body.ne_singleton rfl hops
  | returns body => simp [List.append_eq_singleton_iff]
  | _ => simp

theorem exception_iff (h : Transfer edges ops) :
    edges = [.exception] ↔ ops = [.breakpoint] ∨ ops = [.undefined] := by
  cases h with
  | straight body =>
      refine iff_of_false (List.cons_ne_nil _ _).symm ?_
      rintro (hops | hops)
      · exact body.ne_singleton rfl hops
      · exact body.ne_singleton rfl hops
  | returns body => simp [List.append_eq_singleton_iff]
  | _ => simp

theorem nil_iff (h : Transfer edges ops) :
    edges = [] ↔ ∀ op ∈ ops, op.transfersControl = false := by
  cases h with
  | straight body => exact iff_of_true rfl body
  | _ => simp [Op.transfersControl]

theorem fallsThrough_iff (h : Transfer edges ops) :
    edges.all (·.fallsThrough) = true ↔ ∀ op ∈ ops, op.endsBlock = false := by
  cases h with
  | straight body =>
      refine iff_of_true rfl ?_
      intro op hmember
      exact Op.endsBlock_of_not_transfersControl (body op hmember)
  | _ => simp [Op.endsBlock, Edge.fallsThrough]

/-- When the edges lead to addresses of the space, so do the operations. -/
theorem staysInside (h : Transfer edges ops)
    (hedges : ∀ edge ∈ edges, edge.StaysInside) : ∀ op ∈ ops, op.StaysInside := by
  cases h with
  | straight body =>
      intro op hmember
      exact Op.staysInside_of_not_transfersControl (body op hmember)
  | jump target | call target =>
      have hinside := hedges _ (List.mem_singleton_self _) target rfl
      intro op hmember
      rw [List.mem_singleton.mp hmember]
      exact ⟨target, rfl, hinside⟩
  | branch condition taken notTaken =>
      have htaken := hedges (.taken taken) (by simp) taken rfl
      have hnotTaken := hedges (.notTaken notTaken) (by simp) notTaken rfl
      intro op hmember
      rw [List.mem_singleton.mp hmember]
      exact ⟨htaken, hnotTaken⟩
  | returns body =>
      intro op hmember
      rcases List.mem_append.mp hmember with hbody | hreturn
      · exact Op.staysInside_of_not_transfersControl (body op hbody)
      · rw [List.mem_singleton.mp hreturn]
        trivial
  | trap | breakpoint | undefined =>
      intro op hmember
      rw [List.mem_singleton.mp hmember]
      trivial

end Transfer

theorem Operand.transfersControl_assign (operand : Operand) (size : Size) (value : Expr)
    (flags : FlagWrite) : (operand.assign size value flags).transfersControl = false := by
  unfold Operand.assign
  split
  · split <;> rfl
  · rfl

namespace Instruction

/-- No instruction has more edges than the limit, so that none is dropped. -/
theorem edges_flow (instruction : Instruction) (address : Address) :
    (instruction.flow address).edges = instruction.edges address := by
  cases instruction <;> rfl

theorem toNat_next (instruction : Instruction) (address : Address) :
    (instruction.next address).toNat = (address.toNat + instruction.length) % Address.space :=
  Address.toNat_following address instruction.length

/-- Every instruction says the same by its edges and by its operations. -/
theorem transfer_lift (instruction : Instruction) (address : Address) :
    Transfer (instruction.edges address) (instruction.lift address) := by
  have hassign (operand : Operand) (size : Size) (value : Expr) (flags : FlagWrite) :
      Transfer [] [operand.assign size value flags] :=
    .straight (Op.straight_nil.cons (operand.transfersControl_assign size value flags))
  cases instruction with
  | brk => exact .breakpoint
  | und => exact .undefined
  | rts | reit => exact .returns Op.straight_nil
  | exitd => exact .returns ((Op.straight_nil.cons rfl).cons rfl)
  | int vector => exact .trap vector
  | jmp distance target => exact .jump target
  | jsr distance target => exact .call target
  | jcnd condition target => exact .branch condition.condition target _
  | movG | movImm | movS | movZ => exact hassign ..
  | quick operation size imm dest =>
      cases operation with
      | mov | add => exact hassign ..
      | cmp => exact .straight (Op.straight_nil.cons rfl)
  | enter frame => exact .straight (((Op.straight_nil.cons rfl).cons rfl).cons rfl)
  | nop | wait | fset | fclr | pushS | popS => exact .straight (Op.straight_nil.cons rfl)

theorem mem_edges_jcnd {condition : BranchCondition} {target address : Address} {edge : Edge} :
    edge ∈ (jcnd condition target).edges address ↔
      edge = .taken target ∨ edge = .notTaken ((jcnd condition target).next address) := by
  simp [edges]

theorem edges_staysInside {instruction : Instruction} (h : instruction.Canonical)
    (address : Address) : ∀ edge ∈ instruction.edges address, edge.StaysInside := by
  intro edge hedge target htarget
  cases instruction with
  | jmp | jsr =>
      rw [List.mem_singleton.mp hedge] at htarget
      cases htarget
      exact h
  | jcnd condition place =>
      rcases mem_edges_jcnd.mp hedge with rfl | rfl
      · cases htarget
        exact h
      · cases htarget
        exact Address.following_le_last address _
  | brk | rts | reit | und | exitd | int =>
      rw [List.mem_singleton.mp hedge] at htarget
      cases htarget
  | _ => cases hedge

theorem eq_next_of_notTaken {instruction : Instruction} {address target : Address}
    (h : .notTaken target ∈ instruction.edges address) : target = instruction.next address := by
  cases instruction with
  | jcnd condition place =>
      rcases mem_edges_jcnd.mp h with htaken | hpast
      · cases htaken
      · exact Edge.notTaken.inj hpast
  | _ => simp [edges] at h

end Instruction

namespace Row

open Instruction

/-- The views of control flow agree. Edges and operations of an instruction say
the same, constructor by constructor, and a basic block goes on by its edges
exactly when no operation ends it. A row of a sweep that holds an instruction
names addresses of the space only, and the way past a branch leads to the next
row. -/
theorem control_flow_agrees :
    (∀ (instruction : Instruction) (address : Address),
      let flow := instruction.flow address
      let ops := instruction.lift address
      (∀ target, flow.edges = [.unconditional target] ↔ ops = [.jump (.const 3 target)]) ∧
      (∀ target, flow.edges = [.call target] ↔ ops = [.call (.const 3 target)]) ∧
      (∀ taken notTaken, flow.edges = [.taken taken, .notTaken notTaken] ↔
        ∃ condition, ops = [.branch condition taken notTaken]) ∧
      (∀ taken notTaken, flow.edges = [.taken taken, .notTaken notTaken] →
        notTaken.toNat = (address.toNat + instruction.length) % Address.space) ∧
      (flow.edges = [.functionReturn] ↔ ops.getLast? = some .return) ∧
      (flow.edges = [.systemCall] ↔ ∃ vector, ops = [.trap vector]) ∧
      (flow.edges = [.exception] ↔ ops = [.breakpoint] ∨ ops = [.undefined]) ∧
      (flow.edges = [] ↔ ∀ op ∈ ops, op.transfersControl = false) ∧
      (flow.fallsThrough = true ↔ ∀ op ∈ ops, op.endsBlock = false)) ∧
    ∀ (image : List UInt8) (base : Address) (display : Display) (k : Nat) (row : Row),
      let rows := (sweep image base display).result
      rows[k]? = some row → row.isInvalid = false →
      ∃ instruction, decode (image.drop (covered (rows.take k))) row.address = .ok instruction ∧
        (∀ edge ∈ (instruction.flow row.address).edges, edge.StaysInside) ∧
        (∀ op ∈ instruction.lift row.address, op.StaysInside) ∧
        ∀ target, .notTaken target ∈ (instruction.flow row.address).edges →
          ∀ later, rows[k + 1]? = some later → later.address = target := by
  constructor
  · intro instruction address flow ops
    have hedges : flow.edges = instruction.edges address := edges_flow instruction address
    have htransfer : Transfer flow.edges ops := by
      rw [hedges]
      exact transfer_lift instruction address
    refine ⟨htransfer.unconditional_iff, htransfer.call_iff, htransfer.branch_iff, ?_,
      htransfer.functionReturn_iff, htransfer.systemCall_iff, htransfer.exception_iff,
      htransfer.nil_iff, htransfer.fallsThrough_iff⟩
    intro taken notTaken hbranch
    have hmember : Edge.notTaken notTaken ∈ instruction.edges address := by
      rw [← hedges, hbranch]
      simp
    rw [eq_next_of_notTaken hmember]
    exact toNat_next instruction address
  · intro image base display k row rows hrow hvalid
    have hbase := Address.wrap_le_last base
    have htiles := tiles_sweep image base display
    have hdescribes := htiles.describes hbase hrow
    rw [← hdescribes.address_eq] at hdescribes
    obtain ⟨instruction, hdecode⟩ := hdescribes.isInvalid_eq_false_iff.mp hvalid
    obtain ⟨hcanonical, _, _, _⟩ := of_decode_eq_ok hdecode
    have hinside := edges_staysInside hcanonical row.address
    refine ⟨instruction, hdecode, ?_⟩
    rw [edges_flow]
    refine ⟨hinside, ?_, ?_⟩
    · exact (transfer_lift instruction row.address).staysInside hinside
    · intro target hpast later hlater
      rw [htiles.address_succ hbase hrow hlater, (hdescribes.valid instruction hdecode).2.1,
        eq_next_of_notTaken hpast, next]

/-- A branch in the last two bytes of the address space: the way past it leads
to address 0, where the next row stands. -/
theorem control_flow_agrees_wrapped :
    (jcnd .ne 0xFFFFF).lift 0xFFFFE = [.branch .notEqual 0xFFFFF 0] ∧
      ∃ later, (sweep [0x6E, 0x00, 0x04] 0xFFFFE {}).result[1]? = some later ∧
        later.address = 0 := by
  have hlifted := ((control_flow_agrees.1 (jcnd .ne 0xFFFFF) 0xFFFFE).2.2.1 0xFFFFF 0).mp rfl
  obtain ⟨instruction, hdecode, _, _, hnext⟩ :=
    control_flow_agrees.2 [0x6E, 0x00, 0x04] 0xFFFFE {} 0 _ rfl rfl
  have hbranch : decode [0x6E, 0x00, 0x04] 0xFFFFE = .ok (jcnd .ne 0xFFFFF) := by rfl
  cases hdecode.symm.trans hbranch
  refine ⟨?_, _, rfl, ?_⟩
  · obtain ⟨condition, hops⟩ := hlifted
    cases hops
    rfl
  · exact hnext 0 (List.mem_cons_of_mem _ (List.mem_singleton_self _)) _ rfl

end Row

end M16C
