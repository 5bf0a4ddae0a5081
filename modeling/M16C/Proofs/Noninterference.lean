import M16C.Proofs.Evaluation

/-!
Storage that no register shows. A root narrower than its word leaves bits of
the word unused, and a file can be loaded with anything in them. Nothing that
is done to a file reads these bits and nothing changes them: two files that
show the same registers and flags go on showing the same, whatever is written
to them and whatever operations they carry out, and each keeps its own unused
bits. A file that starts empty keeps them zero, so what it shows is all there
is to it.
-/

namespace M16C

open Il

/-- A register lies inside its root. -/
theorem Register.mask_and_mask_root (register : Register) :
    register.view.mask &&& register.root.register.view.mask = register.view.mask := by
  cases register <;> decide

namespace RegisterFile

/-- A change to a register file, by hand or by an operation. -/
inductive Step where
  | access (access : Access)
  | apply (op : Op)
  deriving DecidableEq, Repr

/-- The file after a step. An operation that is not carried out leaves it as it
is. -/
def step (file : RegisterFile) : Step → RegisterFile
  | .access access => file.access access
  | .apply op => (file.apply op).2

/-- The file after some steps in turn. -/
def run (file : RegisterFile) (steps : List Step) : RegisterFile := steps.foldl step file

/-- The bits of a root's word that lie outside its width. -/
def hidden (file : RegisterFile) (root : Root) : UInt32 :=
  file.slot root &&& ~~~root.register.view.mask

/-- Two files that show the same. -/
structure Agrees (file other : RegisterFile) : Prop where
  flg : file.flg = other.flg
  read : ∀ register, file.read register = other.read register

theorem read_root (file : RegisterFile) (root : Root) :
    file.read root.register = file.slot root &&& root.register.view.mask := by
  cases root <;> simp [RegisterFile.read, Root.register, Register.root, Register.offset]

/-- A register is read off what its root shows. -/
theorem read_eq_read_root (file : RegisterFile) (register : Register) :
    file.read register =
      (file.read register.root.register &&& register.view.mask) >>>
        UInt32.ofNat (8 * register.offset) := by
  rw [read_root, UInt32.and_assoc, UInt32.and_comm register.root.register.view.mask,
    Register.mask_and_mask_root, RegisterFile.read]

theorem slot_eq_read_or_hidden (file : RegisterFile) (root : Root) :
    file.slot root = file.read root.register ||| file.hidden root := by
  rw [read_root, hidden, and_or_and_not]

/-- What a write does to what the roots show, said without their storage. -/
theorem read_root_write (file : RegisterFile) (register : Register) (value : UInt32)
    (root : Root) :
    (file.write register value).read root.register =
      if root = register.root then
        file.read root.register &&& ~~~register.view.mask |||
          (value <<< UInt32.ofNat (8 * register.offset)) &&& register.view.mask
      else file.read root.register := by
  rw [read_root, slot_write]
  split
  · next hroot =>
      subst hroot
      rw [replace_and register.mask_and_mask_root, read_root]
  · rw [read_root]

theorem hidden_write (file : RegisterFile) (register : Register) (value : UInt32) (root : Root) :
    (file.write register value).hidden root = file.hidden root := by
  rw [hidden, slot_write]
  split
  · next hroot =>
      subst hroot
      rw [replace_and_not register.mask_and_mask_root, hidden]
  · rw [hidden]

theorem hidden_setFlag (file : RegisterFile) (flag : Flag) (value : Bool) (root : Root) :
    (file.setFlag flag value).hidden root = file.hidden root := by
  rw [hidden, slot_setFlag, hidden]

theorem hidden_apply (file : RegisterFile) (op : Op) (root : Root) :
    (file.apply op).2.hidden root = file.hidden root := by
  have hflags (write : FlagWrite) (source : Expr) (result : UInt32) :
      (file.updateFlags write source result).hidden root = file.hidden root := by
    rw [hidden, slot_updateFlags, hidden]
  cases op with
  | setRegister dest value flags =>
      simp only [apply]
      split
      · rw [hidden_write, hflags]
      · rfl
  | eval value flags =>
      simp only [apply]
      split
      · exact hflags _ _ _
      · rfl
  | setFlag flag value => exact hidden_setFlag file flag value root
  | _ => rfl

theorem hidden_step (file : RegisterFile) (step : Step) (root : Root) :
    (file.step step).hidden root = file.hidden root := by
  cases step with
  | access access =>
      cases access with
      | write register value => exact hidden_write file register value root
      | setFlag flag value => exact hidden_setFlag file flag value root
  | apply op => exact hidden_apply file op root

/-- No run changes the bits that no register shows. -/
theorem hidden_run (file : RegisterFile) (steps : List Step) (root : Root) :
    (file.run steps).hidden root = file.hidden root := by
  induction steps generalizing file with
  | nil => rfl
  | cons step steps ih =>
      rw [run, List.foldl_cons]
      exact (ih (file.step step)).trans (hidden_step file step root)

namespace Agrees

variable {file other : RegisterFile}

/-- Files that agree on the flags and on all roots agree on every register. -/
theorem of_roots (hflg : file.flg = other.flg)
    (hroots : ∀ root : Root, file.read root.register = other.read root.register) :
    file.Agrees other := by
  refine ⟨hflg, ?_⟩
  intro register
  rw [read_eq_read_root, hroots, ← read_eq_read_root]

theorem flag_eq (h : file.Agrees other) : file.flag = other.flag := by
  funext flag
  rw [RegisterFile.flag, h.flg, RegisterFile.flag]

theorem evaluate_eq (h : file.Agrees other) (expr : Expr) :
    file.evaluate expr = other.evaluate expr :=
  evaluate_congr (fun register _ => h.read register) (fun flag _ => congrFun h.flag_eq flag)

theorem write (h : file.Agrees other) (register : Register) (value : UInt32) :
    (file.write register value).Agrees (other.write register value) := by
  apply of_roots
  · rw [flg_write, flg_write, h.flg]
  · intro root
    rw [read_root_write, read_root_write, h.read]

theorem setFlag (h : file.Agrees other) (flag : Flag) (value : Bool) :
    (file.setFlag flag value).Agrees (other.setFlag flag value) := by
  constructor
  · simp only [RegisterFile.setFlag, h.flg]
  · intro register
    rw [read_setFlag, read_setFlag, h.read]

theorem stable : Stable Agrees := ⟨fun h => h.setFlag, fun h => h.write⟩

/-- One operation: both files carry it out or neither does. -/
theorem apply (h : file.Agrees other) (op : Op) :
    (file.apply op).1 = (other.apply op).1 ∧ (file.apply op).2.Agrees (other.apply op).2 := by
  refine stable.apply ?_ h
  intro value _ file other h
  exact ⟨fun register _ => h.read register, fun flag _ => congrFun h.flag_eq flag⟩

theorem step (h : file.Agrees other) (step : Step) : (file.step step).Agrees (other.step step) := by
  cases step with
  | access access =>
      cases access with
      | write register value => exact h.write register value
      | setFlag flag value => exact h.setFlag flag value
  | apply op => exact (h.apply op).2

theorem run (h : file.Agrees other) (steps : List Step) :
    (file.run steps).Agrees (other.run steps) := by
  induction steps generalizing file other with
  | nil => exact h
  | cons step steps ih => exact ih (h.step step)

/-- Files that show the same and hide the same are the same. -/
theorem eq_of_hidden (h : file.Agrees other)
    (hhidden : ∀ root, file.hidden root = other.hidden root) : file = other := by
  have hslot (root : Root) : file.slot root = other.slot root := by
    rw [slot_eq_read_or_hidden, slot_eq_read_or_hidden, h.read, hhidden]
  exact eq_of_slots hslot h.flg

end Agrees

/-- Unused storage is inert. Of two files that show the same flags and registers
take any steps with both: whatever can be asked afterwards has one answer, and
the bits outside the width of a root are what they were. As the steps are
arbitrary, this holds before, between and after the steps of any run. A file
that starts empty never has such a bit set, and two such files that show the
same are the same. -/
theorem run_noninterference :
    (∀ file other : RegisterFile, file.flg = other.flg →
      (∀ register, file.read register = other.read register) → ∀ steps : List Step,
      let after := file.run steps
      let otherAfter := other.run steps
      after.flg = otherAfter.flg ∧
      (∀ register, after.read register = otherAfter.read register) ∧
      (∀ flag, after.flag flag = otherAfter.flag flag) ∧
      (∀ expr, after.evaluate expr = otherAfter.evaluate expr) ∧
      (∀ op, (after.apply op).1 = (otherAfter.apply op).1) ∧
      (∀ condition : Condition, condition.holds after.flag = condition.holds otherAfter.flag) ∧
      ∀ root, after.hidden root = file.hidden root ∧ otherAfter.hidden root = other.hidden root) ∧
    (∀ (steps : List Step) (root : Root), (run {} steps).hidden root = 0) ∧
    ∀ steps others : List Step, (run {} steps).flg = (run {} others).flg →
      (∀ register, (run {} steps).read register = (run {} others).read register) →
      run {} steps = run {} others := by
  have hempty (steps : List Step) (root : Root) : (run {} steps).hidden root = 0 := by
    rw [hidden_run]
    cases root <;> rfl
  refine ⟨?_, hempty, ?_⟩
  · intro file other hflg hread steps after otherAfter
    have hagrees : after.Agrees otherAfter := Agrees.run ⟨hflg, hread⟩ steps
    refine ⟨hagrees.flg, hagrees.read, congrFun hagrees.flag_eq, hagrees.evaluate_eq, ?_, ?_, ?_⟩
    · intro op
      exact (hagrees.apply op).1
    · intro condition
      rw [hagrees.flag_eq]
    · intro root
      exact ⟨hidden_run file steps root, hidden_run other steps root⟩
  · intro steps others hflg hread
    apply Agrees.eq_of_hidden ⟨hflg, hread⟩
    intro root
    rw [hempty, hempty]

/-- Two files of which one is loaded with bits above `FB` and `PC`: a sum over
both registers is the same, and a write over all of `FB` leaves the bits above
it. -/
theorem run_noninterference_loaded :
    let loaded : RegisterFile := { fb := 0xABCD8001, pc := 0xFF00FFFF }
    let plain : RegisterFile := { fb := 0x8001, pc := 0xFFFF }
    let steps : List Step :=
      [.apply (.setRegister .a0 (.add 2 (.register .fb) (.register .pc)) .oszc),
       .access (.write .fb 0xFFFFFFFF)]
    (loaded.run steps).read .a0 = (plain.run steps).read .a0 ∧
      (loaded.run steps).flag .c = (plain.run steps).flag .c ∧
      (loaded.run steps).hidden .fb = 0xABCD0000 ∧ (plain.run steps).hidden .fb = 0 := by
  intro loaded plain steps
  have hread (register : Register) : loaded.read register = plain.read register := by
    cases register <;> decide
  obtain ⟨_, hreads, hflags, _, _, _, hhidden⟩ :=
    run_noninterference.1 loaded plain rfl hread steps
  exact ⟨hreads .a0, hflags .c, (hhidden .fb).1.trans (by decide),
    (hhidden .fb).2.trans (by decide)⟩

end RegisterFile

end M16C
