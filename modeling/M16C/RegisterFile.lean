import M16C.Flag
import M16C.Register

/-!
The contents of the registers: one word for each root and the flag register.
A root narrower than a word leaves bits of its word unused; they can hold
anything and no register shows them.
-/

namespace M16C

structure RegisterFile where
  r2r0 : UInt32 := 0
  r3r1 : UInt32 := 0
  a1a0 : UInt32 := 0
  fb : UInt32 := 0
  pc : UInt32 := 0
  sp : UInt32 := 0
  sb : UInt32 := 0
  intb : UInt32 := 0
  flg : UInt8 := 0
  deriving DecidableEq, Repr

namespace RegisterFile

/-- The word of storage behind a root. -/
def slot (file : RegisterFile) : Root → UInt32
  | .r2r0 => file.r2r0
  | .r3r1 => file.r3r1
  | .a1a0 => file.a1a0
  | .fb => file.fb
  | .pc => file.pc
  | .sp => file.sp
  | .sb => file.sb
  | .intb => file.intb

def setSlot (file : RegisterFile) (root : Root) (word : UInt32) : RegisterFile :=
  match root with
  | .r2r0 => { file with r2r0 := word }
  | .r3r1 => { file with r3r1 := word }
  | .a1a0 => { file with a1a0 := word }
  | .fb => { file with fb := word }
  | .pc => { file with pc := word }
  | .sp => { file with sp := word }
  | .sb => { file with sb := word }
  | .intb => { file with intb := word }

/-- The words of all roots, in the order of the roots. -/
def slots (file : RegisterFile) : List UInt32 := Root.all.map file.slot

/-- The value a register shows. -/
def read (file : RegisterFile) (register : Register) : UInt32 :=
  (file.slot register.root &&& register.view.mask) >>> UInt32.ofNat (8 * register.offset)

/-- The file after `value` is written to a register. Bytes of the root outside
the register keep their contents, and bits of `value` past its width are
dropped. -/
def write (file : RegisterFile) (register : Register) (value : UInt32) : RegisterFile :=
  let mask := register.view.mask
  file.setSlot register.root
    ((file.slot register.root &&& ~~~mask) |||
      ((value <<< UInt32.ofNat (8 * register.offset)) &&& mask))

def flag (file : RegisterFile) (flag : Flag) : Bool := flag.isSet file.flg

def setFlag (file : RegisterFile) (flag : Flag) (value : Bool) : RegisterFile :=
  { file with flg := flag.put file.flg value }

@[simp] theorem slot_setSlot (file : RegisterFile) (root other : Root) (word : UInt32) :
    (file.setSlot root word).slot other = if other = root then word else file.slot other := by
  cases root <;> cases other <;> rfl

@[simp] theorem flg_setSlot (file : RegisterFile) (root : Root) (word : UInt32) :
    (file.setSlot root word).flg = file.flg := by
  cases root <;> rfl

@[simp] theorem slot_setFlag (file : RegisterFile) (flag : Flag) (value : Bool) (root : Root) :
    (file.setFlag flag value).slot root = file.slot root := by
  cases root <;> rfl

@[simp] theorem flag_setSlot (file : RegisterFile) (root : Root) (word : UInt32) (flag : Flag) :
    (file.setSlot root word).flag flag = file.flag flag := by
  simp [RegisterFile.flag]

@[simp] theorem flag_setFlag (file : RegisterFile) (flag other : Flag) (value : Bool) :
    (file.setFlag flag value).flag other = if other = flag then value else file.flag other := by
  simp [RegisterFile.flag, setFlag]

end RegisterFile

end M16C
