import Mathlib.Algebra.Group.Int.Defs
import Mathlib.Algebra.Group.Nat.Defs
import M16C.Proofs.Address

/-!
Branch distances as 32-bit words give them. The distance to a target is a
difference of words, which wraps; its low twenty bits are kept, and the highest
of them becomes the sign by a shift to the top of the word and an arithmetic
shift back. A target is a sum of words, which wraps as well, cut to the space.
No carry is lost that matters, because the size of the space divides that of a
word: both come out as they do on integers, for any bits of the addresses above
the space. Target and distance therefore undo each other modulo the space.
-/

namespace M16C.Address

/-- The low twenty bits of a word, with the highest of them as the sign. -/
def signExtended (word : UInt32) : Int32 := (wrap word <<< 12).toInt32 >>> 12

/-- The target of a branch, computed in words. -/
def relativeWord (address base : UInt32) (distance : Int32) : UInt32 :=
  wrap (address + base + distance.toUInt32)

/-- The distance of a branch, computed in words. -/
def displacementWord (target address base : UInt32) : Int32 :=
  signExtended (target - (address + base))

theorem toInt_toInt32 (word : UInt32) : word.toInt32.toInt = Int.bmod word.toNat (2 ^ 32) := by
  rw [← Int32.toInt_toBitVec, UInt32.toBitVec_toInt32, BitVec.toInt_eq_toNat_bmod,
    UInt32.toNat_toBitVec]

theorem toInt_shiftRight_twelve (word : Int32) : (word >>> 12).toInt = word.toInt / 4096 := by
  have hcount : ((12 : Int32).toBitVec.smod 32).toNat = 12 := by decide
  rw [← Int32.toInt_toBitVec, Int32.toBitVec_shiftRight, BitVec.toInt_sshiftRight', hcount,
    Int.shiftRight_eq_div_pow, Int32.toInt_toBitVec]
  rfl

/-- The two shifts reduce a word to the number of least magnitude that is equal
to it modulo the space. -/
theorem toInt_signExtended (word : UInt32) :
    (signExtended word).toInt = Int.bmod word.toNat space := by
  have hshifted : (wrap word <<< 12).toNat = word.toNat % space * 4096 := by
    rw [UInt32.toNat_shiftLeft, Nat.shiftLeft_eq, toNat_wrap]
    have hcount : (12 : UInt32).toNat % 32 = 12 := rfl
    rw [hcount]
    unfold space
    omega
  rw [signExtended, toInt_shiftRight_twelve, toInt_toInt32, hshifted, Int.bmod_def, Int.bmod_def]
  unfold space
  -- The sign bit of the shifted word is the highest of the twenty.
  split <;> split <;> omega

theorem toInt_displacementWord (target address base : Address) :
    (displacementWord target address base).toInt = displacement target address base := by
  have hdifference : ((target - (address + base)).toNat : Int) % space =
      (target.toNat - (address.toNat + base.toNat)) % space := by
    rw [UInt32.toNat_sub, UInt32.toNat_add]
    unfold space
    omega
  calc
    (displacementWord target address base).toInt
      = Int.bmod (target - (address + base)).toNat space := toInt_signExtended _
    _ = Int.bmod (((target - (address + base)).toNat : Int) % space) space :=
      (Int.emod_bmod _ _).symm
    _ = Int.bmod ((target.toNat - (address.toNat + base.toNat)) % space) space := by
      rw [hdifference]
    _ = displacement target address base := Int.emod_bmod _ _

theorem relativeWord_eq (address base : Address) (distance : Int32) :
    relativeWord address base distance = relative address base distance.toInt := by
  have hdistance : distance.toInt % (2 ^ 32 : Nat) = distance.toUInt32.toNat % (2 ^ 32 : Nat) := by
    have hsigned := toInt_toInt32 distance.toUInt32
    rw [Int32.toInt32_toUInt32] at hsigned
    rw [hsigned, Int.bmod_emod]
  have htarget := toNat_relative address base distance.toInt
  apply UInt32.toNat.inj
  rw [relativeWord, toNat_wrap, UInt32.toNat_add, UInt32.toNat_add]
  unfold space at *
  omega

/-- Distances and targets undo each other modulo the address space, for all
32-bit addresses. The distance to a target is of twenty bits with a sign and
leads to the target cut to the space; a distance of twenty bits with a sign is
found again from the target it leads to. Words that wrap, masked and shifted,
compute the same distances and the same targets. -/
theorem displacement_inverts_relative (target address base : Address) :
    (-2 ^ 19 ≤ displacement target address base ∧ displacement target address base < 2 ^ 19) ∧
    (relative address base (displacement target address base)).toNat = target.toNat % 2 ^ 20 ∧
    (∀ distance : Int, -2 ^ 19 ≤ distance → distance < 2 ^ 19 →
      displacement (relative address base distance) address base = distance) ∧
    displacement target address base = (displacementWord target address base).toInt ∧
    ∀ distance : Int32,
      relative address base distance.toInt = relativeWord address base distance := by
  refine ⟨displacement_bounds target address base, ?_, ?_, ?_, ?_⟩
  · rw [relative_displacement, toNat_wrap]
    rfl
  · intro distance hlow hhigh
    exact displacement_relative address base distance hlow hhigh
  · exact (toInt_displacementWord target address base).symm
  · intro distance
    exact (relativeWord_eq address base distance).symm

/-- The longest way back, from the highest word: the sum passes the top of the
word and then the start of the space. -/
theorem displacement_inverts_relative_lowest :
    relativeWord 0xFFFFFFFF 2 (-524288) = 0x80001 ∧
      displacement (relative 0xFFFFFFFF 2 (-524288)) 0xFFFFFFFF 2 = -524288 ∧
      (displacementWord 0x80001 0xFFFFFFFF 2).toInt = -524288 := by
  obtain ⟨_, _, hfound, _, hwords⟩ := displacement_inverts_relative 0x80001 0xFFFFFFFF 2
  have htarget : relative 0xFFFFFFFF 2 (-524288) = 0x80001 := by decide
  refine ⟨(hwords (-524288)).symm.trans htarget, hfound (-524288) (by decide) (by decide), ?_⟩
  decide

end M16C.Address
