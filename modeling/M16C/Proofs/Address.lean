import M16C.Address

/-!
Arithmetic of the 20-bit address space. A branch is encoded as the signed
distance to its target and decoded by adding that distance back, both modulo
the size of the space. The two are inverse on the distances of least magnitude,
and neither looks at the bits of an address above the space.
-/

namespace M16C.Address

theorem toNat_wrap (address : Address) :
    (wrap address).toNat = address.toNat % space := by
  rw [wrap, UInt32.toNat_and]
  exact Nat.and_two_pow_sub_one_eq_mod address.toNat 20

theorem toNat_relative (address base : Address) (distance : Int) :
    ((relative address base distance).toNat : Int) =
      (address.toNat + base.toNat + distance) % space := by
  unfold relative space
  rw [UInt32.toNat_ofNat', Nat.mod_eq_of_lt (by omega)]
  omega

theorem le_last_iff (address : Address) : address ≤ last ↔ address.toNat < space := by
  have hlast : last.toNat = 1048575 := rfl
  rw [UInt32.le_iff_toNat_le, hlast]
  unfold space
  omega

theorem relative_le_last (address base : Address) (distance : Int) :
    relative address base distance ≤ last := by
  have hsum := toNat_relative address base distance
  rw [le_last_iff]
  unfold space at *
  omega

theorem wrap_le_last (address : Address) : wrap address ≤ last := by
  rw [le_last_iff, toNat_wrap]
  exact Nat.mod_lt _ (by decide)

theorem wrap_of_le_last {address : Address} (h : address ≤ last) : wrap address = address := by
  apply UInt32.toNat.inj
  rw [toNat_wrap]
  exact Nat.mod_eq_of_lt ((le_last_iff address).mp h)

theorem ofNat_mod_space (address : Address) :
    UInt32.ofNat (address.toNat % space) = wrap address := by
  apply UInt32.toNat.inj
  rw [toNat_wrap, UInt32.toNat_ofNat']
  unfold space
  omega

theorem displacement_bounds (target address base : Address) :
    -524288 ≤ displacement target address base ∧
      displacement target address base < 524288 := by
  constructor
  · exact Int.le_bmod (by decide)
  · exact Int.bmod_lt (by decide)

/-- The distance leads from the base to the target, modulo the space. -/
theorem displacement_emod (target address base : Address) :
    (address.toNat + base.toNat + displacement target address base) % space =
      (target.toNat : Int) % space := by
  have hmod := @Int.bmod_emod (target.toNat - (address.toNat + base.toNat)) space
  unfold displacement
  unfold space at *
  omega

/-- Adding a distance and asking for it again gives it back, when it is one of
the least magnitude. -/
theorem displacement_relative (address base : Address) (distance : Int)
    (hlow : -524288 ≤ distance) (hhigh : distance < 524288) :
    displacement (relative address base distance) address base = distance := by
  have htarget := toNat_relative address base distance
  have hsum := displacement_emod (relative address base distance) address base
  have hbounds := displacement_bounds (relative address base distance) address base
  unfold space at *
  omega

/-- Going the distance to a target leads to the target, inside the space. -/
theorem relative_displacement (target address base : Address) :
    relative address base (displacement target address base) = wrap target := by
  have htarget := toNat_relative address base (displacement target address base)
  have hsum := displacement_emod target address base
  apply UInt32.toNat.inj
  rw [toNat_wrap]
  unfold space at *
  omega

theorem displacement_wrap (target address base : Address) :
    displacement (wrap target) address base = displacement target address base := by
  have hwrapped := displacement_emod (wrap target) address base
  have hplain := displacement_emod target address base
  have hwrappedBounds := displacement_bounds (wrap target) address base
  have hplainBounds := displacement_bounds target address base
  have htarget := toNat_wrap target
  unfold space at *
  omega

theorem toNat_following (address : Address) (length : Nat) :
    (following address length).toNat = (address.toNat + length) % space := by
  have hsum := toNat_relative address 0 length
  have hzero : (0 : Address).toNat = 0 := rfl
  rw [following]
  unfold space at *
  omega

theorem ofNat_add_mod_space (address : Address) (length : Nat) :
    UInt32.ofNat ((address.toNat + length) % space) = following address length := by
  apply UInt32.toNat.inj
  rw [toNat_following, UInt32.toNat_ofNat']
  unfold space
  omega

theorem following_le_last (address : Address) (length : Nat) : following address length ≤ last :=
  relative_le_last address 0 length

theorem following_zero {address : Address} (h : address ≤ last) :
    following address 0 = address := by
  apply UInt32.toNat.inj
  rw [toNat_following]
  exact Nat.mod_eq_of_lt ((le_last_iff address).mp h)

theorem following_following (address : Address) (first second : Nat) :
    following (following address first) second = following address (first + second) := by
  apply UInt32.toNat.inj
  simp only [toNat_following]
  unfold space
  omega

theorem following_wrap (address : Address) (length : Nat) :
    following (wrap address) length = following address length := by
  apply UInt32.toNat.inj
  rw [toNat_following, toNat_following, toNat_wrap, Nat.mod_add_mod]

end M16C.Address
