import Mathlib.Algebra.Group.Nat.Defs
import Mathlib.Data.List.Basic
import M16C.AddressText
import M16C.Text.Hex

/-!
Hexadecimal digits against the numbers they stand for. Whatever is padded and
in whichever case it is written, the digits of a number are hexadecimal digits
and read back as the number; and a number that fits the width fills it exactly.
-/

namespace M16C.Hex

/-- The number that hexadecimal digits stand for. Any other character counts as
a zero. -/
def value (digits : List Char) : Nat :=
  digits.foldl (fun number c => 16 * number + (AddressText.digit? 16 c).getD 0) 0

theorem value_append_singleton (digits : List Char) (c : Char) :
    value (digits ++ [c]) = 16 * value digits + (AddressText.digit? 16 c).getD 0 := by
  rw [value, List.foldl_append, ← value]
  rfl

theorem digit?_digitChar : ∀ d < 16, AddressText.digit? 16 (Nat.digitChar d) = some d := by
  decide

theorem digit?_toUpper_digitChar :
    ∀ d < 16, AddressText.digit? 16 (Nat.digitChar d).toUpper = some d := by
  decide

theorem exists_of_mem_toDigits {n : Nat} {c : Char} (h : c ∈ Nat.toDigits 16 n) :
    ∃ d < 16, c = Nat.digitChar d := by
  induction n using Nat.strongRecOn with
  | ind n ih =>
      rw [Nat.toDigits_eq_if (by decide)] at h
      split at h
      · next hsmall => exact ⟨n, hsmall, List.mem_singleton.mp h⟩
      · next hlarge =>
          rcases List.mem_append.mp h with hfront | hlast
          · exact ih (n / 16) (by omega) hfront
          · exact ⟨n % 16, Nat.mod_lt n (by decide), List.mem_singleton.mp hlast⟩

theorem exists_of_mem_digits {width n : Nat} {c : Char} (h : c ∈ digits width n) :
    ∃ d < 16, c = Nat.digitChar d := by
  rcases List.mem_append.mp h with hpad | hdigits
  · exact ⟨0, by decide, List.eq_of_mem_replicate hpad⟩
  · exact exists_of_mem_toDigits hdigits

theorem mem_of_mem_upperDigits {width n : Nat} {c : Char} (h : c ∈ upperDigits width n) :
    c ∈ "0123456789ABCDEF".toList := by
  have hupper : ∀ d < 16, (Nat.digitChar d).toUpper ∈ "0123456789ABCDEF".toList := by decide
  obtain ⟨lower, hlower, rfl⟩ := List.mem_map.mp h
  obtain ⟨d, hd, rfl⟩ := exists_of_mem_digits hlower
  exact hupper d hd

theorem value_toDigits (n : Nat) : value (Nat.toDigits 16 n) = n := by
  induction n using Nat.strongRecOn with
  | ind n ih =>
      rw [Nat.toDigits_eq_if (by decide)]
      split
      · next hsmall =>
          simp [value, digit?_digitChar n hsmall]
      · next hlarge =>
          rw [value_append_singleton, ih (n / 16) (by omega),
            digit?_digitChar _ (Nat.mod_lt n (by decide)), Option.getD_some, Nat.div_add_mod]

theorem value_replicate_append (count : Nat) (digits : List Char) :
    value (List.replicate count '0' ++ digits) = value digits := by
  induction count with
  | zero => rfl
  | succ count ih => exact ih

theorem value_digits (width n : Nat) : value (digits width n) = n := by
  rw [digits, List.leftpad, value_replicate_append, value_toDigits]

theorem value_upperDigits (width n : Nat) : value (upperDigits width n) = n := by
  have hcase (number : Nat) (c : Char) (hc : c ∈ digits width n) :
      16 * number + (AddressText.digit? 16 c.toUpper).getD 0 =
        16 * number + (AddressText.digit? 16 c).getD 0 := by
    obtain ⟨d, hd, rfl⟩ := exists_of_mem_digits hc
    rw [digit?_toUpper_digitChar d hd, digit?_digitChar d hd]
  calc
    value (upperDigits width n) = value (digits width n) := by
      rw [upperDigits, value, List.foldl_map]
      exact List.foldl_ext _ _ _ hcase
    _ = n := value_digits width n

theorem length_digits {width n : Nat} (hwidth : 0 < width) (hn : n < 16 ^ width) :
    (digits width n).length = width := by
  rw [digits, List.length_leftpad]
  exact Nat.max_eq_left ((Nat.length_toDigits_le_iff (by decide) hwidth).mpr hn)

theorem length_upperDigits {width n : Nat} (hwidth : 0 < width) (hn : n < 16 ^ width) :
    (upperDigits width n).length = width := by
  rw [upperDigits, List.length_map, length_digits hwidth hn]

end M16C.Hex
