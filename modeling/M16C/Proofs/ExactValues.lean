import Mathlib.Data.Int.ModEq
import M16C.Proofs.Evaluation

/-!
The value of an expression against its value over the integers. Evaluation
wraps each sum and difference at the word and cuts it to the size of its node;
a register is cut by its view, and a flag is one bit. A value is therefore
below the power of 256 that its own size gives, with four bytes at most. What
wrapping and cutting take away are multiples of that power as long as no part
is narrower, so the value is the exact one up to such multiples. A narrower
part inside takes away more.
-/

namespace M16C

open Il

section Residues

variable {size width : Nat} {word a b : UInt32} {m n : ℤ}

/-- The low bits of a number have its residue at any lower power of two. -/
theorem mod_modEq_of_le {low high : Nat} (h : low ≤ high) (number : Nat) :
    ((number % 2 ^ high : Nat) : ℤ) ≡ number [ZMOD 2 ^ low] := by
  apply Int.ModEq.of_dvd (pow_dvd_pow 2 h)
  rw [Int.natCast_mod, Nat.cast_pow, Nat.cast_ofNat]
  exact Int.mod_modEq _ _

/-- A cut keeps the residue of a word at every size up to its own. -/
theorem modEq_cut (hsize : size ≤ 4) (hcut : size ≤ width)
    (h : (word.toNat : ℤ) ≡ n [ZMOD 2 ^ (8 * size)]) :
    ((word &&& byteMask width).toNat : ℤ) ≡ n [ZMOD 2 ^ (8 * size)] := by
  rw [toNat_and_byteMask]
  exact (mod_modEq_of_le (by omega) word.toNat).trans h

theorem modEq_add (hsize : size ≤ 4) (ha : (a.toNat : ℤ) ≡ m [ZMOD 2 ^ (8 * size)])
    (hb : (b.toNat : ℤ) ≡ n [ZMOD 2 ^ (8 * size)]) :
    ((a + b).toNat : ℤ) ≡ m + n [ZMOD 2 ^ (8 * size)] := by
  calc
    ((a + b).toNat : ℤ) = ((a.toNat + b.toNat) % 2 ^ 32 : Nat) := by rw [UInt32.toNat_add]
    _ ≡ (a.toNat + b.toNat : Nat) [ZMOD 2 ^ (8 * size)] := mod_modEq_of_le (by omega) _
    _ = a.toNat + b.toNat := Nat.cast_add _ _
    _ ≡ m + n [ZMOD 2 ^ (8 * size)] := ha.add hb

theorem modEq_sub (hsize : size ≤ 4) (ha : (a.toNat : ℤ) ≡ m [ZMOD 2 ^ (8 * size)])
    (hb : (b.toNat : ℤ) ≡ n [ZMOD 2 ^ (8 * size)]) :
    ((a - b).toNat : ℤ) ≡ m - n [ZMOD 2 ^ (8 * size)] := by
  -- The difference of words is the word that gives `a` when `b` is added.
  have hsum := modEq_add (a := a - b) hsize rfl hb
  rw [UInt32.sub_add_cancel] at hsum
  apply Int.ModEq.add_right_cancel' n
  rw [sub_add_cancel]
  exact hsum.symm.trans ha

end Residues

namespace RegisterFile

/-- The value of an expression over the integers: nothing wraps and nothing is
cut, so extensions and low parts are the value inside them. -/
def exactValue (file : RegisterFile) : Expr → Option Int
  | .const _ value => some value.toNat
  | .register register => some (file.read register).toNat
  | .flag flag => some (if file.flag flag then 1 else 0)
  | .add _ left right => do
      let a ← file.exactValue left
      let b ← file.exactValue right
      return a + b
  | .sub _ left right => do
      let a ← file.exactValue left
      let b ← file.exactValue right
      return a - b
  | .zeroExtend _ value | .lowPart _ value => file.exactValue value
  | .load .. | .pop _ => none

section Inversion

variable {file : RegisterFile} {size : Nat} {left right value : Expr} {result : UInt32}

theorem evaluate_add_eq_some :
    file.evaluate (.add size left right) = some result ↔
      ∃ a b, file.evaluate left = some a ∧ file.evaluate right = some b ∧
        (a + b) &&& byteMask size = result := by
  simp [evaluate, Option.bind_eq_some_iff]

theorem evaluate_sub_eq_some :
    file.evaluate (.sub size left right) = some result ↔
      ∃ a b, file.evaluate left = some a ∧ file.evaluate right = some b ∧
        (a - b) &&& byteMask size = result := by
  simp [evaluate, Option.bind_eq_some_iff]

theorem evaluate_zeroExtend_eq_some :
    file.evaluate (.zeroExtend size value) = some result ↔
      ∃ a, file.evaluate value = some a ∧ a &&& byteMask size = result := by
  simp [evaluate, Option.bind_eq_some_iff]

theorem evaluate_lowPart_eq_some :
    file.evaluate (.lowPart size value) = some result ↔
      ∃ a, file.evaluate value = some a ∧ a &&& byteMask size = result := by
  simp [evaluate, Option.bind_eq_some_iff]

end Inversion

/-- A value has no more bytes than its expression. -/
theorem evaluate_and_byteMask {file : RegisterFile} {expr : Expr} {result : UInt32}
    (h : file.evaluate expr = some result) : result &&& byteMask expr.size = result := by
  cases expr with
  | const size value =>
      cases h
      exact and_byteMask_and_byteMask le_rfl value
  | register register =>
      cases h
      exact file.read_and_byteMask register
  | flag flag =>
      cases h
      change _ &&& byteMask 1 = _
      cases file.flag flag <;> rfl
  | add size left right =>
      obtain ⟨a, b, -, -, rfl⟩ := evaluate_add_eq_some.mp h
      exact and_byteMask_and_byteMask le_rfl (a + b)
  | sub size left right =>
      obtain ⟨a, b, -, -, rfl⟩ := evaluate_sub_eq_some.mp h
      exact and_byteMask_and_byteMask le_rfl (a - b)
  | zeroExtend size value =>
      obtain ⟨a, -, rfl⟩ := evaluate_zeroExtend_eq_some.mp h
      exact and_byteMask_and_byteMask le_rfl a
  | lowPart size value =>
      obtain ⟨a, -, rfl⟩ := evaluate_lowPart_eq_some.mp h
      exact and_byteMask_and_byteMask le_rfl a
  | load size address => cases h
  | pop size => cases h

theorem evaluate_lt {file : RegisterFile} {expr : Expr} {result : UInt32}
    (h : file.evaluate expr = some result) : result.toNat < 2 ^ (8 * min expr.size 4) := by
  rw [← evaluate_and_byteMask h, toNat_and_byteMask]
  exact Nat.mod_lt _ (Nat.two_pow_pos _)

/-- The narrowest part decides: up to the size of it, four bytes at most, a
value has the residue of the exact one. -/
theorem evaluate_modEq {file : RegisterFile} {size : Nat} (hsize : size ≤ 4) {expr : Expr}
    {result : UInt32} (hparts : ∀ part ∈ expr.parts, size ≤ part.size)
    (h : file.evaluate expr = some result) :
    ∃ number, file.exactValue expr = some number ∧
      (result.toNat : ℤ) ≡ number [ZMOD 2 ^ (8 * size)] := by
  induction expr generalizing result with
  | const width value =>
      cases h
      have hcut : size ≤ width := hparts (.const width value) (List.mem_singleton_self _)
      exact ⟨_, rfl, modEq_cut hsize hcut rfl⟩
  | register register =>
      cases h
      exact ⟨_, rfl, rfl⟩
  | flag flag =>
      cases h
      refine ⟨_, rfl, ?_⟩
      cases file.flag flag <;> rfl
  | add width left right hleft hright =>
      obtain ⟨hcut, hoperands⟩ := List.forall_mem_cons.mp hparts
      obtain ⟨hleftParts, hrightParts⟩ := List.forall_mem_append.mp hoperands
      obtain ⟨a, b, ha, hb, rfl⟩ := evaluate_add_eq_some.mp h
      obtain ⟨m, hm, ham⟩ := hleft hleftParts ha
      obtain ⟨n, hn, hbn⟩ := hright hrightParts hb
      -- The sum wraps first and is cut to its own width after, which may be the wider.
      refine ⟨m + n, ?_, modEq_cut hsize hcut (modEq_add hsize ham hbn)⟩
      rw [exactValue, hm, hn]
      rfl
  | sub width left right hleft hright =>
      obtain ⟨hcut, hoperands⟩ := List.forall_mem_cons.mp hparts
      obtain ⟨hleftParts, hrightParts⟩ := List.forall_mem_append.mp hoperands
      obtain ⟨a, b, ha, hb, rfl⟩ := evaluate_sub_eq_some.mp h
      obtain ⟨m, hm, ham⟩ := hleft hleftParts ha
      obtain ⟨n, hn, hbn⟩ := hright hrightParts hb
      refine ⟨m - n, ?_, modEq_cut hsize hcut (modEq_sub hsize ham hbn)⟩
      rw [exactValue, hm, hn]
      rfl
  | zeroExtend width value ih =>
      obtain ⟨hcut, hvalueParts⟩ := List.forall_mem_cons.mp hparts
      obtain ⟨a, ha, rfl⟩ := evaluate_zeroExtend_eq_some.mp h
      obtain ⟨n, hn, han⟩ := ih hvalueParts ha
      exact ⟨n, hn, modEq_cut hsize hcut han⟩
  | lowPart width value ih =>
      obtain ⟨hcut, hvalueParts⟩ := List.forall_mem_cons.mp hparts
      obtain ⟨a, ha, rfl⟩ := evaluate_lowPart_eq_some.mp h
      obtain ⟨n, hn, han⟩ := ih hvalueParts ha
      exact ⟨n, hn, modEq_cut hsize hcut han⟩
  | load width address => cases h
  | pop width => cases h

/-- A constant cut to one byte inside a sum of two: the exact value is lost. -/
example : ({} : RegisterFile).evaluate (.add 2 (.const 1 0x100) (.const 2 0)) = some 0 ∧
    ({} : RegisterFile).exactValue (.add 2 (.const 1 0x100) (.const 2 0)) = some 256 := by
  decide

/-- Evaluation is bounded and modular. An expression has a value exactly when
nothing in it reads memory or the stack. The value is below the power of 256
that the size of the expression gives, four bytes at most. If all parts have one
size, it equals the exact value over the integers modulo that power. -/
theorem evaluate_bounded_modular (file : RegisterFile) (expr : Expr) :
    ((∃ result, file.evaluate expr = some result) ↔
      ∀ part ∈ expr.parts, part.readsOutside = false) ∧
    ∀ result, file.evaluate expr = some result →
      result.toNat < 2 ^ (8 * min expr.size 4) ∧
      ∀ size, (∀ part ∈ expr.parts, part.size = size) →
        ∃ number, file.exactValue expr = some number ∧
          (result.toNat : ℤ) ≡ number [ZMOD 2 ^ (8 * min size 4)] := by
  refine ⟨file.exists_evaluate_iff expr, ?_⟩
  intro result hresult
  refine ⟨evaluate_lt hresult, ?_⟩
  intro size hsizes
  have hparts : ∀ part ∈ expr.parts, min size 4 ≤ part.size := by
    intro part hpart
    rw [hsizes part hpart]
    exact min_le_left size 4
  exact evaluate_modEq (min_le_right size 4) hparts hresult

/-- Three bytes, with a register whose top byte is not part of it: the sum
passes the size and the difference goes below zero in the word. -/
theorem evaluate_bounded_modular_borrow :
    let file : RegisterFile := { pc := 0x12000000 }
    let expr : Expr := .sub 3 (.register .pc) (.add 3 (.const 3 0xFFFFFFFF) (.const 3 2))
    file.evaluate expr = some 0xFFFFFF ∧ file.exactValue expr = some (-0x100000001) ∧
      (0xFFFFFF : UInt32).toNat < 2 ^ 24 ∧ (0xFFFFFF : ℤ) ≡ -0x100000001 [ZMOD 2 ^ 24] := by
  intro file expr
  have hvalue : file.evaluate expr = some 0xFFFFFF := by decide
  have hexact : file.exactValue expr = some (-0x100000001) := by decide
  obtain ⟨_, hlaw⟩ := evaluate_bounded_modular file expr
  obtain ⟨hbound, hmodular⟩ := hlaw 0xFFFFFF hvalue
  obtain ⟨number, hsome, hequal⟩ := hmodular 3 (by decide)
  obtain rfl : number = -0x100000001 := Option.some.inj (hsome.symm.trans hexact)
  exact ⟨hvalue, hexact, hbound, hequal⟩

end RegisterFile

end M16C
