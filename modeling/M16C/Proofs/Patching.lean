import M16C.Proofs.Composition

/-!
Patching instructions away. The bytes of some rows are overwritten with bytes
that do nothing, and the image is swept again. The rows before the patch stay
as they were when they are valid, because a valid row is settled by its own
bytes; each patched byte becomes a row; and the rows behind the patch are the
same, because the sweep comes to stand at their first byte again. A row before
the patch that is not valid gives no such warrant: its byte may begin an
instruction that the patch completes.
-/

namespace M16C

open Instruction (decode nopByte)

namespace Row

/-- The row of a byte that does nothing. -/
def nop (address : Address) : Row where
  address := address
  length := 1
  bytes := [nopByte]
  text := "NOP"
  isInvalid := false

theorem describes_nop (display : Display) (address : Address) (tail : List UInt8) :
    (nop address).Describes display address (nopByte :: tail) := by
  have hdecode : decode (nopByte :: tail) address = .ok .nop := rfl
  have hrow := describes_here nopByte tail address display
  rw [here_of_decode_ok display hdecode] at hrow
  exact hrow

/-- Bytes that do nothing are rows of their own, whatever follows. -/
theorem settled_nops (display : Display) {address : Address} (haddress : address ≤ Address.last)
    (count : Nat) :
    Settled display address (Gateway.nops count)
      ((List.range count).map fun n => nop (Address.following address n)) := by
  induction count generalizing address with
  | zero => exact .nil address
  | succ count ih =>
      have hlater := ih (Address.following_le_last address 1)
      simp only [Address.following_following, Nat.add_comm 1] at hlater
      rw [List.range_succ_eq_map, List.map_cons, List.map_map, Address.following_zero haddress]
      apply Settled.cons
      · intro tail
        exact describes_nop display address (Gateway.nops count ++ tail)
      · exact hlater

theorem covered_take_le (rows : List Row) {i j : Nat} (h : i ≤ j) :
    covered (rows.take i) ≤ covered (rows.take j) := by
  have hsplit := List.take_append_drop i (rows.take j)
  rw [List.take_take, Nat.min_eq_left h] at hsplit
  rw [← hsplit, covered_append]
  exact Nat.le_add_right _ _

namespace Tiles

variable {display : Display} {address : Address} {bytes : List UInt8} {rows : List Row}

theorem covered_take_le_length (h : Tiles display address bytes rows) (j : Nat) :
    covered (rows.take j) ≤ bytes.length := by
  induction h generalizing j with
  | nil address =>
      rw [List.take_nil]
      exact Nat.le_refl 0
  | cons first later ih =>
      cases j with
      | zero => exact Nat.zero_le _
      | succ j =>
          have hrest := ih j
          have hfits := first.length_le_bytes
          rw [List.length_drop] at hrest
          rw [List.take_succ_cons, covered]
          omega

/-- The rows from place `j` on tile the bytes behind those before. -/
theorem drop (h : Tiles display address bytes rows) (haddress : address ≤ Address.last)
    (j : Nat) :
    Tiles display (Address.following address (covered (rows.take j)))
      (bytes.drop (covered (rows.take j))) (rows.drop j) := by
  induction h generalizing j with
  | nil address =>
      rw [List.take_nil, List.drop_nil, List.drop_nil]
      exact .nil _
  | @cons address bytes row rows first later ih =>
      cases j with
      | zero =>
          rw [List.take_zero, covered, Address.following_zero haddress]
          exact .cons first later
      | succ j =>
          have hrest := ih (Address.following_le_last address row.length) j
          rw [Address.following_following, List.drop_drop] at hrest
          rw [List.take_succ_cons, covered, List.drop_succ_cons]
          exact hrest

/-- The bytes of the rows from `i` up to `j` can be exchanged for as many others
that settle their rows. The rows before have to be valid: one that is not may
have looked at the bytes that go. -/
theorem exchange (h : Tiles display address bytes rows) (haddress : address ≤ Address.last)
    {i j : Nat} (hij : i ≤ j) (hvalid : ∀ row ∈ rows.take i, row.isInvalid = false)
    {patch : List UInt8} {patched : List Row}
    (hpatch : Settled display (Address.following address (covered (rows.take i))) patch patched)
    (hlength : patch.length = covered (rows.take j) - covered (rows.take i)) :
    Tiles display address
      (bytes.take (covered (rows.take i)) ++ patch ++ bytes.drop (covered (rows.take j)))
      (rows.take i ++ patched ++ rows.drop j) := by
  have hle := covered_take_le rows hij
  have hfront : (bytes.take (covered (rows.take i))).length = covered (rows.take i) :=
    List.length_take_of_le (h.covered_take_le_length i)
  -- Behind the patch the sweep is where it was before, at the first byte of row `j`.
  have hresume : Address.following (Address.following address (covered (rows.take i)))
      patch.length = Address.following address (covered (rows.take j)) := by
    rw [Address.following_following, hlength, Nat.add_sub_cancel' hle]
  have hback := h.drop haddress j
  rw [← hresume] at hback
  rw [List.append_assoc, List.append_assoc]
  apply (h.settled_take hvalid).tiles_append haddress
  rw [hfront]
  exact hpatch.tiles_append (Address.following_le_last _ _) hback

end Tiles

/-- Patching is local. When the rows before place `i` are valid and the bytes
of the rows from `i` up to `j` are overwritten by the patch that is made for
them, a sweep has the rows before, a row for each patched byte, and the rows
from `j` on, all others unchanged. -/
theorem sweep_nopPatch (image : List UInt8) (base : Address) (display : Display) (i j : Nat)
    (place : Address) (hij : i ≤ j)
    (hvalid : ∀ row ∈ (sweep image base display).result.take i, row.isInvalid = false) :
    let rows := (sweep image base display).result
    let start := covered (rows.take i)
    let stop := covered (rows.take j)
    let patch := (Gateway.nopPatch ((image.drop start).take (stop - start)) place).result
    (sweep (image.take start ++ patch ++ image.drop stop) base display).result =
      rows.take i ++
        (List.range (stop - start)).map (fun n =>
          { address := UInt32.ofNat ((base.toNat + (start + n)) % Address.space)
            length := 1
            bytes := [0x04]
            text := "NOP"
            isInvalid := false }) ++
        rows.drop j := by
  intro rows start stop patch
  have hbase := Address.wrap_le_last base
  have htiles : Tiles display (Address.wrap base) image rows := tiles_sweep image base display
  have hstop : stop ≤ image.length := htiles.covered_take_le_length j
  have hpatch : patch = Gateway.nops (stop - start) := by
    have hcount : ((image.drop start).take (stop - start)).length = stop - start := by
      rw [List.length_take, List.length_drop]
      omega
    exact congrArg Gateway.nops hcount
  have hlength : patch.length = stop - start := by
    rw [hpatch]
    exact List.length_replicate
  have hsettled := settled_nops display (Address.following_le_last (Address.wrap base) start)
    (stop - start)
  rw [← hpatch] at hsettled
  simp only [Address.following_following, Address.following_wrap base (start + _)] at hsettled
  apply (tiles_sweep _ base display).unique
  simp only [Address.ofNat_add_mod_space]
  exact htiles.exchange hbase hij hvalid hsettled hlength

/-- `JMP.W` between two other instructions, across the top of the address
space. -/
theorem sweep_nopPatch_wrapped :
    (sweep [0xF3, 0x04, 0x04, 0x04, 0xFB] 0xFFFFE {}).result =
      (sweep [0xF3, 0xF4, 0x00, 0x80, 0xFB] 0xFFFFE {}).result.take 1 ++
        [nop 0xFFFFF, nop 0, nop 1] ++
        (sweep [0xF3, 0xF4, 0x00, 0x80, 0xFB] 0xFFFFE {}).result.drop 2 := by
  apply sweep_nopPatch [0xF3, 0xF4, 0x00, 0x80, 0xFB] 0xFFFFE {} 1 2 0xFFFFF (by decide)
  decide

-- `FC` is invalid for the sake of its fourth byte; with that patched it begins `JMP.A`.
example : (sweep [0xFC, 0x00, 0x00, 0x10] 0 {}).result.map Row.length = [1, 1, 1, 1] ∧
    (sweep ([0xFC] ++ Gateway.nops 3) 0 {}).result.map Row.length = [4] := by
  decide

end Row

end M16C
