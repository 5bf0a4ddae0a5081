import M16C.Proofs.Sweep

/-!
Sweeping a program that was assembled. The instructions of a program are
encoded one after the other, each at the address where the one before it ends.
A sweep of all the bytes finds the program again, one row for each
instruction: a row ends where the next encoding begins, because the decoder
takes exactly the bytes of an encoding whatever follows them. The text of a row
is that of the normalized instruction, since the bytes hold no more.
-/

namespace M16C

namespace Instruction

/-- The number of bytes that a program takes. -/
def totalLength : List Instruction → Nat
  | [] => 0
  | instruction :: program => instruction.length + totalLength program

/-- The address of instruction `k` of a program that starts at `base`. -/
def place (program : List Instruction) (base : Address) (k : Nat) : Address :=
  UInt32.ofNat ((base.toNat + totalLength (program.take k)) % Address.space)

theorem place_eq_following (program : List Instruction) (base : Address) (k : Nat) :
    place program base k = Address.following base (totalLength (program.take k)) :=
  Address.ofNat_add_mod_space base _

theorem place_zero (program : List Instruction) (base : Address) :
    place program base 0 = Address.wrap base := by
  have hwrap := Address.following_zero (Address.wrap_le_last base)
  rw [Address.following_wrap] at hwrap
  rw [place_eq_following]
  exact hwrap

theorem place_wrap (program : List Instruction) (base : Address) (k : Nat) :
    place program (Address.wrap base) k = place program base k := by
  rw [place_eq_following, place_eq_following, Address.following_wrap]

theorem place_cons_succ (instruction : Instruction) (program : List Instruction) (base : Address)
    (k : Nat) :
    place (instruction :: program) base (k + 1) = place program (instruction.next base) k := by
  simp only [place_eq_following, next, Address.following_following, totalLength,
    List.take_succ_cons]

/-- The codes of a program that is laid out from `address` on, without gap. -/
inductive Assembled : Address → List Instruction → List (List UInt8) → Prop
  | nil (address : Address) : Assembled address [] []
  | cons {address : Address} {instruction : Instruction} {program : List Instruction}
      {code : List UInt8} {codes : List (List UInt8)}
      (first : instruction.encode address = .ok code)
      (later : Assembled (instruction.next address) program codes) :
      Assembled address (instruction :: program) (code :: codes)

/-- Codes found place by place are laid out without gap. -/
theorem assembled_of_places {program : List Instruction} {codes : List (List UInt8)}
    {base : Address} (hcount : codes.length = program.length)
    (hencode : ∀ (k : Nat) (instruction : Instruction) (code : List UInt8),
      program[k]? = some instruction → codes[k]? = some code →
        instruction.encode (place program base k) = .ok code) :
    Assembled (Address.wrap base) program codes := by
  induction program generalizing base codes with
  | nil =>
      rw [List.eq_nil_of_length_eq_zero hcount]
      exact .nil _
  | cons instruction program ih =>
      cases codes with
      | nil => cases hcount
      | cons code codes =>
          have hfirst := hencode 0 instruction code rfl rfl
          rw [place_zero] at hfirst
          have hlater : Assembled (Address.wrap (instruction.next base)) program codes := by
            apply ih (Nat.succ.inj hcount)
            intro k other otherCode hother hotherCode
            rw [← place_cons_succ]
            exact hencode (k + 1) other otherCode hother hotherCode
          have hnext : Address.wrap (instruction.next base) =
              instruction.next (Address.wrap base) := by
            rw [next, next, Address.following_wrap]
            exact Address.wrap_of_le_last (Address.following_le_last base instruction.length)
          rw [hnext] at hlater
          exact .cons hfirst hlater

end Instruction

namespace Row

open Instruction

/-- The row of an instruction whose code at `address` is `code`. -/
def ofCode (display : Display) (address : Address) (instruction : Instruction)
    (code : List UInt8) : Row where
  address := address
  length := instruction.length
  bytes := code
  text := Token.lineText (instruction.normalized.render display)
  isInvalid := false

/-- A row in front of a code is the row of that code, whatever follows. -/
theorem Describes.eq_ofCode {row : Row} {display : Display} {address : Address}
    {instruction : Instruction} {code tail : List UInt8}
    (hrow : row.Describes display address (code ++ tail))
    (hencode : instruction.encode address = .ok code) :
    row = ofCode display address instruction code := by
  obtain ⟨hvalid, hlength, htext⟩ := hrow.valid _ (decode_append_of_encode hencode tail)
  rw [length_normalized] at hlength
  have hbytes : row.bytes = code := by
    rw [hrow.bytes_eq, hlength, ← length_of_encode_eq_ok hencode, List.take_left]
  have haddress := hrow.address_eq
  cases row
  simp_all only [ofCode]

/-- The rows over the codes of a program are the rows of its instructions. The
induction is over the program: the first row takes the first code, and the rest
of the tiling starts with the second. -/
theorem Tiles.getElem?_of_assembled {display : Display} {address : Address}
    {program : List Instruction} {codes : List (List UInt8)} {rows : List Row}
    (hassembled : Assembled address program codes) (haddress : address ≤ Address.last)
    (htiles : Tiles display address codes.flatten rows) :
    rows.length = program.length ∧
    ∀ (k : Nat) (instruction : Instruction) (code : List UInt8),
      program[k]? = some instruction → codes[k]? = some code →
        rows[k]? = some (ofCode display (place program address k) instruction code) := by
  induction hassembled generalizing rows with
  | nil address =>
      rw [htiles.eq_nil]
      exact ⟨rfl, fun k instruction code hinstruction => by cases hinstruction⟩
  | @cons address instruction program code codes hencode hlater ih =>
      have hlength := length_of_encode_eq_ok hencode
      have hpositive := instruction.length_bounds.1
      have hcodes : (code :: codes).flatten ≠ [] := by
        intro hempty
        have hnone := congrArg List.length hempty
        rw [List.flatten_cons, List.length_append, List.length_nil] at hnone
        omega
      obtain ⟨row, rows, rfl, first, later⟩ := htiles.exists_cons hcodes
      rw [List.flatten_cons] at first later
      have hrow := first.eq_ofCode hencode
      have hrowLength : row.length = code.length := by rw [hrow, hlength, ofCode]
      rw [hrowLength, List.drop_left, hlength] at later
      obtain ⟨hcount, hrows⟩ := ih (Address.following_le_last _ _) later
      refine ⟨congrArg (· + 1) hcount, ?_⟩
      intro k other otherCode hother hotherCode
      cases k with
      | zero =>
          cases hother
          cases hotherCode
          rw [place_zero, Address.wrap_of_le_last haddress, ← hrow]
          rfl
      | succ k =>
          rw [place_cons_succ]
          exact hrows k other otherCode hother hotherCode

/-- A program is recovered from its code. When the instructions of a program
encode at the addresses where they come to stand, a sweep of their codes has
one row for each, and the row of instruction `k` has its address, length, code
and the text of its normalized form. -/
theorem sweep_of_program (program : List Instruction) (codes : List (List UInt8))
    (base : Address) (display : Display) (hcount : codes.length = program.length)
    (hencode : ∀ (k : Nat) (instruction : Instruction) (code : List UInt8),
      program[k]? = some instruction → codes[k]? = some code →
        instruction.encode (place program base k) = .ok code) :
    (sweep codes.flatten base display).result.length = program.length ∧
    (∀ row ∈ (sweep codes.flatten base display).result, row.isInvalid = false) ∧
    ∀ (k : Nat) (instruction : Instruction) (code : List UInt8),
      program[k]? = some instruction → codes[k]? = some code →
        (sweep codes.flatten base display).result[k]? =
          some { address := place program base k
                 length := instruction.length
                 bytes := code
                 text := Token.lineText (instruction.normalized.render display)
                 isInvalid := false } := by
  have hassembled := assembled_of_places hcount hencode
  obtain ⟨hlength, hrows⟩ := Tiles.getElem?_of_assembled hassembled (Address.wrap_le_last base)
    (tiles_sweep codes.flatten base display)
  refine ⟨hlength, ?_, ?_⟩
  · intro row hmember
    obtain ⟨k, hrow⟩ := List.mem_iff_getElem?.mp hmember
    have hk : k < program.length := by
      rw [← hlength]
      exact (List.getElem?_eq_some_iff.mp hrow).1
    have hknown := hrows k _ _ (List.getElem?_eq_getElem hk)
      (List.getElem?_eq_getElem (hcount ▸ hk))
    rw [hrow] at hknown
    rw [Option.some.inj hknown, ofCode]
  · intro k instruction code hinstruction hcode
    rw [hrows k instruction code hinstruction hcode, place_wrap, ofCode]

/-- Two instructions across the top of the address space. Register 7 is read
back as `R3`, and the target of the jump modulo the address space. -/
theorem sweep_of_program_wrapped :
    (sweep [0x73, 0x3B, 0xFC, 0xFE, 0x03] 0xFFFFFFFE {}).result.length = 2 ∧
      ∃ row, (sweep [0x73, 0x3B, 0xFC, 0xFE, 0x03] 0xFFFFFFFE {}).result[1]? = some row ∧
        row.address = 1 ∧ row.bytes = [0xFE, 0x03] ∧ row.text = "JMP.B 0x00005" := by
  have hencode : ∀ (k : Nat) (instruction : Instruction) (code : List UInt8),
      [movG .word (.data 7) (.dsp8Fb (-4)), jmp .byte 0x100005][k]? = some instruction →
      [[0x73, 0x3B, 0xFC], [0xFE, 0x03]][k]? = some code →
        instruction.encode (place [movG .word (.data 7) (.dsp8Fb (-4)), jmp .byte 0x100005]
          0xFFFFFFFE k) = .ok code := by
    intro k instruction code hinstruction hcode
    match k with
    | 0 => cases hinstruction; cases hcode; rfl
    | 1 => cases hinstruction; cases hcode; rfl
    | k + 2 => cases hinstruction
  obtain ⟨hlength, _, hrows⟩ := sweep_of_program _ _ 0xFFFFFFFE {} rfl hencode
  exact ⟨hlength, _, hrows 1 _ _ rfl rfl, by rfl, rfl, by rfl⟩

end Row

end M16C
