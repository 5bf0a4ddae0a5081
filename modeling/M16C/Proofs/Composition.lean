import M16C.Proofs.Sweep

/-!
Sweeping piece by piece. What a sweep says about some bytes can change when
more bytes follow them: an instruction that was cut short is completed. It is
the only thing that can change. `Settled` rows are those that their bytes
determine whatever follows; a sweep is settled when no row of it stands where
bytes are missing, and so is any run of valid rows at its front. Settled rows
are put in front of the rows of the bytes that follow.
-/

namespace M16C

open Instruction (decode)

/-- Decoding looks at the bytes of the instruction only: those behind it can be
exchanged. -/
theorem Instruction.decode_take_append {bytes : List UInt8} {address : Address}
    {instruction : Instruction} (h : decode bytes address = .ok instruction) {n : Nat}
    (hn : instruction.length ≤ n) (tail : List UInt8) :
    decode (bytes.take n ++ tail) address = .ok instruction := by
  obtain ⟨_, _, hencode, _⟩ := of_decode_eq_ok h
  have hfront (behind : List UInt8) :
      decode (bytes.take instruction.length ++ behind) address = .ok instruction := by
    have hself := decode_append_of_encode hencode (bytes.drop instruction.length)
    rw [List.take_append_drop, h] at hself
    rw [decode_append_of_encode hencode, ← hself]
  have hsplit : bytes.take n =
      bytes.take instruction.length ++ (bytes.take n).drop instruction.length := by
    have htake := List.take_append_drop instruction.length (bytes.take n)
    rw [List.take_take, Nat.min_eq_left hn] at htake
    exact htake.symm
  rw [hsplit, List.append_assoc]
  exact hfront _

namespace Row

namespace Describes

variable {row other : Row} {display : Display} {address : Address} {bytes : List UInt8}

/-- A row describes any bytes that start with its own and decode alike. -/
theorem of_decode_eq (h : row.Describes display address bytes) {others : List UInt8}
    (hdecode : decode others address = decode bytes address)
    (hfront : others.take row.length = bytes.take row.length) :
    row.Describes display address others := by
  have hpositive := h.one_le_length
  have hhead : others.head? = bytes.head? := by
    have hheads := congrArg List.head? hfront
    rw [List.head?_take, List.head?_take, if_neg (by omega), if_neg (by omega)] at hheads
    exact hheads
  have hfits : row.length ≤ (others.take Instruction.maxLength).length := by
    have hwindow := h.length_le
    have hlengths := congrArg List.length hfront
    simp only [List.length_take] at hwindow hlengths ⊢
    omega
  refine ⟨h.address_eq, hpositive, hfits, ?_, ?_, ?_⟩
  · rw [hfront]
    exact h.bytes_eq
  · rw [hdecode]
    exact h.valid
  · rw [hdecode, hhead]
    exact h.invalid

/-- What the bytes are determines the row. -/
theorem unique (h : row.Describes display address bytes)
    (hother : other.Describes display address bytes) : row = other := by
  have hagree : row.isInvalid = other.isInvalid ∧ row.length = other.length ∧
      row.text = other.text := by
    cases hdecode : decode bytes address with
    | ok instruction =>
        obtain ⟨hvalid, hlength, htext⟩ := h.valid _ hdecode
        obtain ⟨hotherValid, hotherLength, hotherText⟩ := hother.valid _ hdecode
        exact ⟨hvalid.trans hotherValid.symm, hlength.trans hotherLength.symm,
          htext.trans hotherText.symm⟩
    | error cause =>
        obtain ⟨hinvalid, hlength, byte, hbyte, htext⟩ := h.invalid _ hdecode
        obtain ⟨hotherInvalid, hotherLength, otherByte, hotherByte, hotherText⟩ :=
          hother.invalid _ hdecode
        cases Option.some.inj (hbyte.symm.trans hotherByte)
        exact ⟨hinvalid.trans hotherInvalid.symm, hlength.trans hotherLength.symm,
          htext.trans hotherText.symm⟩
  have haddress := h.address_eq.trans hother.address_eq.symm
  have hbytes : row.bytes = other.bytes := by
    rw [h.bytes_eq, hother.bytes_eq, hagree.2.1]
  cases row
  cases other
  simp_all only

end Describes

/-- Rows that some bytes determine by themselves, whatever follows. -/
inductive Settled (display : Display) : Address → List UInt8 → List Row → Prop
  | nil (address : Address) : Settled display address [] []
  | cons {address : Address} {bytes : List UInt8} {row : Row} {rows : List Row}
      (first : ∀ tail, row.Describes display address (bytes ++ tail))
      (later : Settled display (Address.following address row.length) (bytes.drop row.length)
        rows) :
      Settled display address bytes (row :: rows)

namespace Tiles

variable {display : Display} {address : Address} {bytes : List UInt8} {rows others : List Row}

/-- There is one way to tile some bytes from an address on. -/
theorem unique (h : Tiles display address bytes rows)
    (hothers : Tiles display address bytes others) : rows = others := by
  induction h generalizing others with
  | nil address => exact hothers.eq_nil.symm
  | cons first later ih =>
      obtain ⟨other, rest, rfl, hfirst, hlater⟩ := hothers.exists_cons first.ne_nil
      cases first.unique hfirst
      rw [ih hlater]

/-- Valid rows at the front are settled by the bytes they cover. -/
theorem settled_take (h : Tiles display address bytes rows) {i : Nat}
    (hvalid : ∀ row ∈ rows.take i, row.isInvalid = false) :
    Settled display address (bytes.take (covered (rows.take i))) (rows.take i) := by
  induction h generalizing i with
  | nil address =>
      rw [List.take_nil, List.take_nil]
      exact .nil _
  | @cons address bytes row rows first later ih =>
      cases i with
      | zero => exact .nil _
      | succ i =>
          rw [List.take_succ_cons] at hvalid ⊢
          rw [covered]
          have hrest := ih (fun other hother => hvalid other (List.mem_cons_of_mem _ hother))
          apply Settled.cons
          · intro tail
            obtain ⟨instruction, hdecode⟩ :=
              first.isInvalid_eq_false_iff.mp (hvalid row List.mem_cons_self)
            have hlength := (first.valid instruction hdecode).2.1
            have hfits := first.length_le_bytes
            -- The cut is behind the row, so its instruction is still there in full.
            apply first.of_decode_eq
            · rw [hdecode]
              exact Instruction.decode_take_append hdecode (by omega) tail
            · rw [List.take_append_of_le_length (by rw [List.length_take]; omega),
                List.take_take, Nat.min_eq_left (by omega)]
          · rw [List.drop_take, Nat.add_sub_cancel_left]
            exact hrest

/-- Rows are settled when none of them stands where bytes are missing. -/
theorem settled (h : Tiles display address bytes rows)
    (hcomplete : ∀ k row, rows[k]? = some row → ∀ needed available,
      decode (bytes.drop (covered (rows.take k))) row.address ≠
        .error (.truncated needed available)) :
    Settled display address bytes rows := by
  induction h with
  | nil address => exact .nil address
  | @cons address bytes row rows first later ih =>
      apply Settled.cons
      · intro tail
        have hfits := first.length_le_bytes
        have hfront : (bytes ++ tail).take row.length = bytes.take row.length :=
          List.take_append_of_le_length hfits
        apply first.of_decode_eq _ hfront
        cases hdecode : decode bytes address with
        | ok instruction => exact Instruction.decode_append_of_ok hdecode tail
        | error cause =>
            cases cause with
            | invalidOpcode opcode place =>
                exact Instruction.decode_append_of_invalidOpcode hdecode tail
            | truncated needed available =>
                have hhere := hcomplete 0 row rfl needed available
                rw [first.address_eq] at hhere
                exact absurd hdecode hhere
      · apply ih
        intro k other hother needed available
        have hthere := hcomplete (k + 1) other hother needed available
        rw [List.take_succ_cons, covered, ← List.drop_drop] at hthere
        exact hthere

end Tiles

/-- Settled rows stand in front of any rows of the bytes that follow. -/
theorem Settled.tiles_append {display : Display} {address : Address} {bytes tail : List UInt8}
    {rows others : List Row} (h : Settled display address bytes rows)
    (haddress : address ≤ Address.last)
    (htail : Tiles display (Address.following address bytes.length) tail others) :
    Tiles display address (bytes ++ tail) (rows ++ others) := by
  induction h with
  | nil address =>
      rw [List.length_nil, Address.following_zero haddress] at htail
      exact htail
  | @cons address bytes row rows first later ih =>
      have hfits : row.length ≤ bytes.length := by
        have hnone := (first []).length_le_bytes
        rw [List.append_nil] at hnone
        exact hnone
      apply Tiles.cons (first tail)
      rw [List.drop_append_of_le_length hfits]
      apply ih (Address.following_le_last _ _)
      rw [Address.following_following, List.length_drop, Nat.add_sub_cancel' hfits]
      exact htail

theorem tiles_sweep_following (image : List UInt8) (base : Address) (n : Nat)
    (display : Display) :
    Tiles display (Address.following (Address.wrap base) n) image
      (sweep image (UInt32.ofNat ((base.toNat + n) % Address.space)) display).result := by
  have htiles := tiles_sweep image (Address.following base n) display
  rw [Address.wrap_of_le_last (Address.following_le_last base n)] at htiles
  rw [Address.following_wrap, Address.ofNat_add_mod_space]
  exact htiles

/-- Sweeping is compositional. When no row over the first bytes stands where
decoding finds bytes missing, a sweep of the first bytes and others behind them
has the rows of the first bytes and then those of the others, swept from the
address they stand at. -/
theorem sweep_append (first second : List UInt8) (base : Address) (display : Display)
    (hcomplete : ∀ k row, (sweep first base display).result[k]? = some row →
      ∀ needed available,
        decode (first.drop (covered ((sweep first base display).result.take k))) row.address ≠
          .error (.truncated needed available)) :
    (sweep (first ++ second) base display).result =
      (sweep first base display).result ++
        (sweep second (UInt32.ofNat ((base.toNat + first.length) % Address.space))
          display).result := by
  have hbase := Address.wrap_le_last base
  have hfirst := (tiles_sweep first base display).settled hcomplete
  have hsecond := tiles_sweep_following second base first.length display
  exact (tiles_sweep (first ++ second) base display).unique (hfirst.tiles_append hbase hsecond)

/-- A byte that starts no instruction at the top of the address space, `NOP` at
its start, and `ENTER` behind them. -/
theorem sweep_append_wrapped :
    (sweep [0x01, 0x04, 0x7C, 0xF2, 0x02] 0xFFFFF {}).result =
      (sweep [0x01, 0x04] 0xFFFFF {}).result ++ (sweep [0x7C, 0xF2, 0x02] 1 {}).result := by
  apply sweep_append [0x01, 0x04] [0x7C, 0xF2, 0x02]
  intro k row hrow needed available hshort
  match k with
  | 0 => cases hrow; cases hshort
  | 1 => cases hrow; cases hshort
  | k + 2 => cases hrow

-- The front of `ENTER` stands where bytes are missing; with them it is one row.
example : (sweep [0x7C] 0 {}).result.length = 1 ∧ (sweep [0xF2, 0x02] 0 {}).result.length = 2 ∧
    (sweep ([0x7C] ++ [0xF2, 0x02]) 0 {}).result.length = 1 := by
  decide

end Row

end M16C
