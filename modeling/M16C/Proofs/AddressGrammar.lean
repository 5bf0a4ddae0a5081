import Mathlib.Data.List.Forall2
import Mathlib.Data.Nat.Digits.Defs
import Mathlib.Tactic.Ring
import Mathlib.Tactic.SplitIfs
import M16C.Proofs.Digits

/-!
The grammar of typed addresses and the reader that decides it. An address is
decimal, or hexadecimal behind `0x` or `0X`; a plus sign may stand before the
digits, and zeros in front count for nothing. The reader multiplies and adds
from the left and stops at the first number past 32 bits. Since more digits never
make a number smaller, it stops early exactly when the whole number is too large,
so what it accepts and how it refuses is a matter of the grammar and of the value
that the digits have by their places.
-/

namespace M16C.AddressText

/-- `c` stands for the digit `d`, a letter in either case. -/
def ShowsDigit (radix : Nat) (c : Char) (d : Nat) : Prop :=
  d < radix ∧ (c = d.digitChar ∨ c = d.digitChar.toUpper)

instance (radix : Nat) (c : Char) (d : Nat) : Decidable (ShowsDigit radix c d) :=
  inferInstanceAs (Decidable (_ ∧ _))

/-- An optional plus sign and at least one digit, with the value of the digits
by their places. -/
inductive IsNumber (radix : Nat) : List Char → Nat → Prop
  | mk {sign digits : List Char} {values : List Nat} (hsign : sign = [] ∨ sign = ['+'])
      (hdigits : digits ≠ []) (hvalues : List.Forall₂ (ShowsDigit radix) digits values) :
      IsNumber radix (sign ++ digits) (Nat.ofDigits radix values.reverse)

/-- A decimal number, or a hexadecimal one behind `0x` or `0X`. -/
inductive IsAddress : List Char → Nat → Prop
  | decimal {text : List Char} {n : Nat} (h : IsNumber 10 text n) : IsAddress text n
  | hexadecimal {mark : Char} {text : List Char} {n : Nat} (hmark : mark = 'x' ∨ mark = 'X')
      (h : IsNumber 16 text n) : IsAddress ('0' :: mark :: text) n

/-- The number that further digits make of one already read. -/
def extended (radix start : Nat) (values : List Nat) : Nat :=
  Nat.ofDigits radix (values.reverse ++ [start])

theorem extended_cons (radix start d : Nat) (values : List Nat) :
    extended radix start (d :: values) = extended radix (start * radix + d) values := by
  simp only [extended, List.reverse_cons, List.append_assoc, List.cons_append, List.nil_append,
    Nat.ofDigits_append, Nat.ofDigits_cons, Nat.ofDigits_nil]
  ring

theorem extended_zero (radix : Nat) (values : List Nat) :
    extended radix 0 values = Nat.ofDigits radix values.reverse := by
  simp [extended, Nat.ofDigits_append]

/-- More digits never make a number smaller. -/
theorem le_extended {radix : Nat} (hradix : 1 ≤ radix) (start : Nat) (values : List Nat) :
    start ≤ extended radix start values := by
  induction values generalizing start with
  | nil => simp [extended]
  | cons d values ih =>
      rw [extended_cons]
      calc
        start ≤ start * radix := Nat.le_mul_of_pos_right start hradix
        _ ≤ start * radix + d := Nat.le_add_right _ _
        _ ≤ extended radix (start * radix + d) values := ih _

/-- Where the characters from `low` to `high` are listed, one between them stands
at its distance from `low`. -/
theorem eq_of_between {low high c : Char} {listed : Nat → Char}
    (hlisted : ∀ k ≤ high.toNat - low.toNat, Char.ofNat (low.toNat + k) = listed k)
    (h : low ≤ c ∧ c ≤ high) : c = listed (c.toNat - low.toNat) := by
  have hlow : low.toNat ≤ c.toNat := h.1
  have hhigh : c.toNat ≤ high.toNat := h.2
  rw [← hlisted _ (by omega), Nat.add_sub_cancel' hlow, Char.ofNat_toNat]

theorem showsDigit_of_digit?_sixteen {c : Char} {d : Nat} (h : digit? 16 c = some d) :
    ShowsDigit 16 c d := by
  have hdecimal : ∀ k ≤ '9'.toNat - '0'.toNat, Char.ofNat ('0'.toNat + k) = k.digitChar := by
    decide
  have hlower : ∀ k ≤ 'f'.toNat - 'a'.toNat,
      Char.ofNat ('a'.toNat + k) = (k + 10).digitChar := by
    decide
  have hupper : ∀ k ≤ 'F'.toNat - 'A'.toNat,
      Char.ofNat ('A'.toNat + k) = (k + 10).digitChar.toUpper := by
    decide
  simp only [digit?, Option.ite_none_right_eq_some, Option.some.injEq] at h
  obtain ⟨hsmall, rfl⟩ := h
  refine ⟨hsmall, ?_⟩
  split_ifs at hsmall ⊢ with hdigit hsmallLetter hcapital
  · exact .inl (eq_of_between hdecimal hdigit)
  · exact .inl (eq_of_between hlower hsmallLetter)
  · exact .inr (eq_of_between hupper hcapital)
  · exact absurd hsmall (Nat.lt_irrefl 16)

theorem digit?_eq_some_iff {radix : Nat} (hradix : radix ≤ 16) (c : Char) (d : Nat) :
    digit? radix c = some d ↔ ShowsDigit radix c d := by
  -- A smaller base refuses the higher digits of base sixteen and changes nothing else.
  have hcut : digit? radix c = some d ↔ digit? 16 c = some d ∧ d < radix := by
    unfold digit?
    grind
  rw [hcut]
  constructor
  · rintro ⟨h, hd⟩
    exact ⟨hd, (showsDigit_of_digit?_sixteen h).2⟩
  · rintro ⟨hd, rfl | rfl⟩
    · exact ⟨Hex.digit?_digitChar d (by omega), hd⟩
    · exact ⟨Hex.digit?_toUpper_digitChar d (by omega), hd⟩

theorem readDigits_cons {radix start d : Nat} {c : Char} (hd : digit? radix c = some d)
    (rest : List Char) :
    readDigits radix start (c :: rest) =
      if start * radix + d < 2 ^ 32 then readDigits radix (start * radix + d) rest
      else .error .tooLarge := by
  rw [readDigits, hd]
  rfl

theorem readNumber_cons {radix : Nat} {c : Char} (hc : c ≠ '+') (rest : List Char) :
    readNumber radix (c :: rest) = readDigits radix 0 (c :: rest) := by
  unfold readNumber
  split <;> simp_all

section Reader

variable {radix : Nat} (hlow : 1 ≤ radix) (hhigh : radix ≤ 16)
include hlow hhigh

/-- Reading digits on behind a number gives the number extended by them, unless
that takes more than 32 bits. -/
theorem readDigits_of_shows {digits : List Char} {values : List Nat}
    (h : List.Forall₂ (ShowsDigit radix) digits values) (start : Nat) (hstart : start < 2 ^ 32) :
    readDigits radix start digits =
      if extended radix start values < 2 ^ 32 then .ok (extended radix start values)
      else .error .tooLarge := by
  induction h generalizing start with
  | nil =>
      have hnone : extended radix start [] = start := by simp [extended]
      rw [hnone, if_pos hstart, readDigits]
  | @cons c d digits values hdigit hrest ih =>
      rw [readDigits_cons ((digit?_eq_some_iff hhigh c d).mpr hdigit), extended_cons]
      split
      · next hfits => exact ih _ hfits
      · next hlarge =>
          have hgrows := le_extended hlow (start * radix + d) values
          rw [if_neg (by omega)]

omit hlow in
theorem exists_shows_of_readDigits {digits : List Char} {start n : Nat}
    (h : readDigits radix start digits = .ok n) :
    ∃ values, List.Forall₂ (ShowsDigit radix) digits values := by
  induction digits generalizing start with
  | nil => exact ⟨[], .nil⟩
  | cons c rest ih =>
      cases hdigit : digit? radix c with
      | none =>
          rw [readDigits, hdigit] at h
          cases h
      | some d =>
          rw [readDigits_cons hdigit] at h
          split at h
          · obtain ⟨values, hvalues⟩ := ih h
            exact ⟨d :: values, .cons ((digit?_eq_some_iff hhigh c d).mp hdigit) hvalues⟩
          · cases h

/-- What is a number by the grammar is read as its value. -/
theorem IsNumber.readNumber_eq {text : List Char} {n : Nat} (h : IsNumber radix text n) :
    readNumber radix text = if n < 2 ^ 32 then .ok n else .error .tooLarge := by
  obtain @⟨sign, digits, values, hsign, hdigits, hvalues⟩ := h
  have hread := readDigits_of_shows hlow hhigh hvalues 0 (by decide)
  rw [extended_zero] at hread
  rw [← hread]
  cases hvalues with
  | nil => exact absurd rfl hdigits
  | @cons c d rest values hdigit hrest =>
      rcases hsign with rfl | rfl
      · -- The first digit is none of the characters that steer the reader.
        apply readNumber_cons
        rintro rfl
        have hplus := (digit?_eq_some_iff hhigh '+' d).mpr hdigit
        simp [digit?] at hplus
      · rfl

/-- What is read as a number is one by the grammar. -/
theorem isNumber_of_readNumber {text : List Char} {n : Nat} (h : readNumber radix text = .ok n) :
    IsNumber radix text n := by
  have hnumber (sign digits : List Char) (hsign : sign = [] ∨ sign = ['+'])
      (hdigits : digits ≠ []) (hread : readDigits radix 0 digits = .ok n) :
      IsNumber radix (sign ++ digits) n := by
    obtain ⟨values, hvalues⟩ := exists_shows_of_readDigits hhigh hread
    rw [readDigits_of_shows hlow hhigh hvalues 0 (by decide), extended_zero] at hread
    split at hread
    · cases hread
      exact .mk hsign hdigits hvalues
    · cases hread
  unfold readNumber at h
  split at h
  · cases h
  · cases h
  · next digits hlone => exact hnumber ['+'] digits (.inr rfl) (by simpa using hlone) h
  · next hempty _ _ => exact hnumber [] text (.inl rfl) hempty h

end Reader

/-- No decimal number starts with the marks of a hexadecimal one. -/
theorem not_isNumber_ten_marked {mark : Char} (hmark : mark = 'x' ∨ mark = 'X')
    (rest : List Char) (n : Nat) : ¬ IsNumber 10 ('0' :: mark :: rest) n := by
  intro h
  have hrefused : readNumber 10 ('0' :: mark :: rest) = .error .invalidDigit := by
    rcases hmark with rfl | rfl <;> rfl
  have hread := h.readNumber_eq (by decide) (by decide)
  rw [hrefused] at hread
  split at hread <;> cases hread

theorem IsAddress.readValue_eq {text : List Char} {n : Nat} (h : IsAddress text n) :
    readValue text = if n < 2 ^ 32 then .ok n else .error .tooLarge := by
  cases h with
  | decimal h =>
      rw [← h.readNumber_eq (by decide) (by decide)]
      unfold readValue
      split
      · next rest => exact absurd h (not_isNumber_ten_marked (.inl rfl) rest n)
      · next rest => exact absurd h (not_isNumber_ten_marked (.inr rfl) rest n)
      · rfl
  | hexadecimal hmark h =>
      rw [← h.readNumber_eq (by decide) (by decide)]
      rcases hmark with rfl | rfl <;> rfl

theorem isAddress_of_readValue {text : List Char} {n : Nat} (h : readValue text = .ok n) :
    IsAddress text n := by
  unfold readValue at h
  split at h
  · exact .hexadecimal (.inl rfl) (isNumber_of_readNumber (by decide) (by decide) h)
  · exact .hexadecimal (.inr rfl) (isNumber_of_readNumber (by decide) (by decide) h)
  · exact .decimal (isNumber_of_readNumber (by decide) (by decide) h)

/-- How an address of the grammar is taken, by its value. -/
theorem IsAddress.parse_eq {text : String} {n : Nat} (h : IsAddress text.toList n) :
    parse text =
      if n < Address.space then .ok (UInt32.ofNat n)
      else if n < 2 ^ 32 then .error (.outside text)
      else .error (.malformed text .tooLarge) := by
  rw [parse, h.readValue_eq]
  by_cases hword : n < 2 ^ 32
  · simp only [if_pos hword]
  · have hspace : ¬ n < Address.space := by
      unfold Address.space
      omega
    simp only [if_neg hword, if_neg hspace]

theorem isAddress_of_parse {text : String} {address : Address} (h : parse text = .ok address) :
    IsAddress text.toList address.toNat ∧ address.toNat < Address.space := by
  unfold parse at h
  split at h
  · cases h
  · next n hread =>
      split at h
      · next hspace =>
          have hn : (UInt32.ofNat n).toNat = n := by
            rw [UInt32.toNat_ofNat']
            unfold Address.space at hspace
            omega
          cases h
          rw [hn]
          exact ⟨isAddress_of_readValue hread, hspace⟩
      · cases h

/-- The reader accepts the grammar and nothing else. An address is read as the
value of its digits when that lies in the space of twenty bits; a value of up to
32 bits is refused as outside, and a larger one as too large. Where no digit
follows the marks of the base, nothing at all is the fault of empty text and a
lone sign that of a wrong digit. -/
theorem parse_accepts_grammar (text : String) :
    (∀ address : Address, parse text = .ok address ↔
      IsAddress text.toList address.toNat ∧ address.toNat ≤ 0xFFFFF) ∧
    (∀ n, IsAddress text.toList n → 0xFFFFF < n → n < 2 ^ 32 →
      parse text = .error (.outside text)) ∧
    (∀ n, IsAddress text.toList n → 2 ^ 32 ≤ n →
      parse text = .error (.malformed text .tooLarge)) ∧
    ∀ marks ∈ ["", "0x", "0X"],
      (text = marks → parse text = .error (.malformed text .empty)) ∧
      (text = marks ++ "+" ∨ text = marks ++ "-" →
        parse text = .error (.malformed text .invalidDigit)) := by
  refine ⟨?_, ?_, ?_, ?_⟩
  · intro address
    constructor
    · intro h
      obtain ⟨hgrammar, hspace⟩ := isAddress_of_parse h
      exact ⟨hgrammar, Nat.le_of_lt_succ hspace⟩
    · rintro ⟨h, hlast⟩
      have hspace : address.toNat < Address.space := Nat.lt_succ_of_le hlast
      rw [h.parse_eq, if_pos hspace, UInt32.ofNat_toNat]
  · intro n h hlast hword
    have hspace : ¬ n < Address.space := Nat.not_lt.mpr hlast
    rw [h.parse_eq, if_neg hspace, if_pos hword]
  · intro n h hword
    have hspace : ¬ n < Address.space := by
      unfold Address.space
      omega
    rw [h.parse_eq, if_neg hspace, if_neg (Nat.not_lt.mpr hword)]
  · intro marks hmarks
    simp only [List.mem_cons, List.not_mem_nil, or_false] at hmarks
    rcases hmarks with rfl | rfl | rfl
    all_goals
      constructor
      · rintro rfl
        rfl
      · rintro (rfl | rfl) <;> rfl

/-- The last address behind a sign and a zero, in letters of both cases; the first
number behind the space and the first behind the words; and no digit at all. -/
theorem parse_accepts_grammar_bounds :
    (IsAddress "0X+0fFfFf".toList 0xFFFFF ∧ parse "0X+0fFfFf" = .ok 0xFFFFF) ∧
    (IsAddress "0x100000".toList 0x100000 ∧ parse "0x100000" = .error (.outside "0x100000")) ∧
    (IsAddress "4294967296".toList (2 ^ 32) ∧
      parse "4294967296" = .error (.malformed "4294967296" .tooLarge)) ∧
    parse "0x" = .error (.malformed "0x" .empty) ∧
    parse "0x-" = .error (.malformed "0x-" .invalidDigit) := by
  have hlast : IsAddress "0X+0fFfFf".toList 0xFFFFF :=
    .hexadecimal (.inr rfl) (@IsNumber.mk 16 ['+'] ['0', 'f', 'F', 'f', 'F', 'f']
      [0, 15, 15, 15, 15, 15] (.inr rfl) (by decide) (by decide))
  have houtside : IsAddress "0x100000".toList 0x100000 :=
    .hexadecimal (.inl rfl) (@IsNumber.mk 16 [] ['1', '0', '0', '0', '0', '0']
      [1, 0, 0, 0, 0, 0] (.inl rfl) (by decide) (by decide))
  have hlarge : IsAddress "4294967296".toList (2 ^ 32) :=
    .decimal (@IsNumber.mk 10 [] ['4', '2', '9', '4', '9', '6', '7', '2', '9', '6']
      [4, 2, 9, 4, 9, 6, 7, 2, 9, 6] (.inl rfl) (by decide) (by decide))
  obtain ⟨_, _, _, hmarks⟩ := parse_accepts_grammar "0x"
  obtain ⟨_, _, _, hsigned⟩ := parse_accepts_grammar "0x-"
  refine ⟨⟨hlast, ?_⟩, ⟨houtside, ?_⟩, ⟨hlarge, ?_⟩, ?_, ?_⟩
  · exact ((parse_accepts_grammar _).1 0xFFFFF).mpr ⟨hlast, by decide⟩
  · exact (parse_accepts_grammar _).2.1 _ houtside (by decide) (by decide)
  · exact (parse_accepts_grammar _).2.2.1 _ hlarge (by decide)
  · exact (hmarks "0x" (by simp)).1 rfl
  · exact (hsigned "0x" (by simp)).2 (.inr rfl)

end M16C.AddressText
