import M16C.Text.Quoted
import M16C.Address

/-!
Addresses as they are typed: decimal, or hexadecimal after `0x` or `0X`, with
an optional plus sign before the digits. Digits are read from the left and the
first that is wrong decides; a number is too large as soon as the digits read
so far pass 32 bits.
-/

namespace M16C

/-- Why text is no number. -/
inductive NumberFault where
  | empty
  | invalidDigit
  | tooLarge
  deriving DecidableEq, Repr

def NumberFault.message : NumberFault → String
  | .empty => "cannot parse integer from empty string"
  | .invalidDigit => "invalid digit found in string"
  | .tooLarge => "number too large to fit in target type"

/-- Why text is no address. -/
inductive AddressError where
  | malformed (text : String) (fault : NumberFault)
  | outside (text : String)
  deriving DecidableEq, Repr

def AddressError.message : AddressError → String
  | .malformed text fault => "invalid address " ++ Text.quoted text ++ ": " ++ fault.message
  | .outside text => "address " ++ text ++ " is outside the 20-bit address space"

namespace AddressText

/-- The value of a digit in a base of at most sixteen. -/
def digit? (radix : Nat) (c : Char) : Option Nat :=
  let value :=
    if '0' ≤ c ∧ c ≤ '9' then c.toNat - '0'.toNat
    else if 'a' ≤ c ∧ c ≤ 'f' then c.toNat - 'a'.toNat + 10
    else if 'A' ≤ c ∧ c ≤ 'F' then c.toNat - 'A'.toNat + 10
    else radix
  if value < radix then some value else none

/-- Reads digits on behind a number. -/
def readDigits (radix value : Nat) : List Char → Except NumberFault Nat
  | [] => .ok value
  | c :: rest =>
      match digit? radix c with
      | none => .error .invalidDigit
      | some digit =>
          let grown := value * radix + digit
          if grown < UInt32.size then readDigits radix grown rest else .error .tooLarge

/-- Reads a number after an optional plus sign. -/
def readNumber (radix : Nat) : List Char → Except NumberFault Nat
  | [] => .error .empty
  | ['+'] => .error .invalidDigit
  | '+' :: digits => readDigits radix 0 digits
  | digits => readDigits radix 0 digits

/-- Reads a number in the base that its first characters choose. -/
def readValue : List Char → Except NumberFault Nat
  | '0' :: 'x' :: rest => readNumber 16 rest
  | '0' :: 'X' :: rest => readNumber 16 rest
  | digits => readNumber 10 digits

def parse (text : String) : Except AddressError Address :=
  match readValue text.toList with
  | .error fault => .error (.malformed text fault)
  | .ok value =>
      if value < Address.space then .ok (UInt32.ofNat value) else .error (.outside text)

end AddressText

end M16C
