import M16C.Register

/-!
What a host is told about the processor once and for all.
-/

namespace M16C

inductive Endianness where
  | little
  deriving DecidableEq, Repr

def Endianness.name : Endianness → String
  | .little => "Little"

/-- The description of a processor for a host. Sizes are in bytes. -/
structure Host where
  name : String
  endianness : Endianness
  addressSize : Nat
  defaultIntSize : Nat
  stackPointer : Register
  deriving DecidableEq, Repr

def Host.m16c : Host where
  name := "m16c"
  endianness := .little
  addressSize := 3
  defaultIntSize := 2
  stackPointer := .sp

end M16C
