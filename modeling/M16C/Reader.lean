import M16C.Word

/-!
Readers of the bytes of one instruction. A reader takes a byte at a time and
decides by those it has taken: it goes on, ends with a value, or refuses them
because they begin no instruction. It cannot look at a byte without taking it.
-/

namespace M16C

inductive Reader (α : Type) where
  | done (value : α)
  | refuse
  | take (next : UInt8 → Reader α)

namespace Reader

/-- A reader, and behind it another that may depend on its value. -/
def bind {α β : Type} : Reader α → (α → Reader β) → Reader β
  | .done value, next => next value
  | .refuse, _ => .refuse
  | .take more, next => .take fun byte => (more byte).bind next

instance : Monad Reader where
  pure := .done
  bind := bind

def byte : Reader UInt8 := .take .done

/-- Two bytes, the low one first. -/
def word : Reader UInt16 := do
  let low ← byte
  let high ← byte
  return wordOfBytes low high

/-- A byte in two's complement. -/
def signedByte : Reader Int8 := do
  let b ← byte
  return b.toInt8

/-- A word in two's complement. -/
def signedWord : Reader Int16 := do
  let w ← word
  return w.toInt16

end Reader

end M16C
