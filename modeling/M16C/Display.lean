/-!
Display settings. The one setting is whether the format suffix of a mnemonic
is shown; a host registers it under a key, with a title and a default.
-/

namespace M16C

structure Display where
  showSuffix : Bool := true
  deriving DecidableEq, Repr

/-- A setting as a host's settings page describes it. -/
structure Setting where
  key : String
  title : String
  description : String
  kind : String
  default : Bool
  deriving DecidableEq, Repr

namespace Display

def suffixSetting : Setting where
  key := "arch.m16c.showSuffix"
  title := "M16C Disassembly Suffix"
  description := "Whether or not to display the :G/:Q/:S/:Z suffix."
  kind := "boolean"
  default := true

end Display

end M16C
