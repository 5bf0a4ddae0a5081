import M16C.Text.Lossy

/-!
Reading files by path. A path is bytes, divided by slashes; empty parts and
single dots stay where they are. A folder here is a list of named files, with
nothing known of what lies above it.
-/

namespace M16C

/-- What the system says when a file cannot be read. -/
structure ReadFailure where
  description : String
  code : Nat
  deriving DecidableEq, Repr

namespace ReadFailure

def notFound : ReadFailure := ⟨"No such file or directory", 2⟩
def notADirectory : ReadFailure := ⟨"Not a directory", 20⟩
def isADirectory : ReadFailure := ⟨"Is a directory", 21⟩
def nameTooLong : ReadFailure := ⟨"File name too long", 36⟩
def permissionDenied : ReadFailure := ⟨"Permission denied", 13⟩

def all : List ReadFailure :=
  [notFound, permissionDenied, notADirectory, isADirectory, nameTooLong]

def ofCode? (code : Nat) : Option ReadFailure := all.find? (·.code == code)

def message (failure : ReadFailure) : String :=
  failure.description ++ " (os error " ++ toString failure.code ++ ")"

end ReadFailure

/-- The parts of a path between slashes. -/
def pathParts : List UInt8 → List (List UInt8)
  | [] => [[]]
  | byte :: rest =>
      if byte = 0x2F then
        [] :: pathParts rest
      else
        match pathParts rest with
        | part :: others => (byte :: part) :: others
        | [] => [[byte]]

/-- Files by name. -/
structure Folder where
  files : List (List UInt8 × List UInt8) := []
  deriving DecidableEq, Repr

namespace Folder

/-- Longest name of a file. -/
def maxName : Nat := 255

/-- Longest path. -/
def maxPath : Nat := 4095

/-- Follows the parts of a path, starting in the folder when `inside` holds
and at a directory above it otherwise. -/
def follow (folder : Folder) (inside : Bool) :
    List (List UInt8) → Except ReadFailure (List UInt8)
  | [] => .error .isADirectory
  | part :: rest =>
      if part = [] ∨ part = Text.ascii "." then
        folder.follow inside rest
      else if part = Text.ascii ".." then
        folder.follow false rest
      else if maxName < part.length then
        .error .nameTooLong
      else if !inside then
        .error .notFound
      else
        match folder.files.lookup part with
        | none => .error .notFound
        | some contents => if rest.isEmpty then .ok contents else .error .notADirectory

/-- The contents of the file at `path`. -/
def read (folder : Folder) (path : List UInt8) : Except ReadFailure (List UInt8) :=
  if path.isEmpty then .error .notFound
  else if maxPath < path.length then .error .nameTooLong
  else folder.follow (path.head? != some 0x2F) (pathParts path)

end Folder

end M16C
