/-
A store of files: what is at which place, and how a path leads there.

Places are counted from the top, as lists of names.  A path is followed name by
name from the working directory or from the top.  At every step the place reached
so far has to be a directory, also when the step stays or goes back, so a path
through a missing directory fails even where it would leave it again.
-/
import AssemblerTables.Arrival
import AssemblerTables.Files.Path
import AssemblerTables.Text.Quoted

namespace AssemblerTables
namespace Files

abbrev Place : Type := List String

inductive Entry (α : Type) where
  | directory
  | file (content : α)
  | locked
deriving DecidableEq, Repr

/-! ## Faults -/

inductive Cause where
  | notFound
  | notDirectory
  | isDirectory
  | denied
  | nameTooLong
  | nullCharacter
deriving DecidableEq, Repr

/-- The number under which systems report the cause, and its words.  A null character
is refused before any system sees the path. -/
def Cause.report? : Cause → Option (Nat × String)
  | .notFound => some (2, "No such file or directory")
  | .denied => some (13, "Permission denied")
  | .notDirectory => some (20, "Not a directory")
  | .isDirectory => some (21, "Is a directory")
  | .nameTooLong => some (36, "File name too long")
  | .nullCharacter => none

/-- The path that could not be used, as it was written, and why. -/
structure Fault where
  cause : Cause
  path : String
deriving DecidableEq, Repr

def Fault.text (f : Fault) : String :=
  match f.cause.report? with
  | some (number, words) => s!"[Errno {number}] {words}: {Text.quoted f.path}"
  | none => "embedded null byte"

/-! ## The store -/

structure Store (α : Type) where
  here : Place
  entries : List (Place × Entry α)
deriving DecidableEq, Repr

/-- The files of a system, which hold octets. -/
abbrev OctetStore : Type := Store (List UInt8)

namespace Store

variable {α : Type}

/-- What is at a place.  The way to an entry and the way to the working directory are
directories. -/
def at? (s : Store α) (place : Place) : Option (Entry α) :=
  match s.entries.lookup place with
  | some entry => some entry
  | none =>
    if place.isPrefixOf s.here || s.entries.any fun e => place.isPrefixOf e.1 then
      some .directory
    else none

def nameLimit : Nat := 255

def pathLimit : Nat := 4095

/-- One step from a place that has to be a directory. -/
def step (s : Store α) (place : Place) (name : String) : Except Cause Place :=
  match s.at? place with
  | none => .error .notFound
  | some .directory =>
    if name = "" ∨ name = "." then .ok place
    else if name = ".." then .ok place.dropLast
    else if nameLimit < name.utf8ByteSize then .error .nameTooLong
    else .ok (place ++ [name])
  | some _ => .error .notDirectory

def walk (s : Store α) : Place → List String → Except Cause Place
  | place, [] => .ok place
  | place, name :: rest => do
    let next ← s.step place name
    walk s next rest

/-- The place that a path as written leads to.  Nothing needs to be there. -/
def locate (s : Store α) (path : String) : Except Cause Place :=
  if path.toList.contains '\x00' then .error .nullCharacter
  else if path.isEmpty then .error .notFound
  else if pathLimit < path.utf8ByteSize then .error .nameTooLong
  else
    s.walk (if path.toList.head? = some '/' then [] else s.here)
      ((Text.pieces '/' path.toList).map String.ofList)

def find (s : Store α) (path : String) : Except Cause (Entry α) := do
  let place ← s.locate path
  match s.at? place with
  | some entry => return entry
  | none => .error .notFound

def put (s : Store α) (place : Place) (entry : Entry α) : Store α :=
  { s with entries := Arrival.put Prod.fst (place, entry) s.entries }

def readCause (s : Store α) (path : String) : Except Cause α := do
  match ← s.find path with
  | .file content => return content
  | .directory => .error .isDirectory
  | .locked => .error .denied

def read (s : Store α) (path : Path) : Except Fault α :=
  (s.readCause path.text).mapError fun cause => { cause := cause, path := path.text }

def writeCause (s : Store α) (path : String) (content : α) : Except Cause (Store α) := do
  let place ← s.locate path
  match s.at? place with
  | some .directory => .error .isDirectory
  | some .locked => .error .denied
  | _ => return s.put place (.file content)

/-- The store with a file written, over what the file held before. -/
def write (s : Store α) (path : Path) (content : α) : Except Fault (Store α) :=
  (s.writeCause path.text content).mapError fun cause => { cause := cause, path := path.text }

end Store
end Files
end AssemblerTables
