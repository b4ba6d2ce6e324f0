/-
Paths in their plain form, in which messages print them.

Two spellings of a path that differ only in doubled slashes, in `.` or in a slash
at the end are the same path.  A `..` stays, since what it leaves may be a link.
-/
import AssemblerTables.Text.Pieces

namespace AssemblerTables
namespace Files

/-- Where a path starts: at the working directory, at the top, or at the top written
with exactly two slashes, which a system may read in a way of its own. -/
inductive Start where
  | here
  | top
  | doubleTop
deriving DecidableEq, Repr

def Start.text : Start → String
  | .here => ""
  | .top => "/"
  | .doubleTop => "//"

structure Path where
  start : Start
  /-- The names on the way, none of them empty or `.`. -/
  names : List String
deriving DecidableEq, Repr

namespace Path

def startOf (s : List Char) : Start :=
  match (s.takeWhile (· = '/')).length with
  | 0 => .here
  | 2 => .doubleTop
  | _ => .top

/-- A name that leads somewhere else than where it stands. -/
def isStep (name : List Char) : Bool :=
  !name.isEmpty && name != ['.']

def ofText (s : String) : Path :=
  { start := startOf s.toList,
    names := ((Text.pieces '/' s.toList).filter isStep).map String.ofList }

/-- The path as text.  The working directory itself is a dot. -/
def text (p : Path) : String :=
  let s := p.start.text ++ String.intercalate "/" p.names
  if s.isEmpty then "." else s

end Path
end Files
end AssemblerTables
