/-
The definitions that come with the generator, on a shelf where each has a name.

A name is looked up as a path from the shelf, so it may also leave the shelf and
come back, through the directories that stand around it.
-/
import AssemblerTables.Bundled.Gr8cpuR3
import AssemblerTables.Definition

namespace AssemblerTables
namespace Bundled

/-- The directories that stand beside the shelf, in that of the generator. -/
def neighbours : List String :=
  ["cli", "emit", "isa"]

/-- The shelf: a directory with a file for every definition.  The names in `home` lead to the
directory of the generator, from a place whose own name no path can spell because of its
slash.  So a path from the top never gets to the shelf, and one from the shelf gets back
only by the names in `home`. -/
def shelf (home : List String) : Files.Store (List Instruction) :=
  let generator : Files.Place := "/" :: home
  { here := generator ++ ["data"],
    entries :=
      (generator ++ ["data", "gr8cpu_r3.json"], .file gr8cpuR3) ::
        neighbours.map fun name => (generator ++ [name], .directory) }

def defaultName : String := "gr8cpu_r3"

def fileName (name : String) : String :=
  name ++ ".json"

/-- The path under which messages show a definition of the shelf, which has no place of
its own among the files of a system. -/
def shownPath (name : String) : Files.Path :=
  match (Files.Path.ofText (fileName name)).start with
  | .here => Files.Path.ofText ("<DATA_DIR>/" ++ fileName name)
  | _ => Files.Path.ofText (fileName name)

/-- The definition of a name, for a generator to which the names in `home` lead.  A name
too long for a file is told as a fault of the file, every other as that of a definition
that is not there. -/
def findFrom (home : List String) (name : String) : Except LoadFault (List Instruction) :=
  match (shelf home).read (Files.Path.ofText (fileName name)) with
  | .ok is => .ok is
  | .error fault =>
    if fault.cause = .nameTooLong then
      .error (.file { cause := .nameTooLong, path := (shownPath name).text })
    else .error (.definition (.notBundled name))

/-- The definition of a name, wherever the generator is. -/
def find (name : String) : Except LoadFault (List Instruction) :=
  findFrom [] name

end Bundled
end AssemblerTables
