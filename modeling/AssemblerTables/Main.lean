/-
The command line program.

A run works on a store of files, so the program first copies into a store what is
found at the paths of its arguments, and after the run writes the files that the
store has gained.
-/
import AssemblerTables.Command.Run

namespace AssemblerTables
namespace Command

def namesOf (text : String) : List String :=
  ((Text.pieces '/' text.toList).filter fun name => !name.isEmpty).map String.ofList

def textOfPlace (place : Files.Place) : String :=
  "/" ++ String.intercalate "/" place

/-- The places that the names lead through from a place, step by step. -/
def placesOf : Files.Place → List String → List Files.Place
  | _, [] => []
  | place, name :: rest =>
    let next :=
      if name = "." then place else if name = ".." then place.dropLast else place ++ [name]
    next :: placesOf next rest

def copyPlace (files : Files.OctetStore) (place : Files.Place) : IO Files.OctetStore := do
  let here ← IO.currentDir
  let path := here / textOfPlace place
  if ← path.isDir then return files.put place .directory
  if !(← path.pathExists) then return files
  match ← (IO.FS.readBinFile path).toBaseIO with
  | .ok content => return files.put place (.file content.toList)
  | .error _ => return files.put place .locked

def collect (args : List String) : IO Files.OctetStore := do
  let here := namesOf (← IO.currentDir).toString
  let texts := (scan args).toOption.elim [] Request.pathTexts
  let places := texts.flatMap fun text =>
    placesOf (if text.startsWith "/" then [] else here) (namesOf text)
  places.eraseDups.foldlM copyPlace { here := here, entries := [] }

/-- Writes the files whose content the run has changed. -/
def writeBack (before after : Files.OctetStore) : IO Unit := do
  for (place, entry) in after.entries do
    match entry, before.at? place with
    | .file content, some (.file old) =>
      if content != old then
        IO.FS.writeBinFile (textOfPlace place) ⟨content.toArray⟩
    | .file content, _ => IO.FS.writeBinFile (textOfPlace place) ⟨content.toArray⟩
    | _, _ => pure ()

def readEnvironment : IO Settings.Environment :=
  ["ISAGEN_PREFIX", "ISAGEN_KEYWORDS_PER_ROW"].filterMapM fun name => do
    return (← IO.getEnv name).map (name, ·)

end Command
end AssemblerTables

open AssemblerTables.Command in
def main (args : List String) : IO UInt32 := do
  let files ← collect args
  match run args (← readEnvironment) files with
  | .error fault =>
    IO.eprintln fault.text
    return 1
  | .ok outcome =>
    IO.print outcome.stdout
    IO.eprint outcome.stderr
    writeBack files outcome.files
    return outcome.exitCode.toUInt32
