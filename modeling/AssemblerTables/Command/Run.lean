/-
A run of the command line, from its arguments to what it prints and writes.

The stages follow each other: settings, instructions, tables, text, output, listing.
The first that fails ends the run.  What earlier stages have printed or written
stays: when the listing cannot be written, the output is there already.
-/
import AssemblerTables.CSource
import AssemblerTables.Command.Failure
import AssemblerTables.Command.Help
import AssemblerTables.Command.Request
import AssemblerTables.Summary
import AssemblerTables.Tables.Journal

namespace AssemblerTables
namespace Command

/-! ## Stages -/

/-- Settings from the environment, and over them what the request says. -/
def settingsOf (env : Settings.Environment) (r : Request) : Except Failure Settings :=
  let changes : Settings.Changes := { stem := r.stem, keywordsPerRow := r.keywordsPerRow }
  ((Settings.ofEnvironment env).bind fun s => s.update changes).mapError fun fault =>
    .parameter fault.text

def instructionsOf (files : Files.OctetStore) (r : Request) : Except Failure (List Instruction) :=
  match r.source with
  | none => (Bundled.find Bundled.defaultName).mapError .ofLoad
  | some path => (Definition.load files path).mapError .ofLoad

def loadNotes (files : Files.OctetStore) (r : Request) : List Note :=
  match r.source with
  | none => .bundledChosen :: Journal.ofBundled Bundled.defaultName
  | some path => Journal.ofLoad files path

def tablesOf (is : List Instruction) : Except Failure Tables :=
  (Tables.build is).mapError fun fault => .build fault.report

def listingText (t : Tables) : String :=
  Listing.text Listing.defaultIndent t.listing

def textOf (s : Settings) (format : Format) (t : Tables) : Except Failure String :=
  match format with
  | .c => (CSource.source s t).mapError .ofMissing
  | .listing => .ok (listingText t)
  | .summary => (Summary.text t).mapError .ofMissing

/-! ## Progress -/

structure Progress where
  stdout : String := ""
  notes : List Note := []
  files : Files.OctetStore
deriving DecidableEq, Repr

namespace Progress

def note (p : Progress) (notes : List Note) : Progress :=
  { p with notes := p.notes ++ notes }

def write (p : Progress) (path : Files.Path) (text : String) (n : Note) :
    Except Failure Progress := do
  let files ← (p.files.write path text.toUTF8.toList).mapError .ofFile
  return { p with files := files, notes := p.notes ++ [n] }

/-- Writes the output to its file, or prints it without terminal escapes. -/
def deliver (p : Progress) (r : Request) (text : String) : Except Failure Progress :=
  match r.output with
  | none => .ok { p with stdout := p.stdout ++ Text.withoutEscapes text }
  | some path => p.write path text (.wroteOutput r.format.name path)

def deliverListing (p : Progress) (r : Request) (t : Tables) : Except Failure Progress :=
  match r.listing with
  | none => .ok p
  | some path => p.write path (listingText t) (.wroteListing path)

end Progress

/-- How a run ends: as far as it got, and the failure that stopped it, if one did. -/
structure Ending where
  progress : Progress
  failure : Option Failure := none
deriving DecidableEq, Repr

/-- Goes on with the result of a stage, or ends with its failure. -/
def Progress.continue {α : Type} (p : Progress) (result : Except Failure α)
    (next : α → Ending) : Ending :=
  match result with
  | .ok x => next x
  | .error f => { progress := p, failure := some f }

def finish (r : Request) (t : Tables) (text : String) (p : Progress) : Ending :=
  p.continue (p.deliver r text) fun p =>
    p.continue (p.deliverListing r t) fun p => { progress := p }

def follow (env : Settings.Environment) (files : Files.OctetStore) (r : Request) : Ending :=
  let p : Progress := { files := files }
  p.continue (settingsOf env r) fun s =>
    let p := p.note (loadNotes files r)
    p.continue (instructionsOf files r) fun is =>
      let p := p.note (Journal.ofBuild is)
      p.continue (tablesOf is) fun t =>
        p.continue (textOf s r.format t) fun text => finish r t text p

/-! ## Runs -/

structure Outcome where
  exitCode : Nat
  stdout : String
  stderr : String
  files : Files.OctetStore
deriving DecidableEq, Repr

def workLabel : String := "Generation"

/-- The notes as a log, if anyone wants it. -/
def logText (verbose : Bool) (notes : List Note) : String :=
  if verbose then String.join (notes.map fun n => n.text ++ "\n") else ""

def Ending.outcome (verbose : Bool) (e : Ending) : Outcome :=
  { exitCode := (e.failure.map Failure.exitCode).getD 0,
    stdout := e.progress.stdout,
    stderr :=
      logText verbose e.progress.notes ++
        (e.failure.map (Failure.report workLabel verbose)).getD "",
    files := e.progress.files }

def usageReport (f : UsageFault) : String :=
  let message := Text.withoutEscapes ("Error: " ++ f.text) ++ "\n"
  if f.isBrief then message else usageText ++ "\n" ++ message

def misused (files : Files.OctetStore) (f : UsageFault) : Outcome :=
  { exitCode := 2, stdout := "", stderr := usageReport f, files := files }

/-- What comes of a command line that cannot be followed: a report, or nothing but the
fault of a path that cannot be looked at. -/
def refused (files : Files.OctetStore) : UsageFault → Except Files.Fault Outcome
  | .path fault => .error fault
  | fault => .ok (misused files fault)

def answered (files : Files.OctetStore) (text : String) : Outcome :=
  { exitCode := 0, stdout := text, stderr := "", files := files }

def runItems (env : Settings.Environment) (files : Files.OctetStore) (items : List Item) :
    Except Files.Fault Outcome :=
  match Request.immediate? items with
  | some .version => .ok (answered files versionText)
  | some _ => .ok (answered files helpText)
  | none =>
    match Request.ofItems files items with
    | .error f => refused files f
    | .ok r => .ok ((follow env files r).outcome r.verbose)

/-- The outcome of a command line in an environment, on a store of files.  There is none if
a path with a null character is met before any other fault. -/
def run (args : List String) (env : Settings.Environment) (files : Files.OctetStore) :
    Except Files.Fault Outcome :=
  match scan args with
  | .error f => .ok (misused files (.scan f))
  | .ok items => runItems env files items

end Command
end AssemblerTables
