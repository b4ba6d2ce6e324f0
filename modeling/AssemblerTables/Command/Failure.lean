/-
Why a run fails, and how it says so.

The exit code tells whose fault it is: 1 that of the instruction set, 2 that of the
call or of the files that it names, and 3 that of nobody who could be told.
-/
import AssemblerTables.BuildFault
import AssemblerTables.Definition
import AssemblerTables.Lookup
import AssemblerTables.Text.Escapes

namespace AssemblerTables

def Files.Cause.kind : Files.Cause → String
  | .notFound => "FileNotFoundError"
  | .notDirectory => "NotADirectoryError"
  | .isDirectory => "IsADirectoryError"
  | .denied => "PermissionError"
  | .nameTooLong => "OSError"
  | .nullCharacter => "ValueError"

/-- A missing entry is told by the mnemonic that was asked for. -/
def Lookup.Missing.text (m : Lookup.Missing) : String :=
  Text.quoted m.mnemonic

namespace Command

inductive Failure where
  | build (report : FaultReport)
  | definition (text : String)
  | parameter (text : String)
  | file (text : String)
  | internal (kind text : String)
deriving DecidableEq, Repr

namespace Failure

def ofFile (f : Files.Fault) : Failure :=
  match f.cause with
  | .notFound => .file f.text
  | .denied => .file f.text
  | cause => .internal cause.kind f.text

def ofLoad : LoadFault → Failure
  | .definition fault => .definition fault.text
  | .file fault => ofFile fault
  | .tooManyDigits count => .internal "ValueError" (LoadFault.tooManyDigits count).text

def ofMissing (m : Lookup.Missing) : Failure :=
  .internal "KeyError" m.text

def exitCode : Failure → Nat
  | .build _ => 1
  | .definition _ => 1
  | .parameter _ => 2
  | .file _ => 2
  | .internal _ _ => 3

/-- The message.  A label, unless it is empty, tells what work the definition was for. -/
def message (label : String) : Failure → String
  | .build report => report.text
  | .definition text => (if label.isEmpty then "Error: " else s!"{label} error: ") ++ text
  | .parameter text => "Error: " ++ text
  | .file text => "Error: " ++ text
  | .internal _ text => "Internal error: " ++ text

/-- What is added for those who want to know more: the kind of an internal failure. -/
def trace : Failure → String
  | .internal kind text =>
    let last := if text.isEmpty then kind else kind ++ ": " ++ text
    "Traceback (most recent call last):\n" ++ last ++ "\n"
  | _ => ""

/-- All that a failing run says.  Terminal escapes are kept out of the message. -/
def report (label : String) (verbose : Bool) (f : Failure) : String :=
  Text.withoutEscapes (f.message label) ++ "\n" ++ if verbose then f.trace else ""

end Failure
end Command
end AssemblerTables
