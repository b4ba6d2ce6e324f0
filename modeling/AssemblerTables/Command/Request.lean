/-
Requests: command lines with their values checked.

The options are checked in the order in which they are first used, each with the
value of its last use; then the operand, and last the number of operands.  Paths
are looked at as they are written.
-/
import AssemblerTables.Arrival
import AssemblerTables.Command.Arguments
import AssemblerTables.Command.Format
import AssemblerTables.Files.Store
import AssemblerTables.Number.Numeral

namespace AssemblerTables
namespace Command

structure Request where
  source : Option Files.Path := none
  /-- Where the output goes, if not to the standard output. -/
  output : Option Files.Path := none
  listing : Option Files.Path := none
  format : Format := .c
  stem : Option String := none
  keywordsPerRow : Option Int := none
  verbose : Bool := false
deriving DecidableEq, Repr

inductive UsageFault where
  | scan (fault : ScanFault)
  /-- A value is not what the named parameter takes. -/
  | value (parameter detail : String)
  /-- A value is a path that cannot even be looked at. -/
  | path (fault : Files.Fault)
  | operands (extra : List String)
deriving DecidableEq, Repr

def UsageFault.text : UsageFault → String
  | .scan (.unknown name) => s!"No such option: {name}"
  | .scan (.noValue name) => s!"Option '{name}' requires an argument."
  | .scan (.unwantedValue name) => s!"Option '{name}' does not take a value."
  | .value parameter detail => s!"Invalid value for {parameter}: {detail}"
  | .path fault => fault.text
  | .operands extra =>
    let noun := if extra.length = 1 then "argument" else "arguments"
    let list := String.intercalate " " extra
    s!"Got unexpected extra {noun} ({list})"

/-- Is the command line so far from any usage that the usage is not shown with the
fault? -/
def UsageFault.isBrief : UsageFault → Bool
  | .scan (.noValue _) => true
  | .scan (.unwantedValue _) => true
  | _ => false

namespace Request

/-! ## Values -/

/-- A path to write to must not be a directory.  One with a null character cannot be
looked at, and any other need not lead anywhere yet. -/
def outputPath (files : Files.OctetStore) (s : Switch) (value : String) :
    Except UsageFault Files.Path :=
  match files.find value with
  | .ok .directory => .error (.value s.label s!"File {Text.quoted value} is a directory.")
  | .error .nullCharacter => .error (.path { cause := .nullCharacter, path := value })
  | _ => .ok (.ofText value)

def formatOf (value : String) : Except UsageFault Format :=
  match Format.ofName? value with
  | some f => .ok f
  | none =>
    let names := String.intercalate ", " (Format.all.map fun f => Text.quoted f.name)
    .error (.value Switch.format.label s!"{Text.quoted value} is not one of {names}.")

def rowWidth (value : String) : Except UsageFault Int :=
  let label := Switch.keywordsPerRow.label
  match Numeral.read? .decimal value with
  | none => .error (.value label s!"{Text.quoted value} is not a valid integer range.")
  | some n =>
    if n < 1 then .error (.value label s!"{n} is not in the range x>=1.") else .ok n

def apply (files : Files.OctetStore) (r : Request) (s : Switch) (value : String) :
    Except UsageFault Request :=
  match s with
  | .output => do
    let path ← outputPath files s value
    return { r with output := some path }
  | .listing => do
    let path ← outputPath files s value
    return { r with listing := some path }
  | .format => do
    let f ← formatOf value
    return { r with format := f }
  | .stem => .ok { r with stem := some value }
  | .keywordsPerRow => do
    let n ← rowWidth value
    return { r with keywordsPerRow := some n }
  | .verbose => .ok { r with verbose := true }
  | .version => .ok r
  | .help => .ok r

def applyAll (files : Files.OctetStore) :
    Request → List (Switch × String) → Except UsageFault Request
  | r, [] => .ok r
  | r, (s, value) :: rest => do
    let next ← apply files r s value
    applyAll files next rest

/-- A file to read has to be there and not to be a directory. -/
def sourcePath (files : Files.OctetStore) (value : String) : Except UsageFault Files.Path :=
  let fault (detail : String) : UsageFault :=
    .value "'[ISA_FILE]'" s!"File {Text.quoted value} {detail}"
  match files.find value with
  | .error .nullCharacter => .error (.path { cause := .nullCharacter, path := value })
  | .error _ => .error (fault "does not exist.")
  | .ok .directory => .error (fault "is a directory.")
  | .ok .locked => .error (fault "is not readable.")
  | .ok (.file _) => .ok (.ofText value)

/-! ## Requests -/

/-- The options used, by first use, with the values of their last use. -/
def uses (items : List Item) : List (Switch × String) :=
  Arrival.ofList Prod.fst <| items.filterMap fun
    | .use s value => some (s, value)
    | .operand _ => none

def operands (items : List Item) : List String :=
  items.filterMap fun
    | .use _ _ => none
    | .operand text => some text

def withOperands (files : Files.OctetStore) (r : Request) :
    List String → Except UsageFault Request
  | [] => .ok r
  | text :: extra => do
    let path ← sourcePath files text
    if extra.isEmpty then return { r with source := some path }
    else .error (.operands extra)

def ofItems (files : Files.OctetStore) (items : List Item) : Except UsageFault Request := do
  let r ← applyAll files {} (uses items)
  withOperands files r (operands items)

/-- The option that answers at once, the first of them if there are several. -/
def immediate? (items : List Item) : Option Switch :=
  ((uses items).map Prod.fst).find? Switch.isImmediate

def pathTexts (items : List Item) : List String :=
  items.filterMap fun
    | .use .output value => some value
    | .use .listing value => some value
    | .use _ _ => none
    | .operand text => some text

end Request
end Command
end AssemblerTables
