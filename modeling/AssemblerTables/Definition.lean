/-
Definitions of instruction sets: lists of records, in memory or in a file.

A list in memory may also have instructions that are ready among its records.  A file
holds JSON in UTF-8, either the list itself or an object with the list under
`instructions`.  A fault in a record is told with the place of the record in the
list, and any other fault with the path of the file.
-/
import AssemblerTables.Files.Store
import AssemblerTables.Instruction.Record
import AssemblerTables.Json.Reader
import AssemblerTables.Text.Utf8

namespace AssemblerTables

open Json (Value)

/-! ## Faults -/

inductive DefinitionFault where
  | record (index : Nat) (fault : RecordFault)
  | encoding (path : Files.Path) (fault : Text.Utf8.Fault)
  | malformed (path : Files.Path) (reason : Json.Reason) (position : Text.Position)
  | noList (path : Files.Path)
  | notBundled (name : String)

namespace DefinitionFault

def encodingText (f : Text.Utf8.Fault) : String :=
  let octets :=
    if f.length = 1 then
      s!"byte 0x{String.ofList (Text.hexDigits 2 f.octet.toNat)} in position {f.offset}"
    else s!"bytes in position {f.offset}-{f.offset + f.length - 1}"
  s!"'utf-8' codec can't decode {octets}: {f.reason.text}"

def detail : DefinitionFault → String
  | .record _ fault => fault.text
  | .encoding path fault => s!"{path.text}: not valid UTF-8: {encodingText fault}"
  | .malformed path reason position =>
    s!"{path.text}: invalid JSON: {reason.text}: " ++
      s!"line {position.line} column {position.column} (char {position.offset})"
  | .noList path => s!"{path.text}: expected a list of instructions"
  | .notBundled name => s!"no bundled ISA named '{name}'"

def index? : DefinitionFault → Option Nat
  | .record index _ => some index
  | _ => none

/-- A detail with the place of its record before it. -/
def placed (index : Option Int) (detail : String) : String :=
  match index with
  | some i => s!"instruction #{i}: {detail}"
  | none => detail

def text (f : DefinitionFault) : String :=
  placed (f.index?.map fun (i : Nat) => (i : Int)) f.detail

end DefinitionFault

inductive LoadFault where
  | definition (fault : DefinitionFault)
  | file (fault : Files.Fault)
  /-- An integer in the file has more digits than a decimal numeral may have. -/
  | tooManyDigits (count : Nat)

def LoadFault.text : LoadFault → String
  | .definition fault => fault.text
  | .file fault => fault.text
  | .tooManyDigits count =>
    s!"Exceeds the limit ({Radix.decimalLimit} digits) for integer string conversion: " ++
      s!"value has {count} digits; " ++
      "use sys.set_int_max_str_digits() to increase the limit"

namespace Definition

/-! ## Records -/

/-- What a list in memory may have at a place: a record, or an instruction that is ready. -/
inductive Element where
  | record (value : Value)
  | ready (i : Instruction)

/-- Only records are checked.  An instruction that is ready stays as it is, also with an opcode
that no record could have. -/
def Element.read : Element → Except RecordFault Instruction
  | .record value => Record.read value
  | .ready i => .ok i

/-- The instructions of elements that stand in a list from `index` on. -/
def ofElementsFrom (index : Nat) : List Element → Except DefinitionFault (List Instruction)
  | [] => .ok []
  | e :: rest => do
    let i ← e.read.mapError (.record index)
    let is ← ofElementsFrom (index + 1) rest
    return i :: is

def ofElements (es : List Element) : Except DefinitionFault (List Instruction) :=
  ofElementsFrom 0 es

/-- The instructions of a list that has records only, as every list in a file has. -/
def ofRecords (records : List Value) : Except DefinitionFault (List Instruction) :=
  ofElements (records.map .record)

/-- A value that has no elements. -/
structure NotIterable where
  kind : String
deriving DecidableEq, Repr

def NotIterable.text (e : NotIterable) : String :=
  s!"'{e.kind}' object is not iterable"

/-- The records that a value offers, whatever its kind. -/
def recordsOf (v : Value) : Except NotIterable (List Value) :=
  match v.elements? with
  | some vs => .ok vs
  | none => .error { kind := v.kind }

/-! ## Files -/

def list? : Value → Option (List Value)
  | .list vs => some vs
  | .object members =>
    match Json.get? members "instructions" with
    | some (.list vs) => some vs
    | _ => none
  | _ => none

def ofOctets (path : Files.Path) (octets : List UInt8) : Except LoadFault (List Value) :=
  match Text.Utf8.decode octets with
  | .error fault => .error (.definition (.encoding path fault))
  | .ok chars =>
    match Json.read (Text.unifyLineEnds chars) with
    | .error (.malformed reason position) =>
      .error (.definition (.malformed path reason position))
    | .error (.tooManyDigits count) => .error (.tooManyDigits count)
    | .ok document =>
      match list? document with
      | some vs => .ok vs
      | none => .error (.definition (.noList path))

def recordsAt (files : Files.OctetStore) (path : Files.Path) :
    Except LoadFault (List Value) := do
  let octets ← (files.read path).mapError .file
  ofOctets path octets

def load (files : Files.OctetStore) (path : Files.Path) :
    Except LoadFault (List Instruction) := do
  let records ← recordsAt files path
  (ofRecords records).mapError .definition

end Definition
end AssemblerTables
