/-
Records: instructions as a definition writes them.

A record is an object with the pattern under `name`, the opcode under `hex` and the
values under `args`.  The opcode is a number or a hexadecimal numeral, and a value
is an object that tells its width under `bits`, or under `type` and then `bits`.
Other members do not count.  A record is read in a fixed order and the first fault
is reported.
-/
import AssemblerTables.Instruction
import AssemblerTables.Json.Value

namespace AssemblerTables

open Json (Value)

/-- What is wrong with a record.  Values are kept for the message. -/
inductive RecordFault where
  | notObject (kind : String)
  | noName
  | noOpcode (name : String)
  | valuesNotList (name : String)
  | badOpcode (v : Value)
  | opcodeRange (v : Value)
  | valueNotObject (v : Value)
  | noWidth (v : Value)

def RecordFault.text : RecordFault → String
  | .notObject kind => s!"record must be an object, got {kind}"
  | .noName => "missing or non-string 'name'"
  | .noOpcode name => s!"'{name}' has no 'hex' opcode"
  | .valuesNotList name => s!"'{name}' args must be a list"
  | .badOpcode v => s!"invalid opcode {v.shown}"
  | .opcodeRange v => s!"opcode {v.shown} does not fit in a byte"
  | .valueNotObject v => s!"operand entry must be an object, got {v.shown}"
  | .noWidth v => s!"operand entry has no integer 'bits': {v.shown}"

namespace Record

/-! ## Opcodes -/

/-- The numeral in an opcode text: blanks are cut off, and then one `0x`. -/
def opcodeNumeral (s : List Char) : List Char :=
  match Text.trim s with
  | '0' :: x :: rest => if x = 'x' ∨ x = 'X' then rest else '0' :: x :: rest
  | s => s

def opcodeNumber? : Value → Option Int
  | .int n => some n
  | .text s => Numeral.readChars? .hexadecimal (opcodeNumeral s.toList)
  | _ => none

def maxOpcode : Int := 0xFF

def opcode (v : Value) : Except RecordFault Int :=
  match opcodeNumber? v with
  | none => .error (.badOpcode v)
  | some n => if 0 ≤ n ∧ n ≤ maxOpcode then .ok n else .error (.opcodeRange v)

/-! ## Values -/

def bits? : Value → Option Int
  | .object members =>
    match Json.get? members "bits" with
    | some (.int n) => some n
    | _ => none
  | _ => none

/-- The width of a value.  A `type` takes the place of the object around it, also when
it tells no width and the object would. -/
def width (v : Value) : Except RecordFault Int :=
  match v with
  | .object members =>
    match bits? ((Json.get? members "type").getD v) with
    | some n => .ok n
    | none => .error (.noWidth v)
  | v => .error (.valueNotObject v)

/-! ## Records -/

/-- The values of an instruction: a list, or none if nothing is said.  In memory they may also
stand in a tuple, which is a list here. -/
def values (name : String) : Option Value → Except RecordFault (List Value)
  | none => .ok []
  | some (.list vs) => .ok vs
  | some _ => .error (.valuesNotList name)

/-- The members of a record: pattern, opcode and values, the last two as written. -/
def parts (members : List (String × Value)) : Except RecordFault (String × Value × List Value) :=
  match Json.get? members "name", Json.get? members "hex" with
  | some (.text name), some hex => do
    let vs ← values name (Json.get? members "args")
    return (name, hex, vs)
  | some (.text name), none => .error (.noOpcode name)
  | _, _ => .error .noName

def read (record : Value) : Except RecordFault Instruction :=
  match record with
  | .object members => do
    let (name, hex, vs) ← parts members
    let n ← opcode hex
    let widths ← vs.mapM width
    return { pattern := name, opcode := n, widths := widths }
  | v => .error (.notObject v.kind)

end Record
end AssemblerTables
