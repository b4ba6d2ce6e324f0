/-
JSON values, with integers and floating-point numbers told apart and the members
of an object in the order in which they were written.
-/
import AssemblerTables.Arrival
import AssemblerTables.Number.Binary64
import AssemblerTables.Number.Numeral
import AssemblerTables.Text.Quoted

namespace AssemblerTables
namespace Json

inductive Value where
  | null
  | bool (b : Bool)
  | int (n : Int)
  | float (x : Binary64)
  | text (s : String)
  | list (items : List Value)
  | object (members : List (String × Value))

/-- Adds a member.  A name that is there already keeps its place and takes the new
value. -/
def put (members : List (String × Value)) (name : String) (v : Value) : List (String × Value) :=
  Arrival.put Prod.fst (name, v) members

def get? (members : List (String × Value)) (name : String) : Option Value :=
  members.lookup name

namespace Value

def kind : Value → String
  | .null => "NoneType"
  | .bool _ => "bool"
  | .int _ => "int"
  | .float _ => "float"
  | .text _ => "str"
  | .list _ => "list"
  | .object _ => "dict"

/-- The values that a list-like value offers one by one: a list its items, a text its
characters, an object the names of its members. -/
def elements? : Value → Option (List Value)
  | .list items => some items
  | .text s => some (s.toList.map fun c => .text (String.ofList [c]))
  | .object members => some (members.map fun m => .text m.1)
  | _ => none

/-! ## The text of a value in messages -/

mutual
/-- A value as messages show it: text in quotes, lists and objects in full. -/
def shown : Value → String
  | .null => "None"
  | .bool b => if b then "True" else "False"
  | .int n => Numeral.decimal n
  | .float x => x.text
  | .text s => Text.quoted s
  | .list items => "[" ++ String.intercalate ", " (shownItems items) ++ "]"
  | .object members => "\x7b" ++ String.intercalate ", " (shownMembers members) ++ "\x7d"

def shownItems : List Value → List String
  | [] => []
  | v :: rest => v.shown :: shownItems rest

def shownMembers : List (String × Value) → List String
  | [] => []
  | (name, v) :: rest => (Text.quoted name ++ ": " ++ v.shown) :: shownMembers rest
end

end Value
end Json
end AssemblerTables
