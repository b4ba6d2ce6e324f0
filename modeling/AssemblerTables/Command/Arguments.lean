/-
The options of the command line and how arguments spell them.

An option has a long name and most have a letter.  The value of a long option
stands behind an equals sign or in the next argument, that of a letter in the rest
of its argument or in the next one; letters without values may share an argument.
After a double dash everything is an operand.
-/

namespace AssemblerTables
namespace Command

inductive Switch where
  | output
  | listing
  | format
  | stem
  | keywordsPerRow
  | verbose
  | version
  | help
deriving DecidableEq, Repr

namespace Switch

def all : List Switch :=
  [output, listing, format, stem, keywordsPerRow, verbose, version, help]

def long : Switch → String
  | output => "--output"
  | listing => "--listing"
  | format => "--format"
  | stem => "--prefix"
  | keywordsPerRow => "--keywords-per-row"
  | verbose => "--verbose"
  | version => "--version"
  | help => "--help"

def letter? : Switch → Option Char
  | output => some 'o'
  | listing => some 'l'
  | format => some 'f'
  | stem => some 'p'
  | keywordsPerRow => some 'k'
  | verbose => some 'v'
  | version => none
  | help => none

def takesValue : Switch → Bool
  | verbose => false
  | version => false
  | help => false
  | _ => true

/-- How messages name the option. -/
def label (s : Switch) : String :=
  match s.letter? with
  | some c => s!"'-{c}' / '{s.long}'"
  | none => s!"'{s.long}'"

def ofLong? (name : String) : Option Switch :=
  all.find? fun s => s.long == name

def ofLetter? (c : Char) : Option Switch :=
  all.find? fun s => s.letter? == some c

/-- Does the option answer at once, before anything else is looked at? -/
def isImmediate : Switch → Bool
  | version => true
  | help => true
  | _ => false

end Switch

/-- A part of the command line.  An option without a value has the empty one. -/
inductive Item where
  | use (s : Switch) (value : String)
  | operand (text : String)
deriving DecidableEq, Repr

/-- Why arguments cannot be taken apart.  Options are named as they were spelled. -/
inductive ScanFault where
  | unknown (name : String)
  | noValue (name : String)
  | unwantedValue (name : String)
deriving DecidableEq, Repr

/-- The items of an argument, and the option that waits for the next argument, with its
spelling. -/
structure Scanned where
  items : List Item
  waiting : Option (Switch × String)

def spelled (c : Char) : String :=
  String.ofList ['-', c]

/-- Letters behind one dash.  The first that takes a value takes all the rest. -/
def scanLetters : List Char → Except ScanFault Scanned
  | [] => .ok { items := [], waiting := none }
  | c :: rest =>
    match Switch.ofLetter? c with
    | none => .error (.unknown (spelled c))
    | some s =>
      if s.takesValue then
        if rest.isEmpty then .ok { items := [], waiting := some (s, spelled c) }
        else .ok { items := [.use s (String.ofList rest)], waiting := none }
      else do
        let more ← scanLetters rest
        return { more with items := .use s "" :: more.items }

/-- A long option by its name and the value behind the equals sign, if there is one. -/
def scanLong (s : Switch) (name : String) (value : Option String) : Except ScanFault Scanned :=
  match s.takesValue, value with
  | true, some v => .ok { items := [.use s v], waiting := none }
  | true, none => .ok { items := [], waiting := some (s, name) }
  | false, some _ => .error (.unwantedValue name)
  | false, none => .ok { items := [.use s ""], waiting := none }

def splitValue (s : List Char) : String × Option String :=
  let name := String.ofList (s.takeWhile (· ≠ '='))
  match s.dropWhile (· ≠ '=') with
  | _ :: value => (name, some (String.ofList value))
  | [] => (name, none)

def scanDashed (s : List Char) : Except ScanFault Scanned :=
  let (name, value) := splitValue s
  match Switch.ofLong? name with
  | some switch => scanLong switch name value
  | none =>
    match s with
    | '-' :: '-' :: _ => .error (.unknown name)
    | _ => scanLetters (s.drop 1)

/-- A dash with something behind it.  A dash alone is an operand. -/
def isDashed : List Char → Bool
  | '-' :: _ :: _ => true
  | _ => false

/-- The items of the arguments, the first of which may be the value of an option that
waits for it. -/
def scanAfter : Option (Switch × String) → List String → Except ScanFault (List Item)
  | none, [] => .ok []
  | some (_, name), [] => .error (.noValue name)
  | some (s, _), arg :: rest => do
    let items ← scanAfter none rest
    return .use s arg :: items
  | none, arg :: rest =>
    if arg = "--" then .ok (rest.map .operand)
    else if isDashed arg.toList then do
      let first ← scanDashed arg.toList
      let items ← scanAfter first.waiting rest
      return first.items ++ items
    else do
      let items ← scanAfter none rest
      return .operand arg :: items

def scan (args : List String) : Except ScanFault (List Item) :=
  scanAfter none args

end Command
end AssemblerTables
