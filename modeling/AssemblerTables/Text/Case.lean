/-
Lower and upper case of whole texts.

Letter case is a function of texts and not of characters: an upper case form can
have several characters, one lower case form has two, and a capital sigma is
written in its final form at the end of a word.
-/
import AssemblerTables.Text.Case.Tables

namespace AssemblerTables
namespace Text

/-- The image of a code point under a simple mapping; outside the runs it stays. -/
def mapCase : List CaseRun → Nat → Nat
  | [], n => n
  | (first, last, stride, image) :: rest, n =>
    if last < n then mapCase rest n
    else if first ≤ n ∧ (n - first) % stride = 0 then image + (n - first) else n

def isCased (c : Char) : Bool :=
  casedCharacters.contains c

def isCaseIgnorable (c : Char) : Bool :=
  caseIgnorableCharacters.contains c

/-! ## Lower case -/

/-- The lower case form of one character away from its neighbours.  Only the capital
I with a dot above has a longer form: the dot is kept as a combining mark. -/
def lowerChar (c : Char) : List Char :=
  if c = 'İ' then ['i', '\u0307'] else [Char.ofNat (mapCase lowerRuns c.toNat)]

/-- Does a cased character follow, with the case-ignorable ones skipped? -/
def casedAhead (s : List Char) : Bool :=
  match s.dropWhile isCaseIgnorable with
  | [] => false
  | c :: _ => isCased c

/-- Lower case, told whether the nearest character before that is not case-ignorable
is cased.  A capital sigma takes its final form after a cased character and before
none. -/
def lowerAfter : Bool → List Char → List Char
  | _, [] => []
  | behind, c :: rest =>
    let form :=
      if c = 'Σ' then [if behind && !casedAhead rest then 'ς' else 'σ'] else lowerChar c
    form ++ lowerAfter (if isCaseIgnorable c then behind else isCased c) rest

def lowerChars (s : List Char) : List Char :=
  lowerAfter false s

def lower (s : String) : String :=
  String.ofList (lowerChars s.toList)

/-! ## Upper case -/

def upperChar (c : Char) : List Char :=
  match upperExpansions.find? (fun e => e.1 == c.toNat) with
  | some e => e.2.map Char.ofNat
  | none => [Char.ofNat (mapCase upperRuns c.toNat)]

def upperChars (s : List Char) : List Char :=
  s.flatMap upperChar

def upper (s : String) : String :=
  String.ofList (upperChars s.toList)

end Text
end AssemblerTables
