/-
Syntax patterns of instructions, such as `MOV A, X[%]`.

A pattern starts with the mnemonic.  After it stand the operands, separated by
commas: register names, and the placeholder `%` for a value, bare or in brackets
that say how the value is used.  The words of a pattern are its runs of word
characters; they are compared without regard to case, so they are read in lower
case.
-/
import AssemblerTables.Text.Blank
import AssemblerTables.Text.Case
import AssemblerTables.Text.Pieces
import AssemblerTables.Text.Word

namespace AssemblerTables
namespace Pattern

/-! ## Words -/

/-- The run of word characters at the start of a text, empty if there is none, and
the runs after it. -/
def runs : List Char → List Char × List (List Char)
  | [] => ([], [])
  | c :: rest =>
    let (first, others) := runs rest
    if Text.isWord c then (c :: first, others)
    else ([], if first.isEmpty then others else first :: others)

def wordRuns (s : List Char) : List (List Char) :=
  let (first, others) := runs s
  if first.isEmpty then others else first :: others

def words (pattern : String) : List String :=
  (wordRuns pattern.toList).map fun w => String.ofList (Text.lowerChars w)

/-! ## Mnemonic and operands -/

/-- The mnemonic in lower case and the text of the operands without blanks around it.
A pattern that does not start with a word has no mnemonic. -/
def split? (pattern : String) : Option (String × String) :=
  let word := pattern.toList.takeWhile Text.isWord
  if word.isEmpty then none
  else
    some (String.ofList (Text.lowerChars word),
      String.ofList (Text.trim (pattern.toList.dropWhile Text.isWord)))

def mnemonic? (pattern : String) : Option String :=
  (split? pattern).map Prod.fst

/-- The operands of an operand text, each without blanks around it.  A blank text has
none; a comma always stands between two, of which either may be empty. -/
def operands (text : String) : List String :=
  if Text.isBlankText text.toList then []
  else (Text.pieces ',' text.toList).map fun piece => String.ofList (Text.trim piece)

/-! ## Description -/

/-- Writes a label for every placeholder that stands directly between the two
brackets. -/
def label (opening closing : Char) (name : List Char) : List Char → List Char
  | [] => []
  | [a] => [a]
  | [a, b] => [a, b]
  | a :: b :: c :: rest =>
    if a = opening ∧ b = '%' ∧ c = closing then
      opening :: name ++ closing :: label opening closing name rest
    else a :: label opening closing name (b :: c :: rest)

def labelBare (name : List Char) (s : List Char) : List Char :=
  s.flatMap fun c => if c = '%' then name else [c]

def describeChars (s : List Char) : List Char :=
  labelBare ['i', 'm', 'm']
    (label '(' ')' ['p', 't', 'r'] (label '[' ']' ['a', 'd', 'r'] s))

/-- A pattern with words for its placeholders: an address in square brackets, a
pointer in round ones, an immediate value elsewhere.  The brackets go first, since
they tell what the placeholder between them is. -/
def describe (pattern : String) : String :=
  String.ofList (describeChars pattern.toList)

end Pattern
end AssemblerTables
