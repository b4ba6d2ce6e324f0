/-
Terminal escape sequences, and text without them.

A sequence is the escape character, an opening bracket, parameters made of digits,
semicolons and question marks, and a letter.  Anything that only starts like one
stays in the text.
-/

namespace AssemblerTables
namespace Text

def escape : Char := '\x1b'

def isParameter (c : Char) : Bool :=
  c.isDigit || c = ';' || c = '?'

/-- The text behind the parameters and the letter of a sequence, if both are there. -/
def afterSequence? (s : List Char) : Option (List Char) :=
  match s.dropWhile isParameter with
  | c :: rest => if c.isAlpha then some rest else none
  | [] => none

/-- The characters to leave out at the start of a text, for the sequence that stands
there or for none. -/
def sequenceLength (s : List Char) : Nat :=
  match s with
  | c :: '[' :: rest =>
    if c = escape then
      match afterSequence? rest with
      | some after => s.length - after.length
      | none => 0
    else 0
  | _ => 0

/-- A text without its sequences, with a number of characters to leave out first. -/
def plainAfter : Nat → List Char → List Char
  | _, [] => []
  | skip + 1, _ :: rest => plainAfter skip rest
  | 0, c :: rest =>
    match sequenceLength (c :: rest) with
    | 0 => c :: plainAfter 0 rest
    | n + 1 => plainAfter n rest

def withoutEscapes (s : String) : String :=
  String.ofList (plainAfter 0 s.toList)

end Text
end AssemblerTables
