/-
Lines of a text: one character ends a line once the three common line ends have
been made one, a position is told by line and column, and a list of lines is
written with an end after each.
-/

namespace AssemblerTables
namespace Text

/-- Every line end as a single line feed: a carriage return counts as one, alone or
before a line feed. -/
def unifyLineEnds : List Char → List Char
  | [] => []
  | '\r' :: '\n' :: rest => '\n' :: unifyLineEnds rest
  | '\r' :: rest => '\n' :: unifyLineEnds rest
  | c :: rest => c :: unifyLineEnds rest

/-- A place in a text: the characters before it, and its line and column, both
counted from one. -/
structure Position where
  offset : Nat
  line : Nat
  column : Nat
deriving DecidableEq, Repr

/-- The place after `offset` characters of `s`. -/
def Position.ofOffset (s : List Char) (offset : Nat) : Position :=
  let before := s.take offset
  { offset := offset,
    line := before.count '\n' + 1,
    column := (before.reverse.takeWhile (· ≠ '\n')).length + 1 }

/-- The lines joined by line feeds, with one more after the last.  No lines at all
still make one line feed. -/
def unlines (lines : List String) : String :=
  String.intercalate "\n" lines ++ "\n"

end Text
end AssemblerTables
