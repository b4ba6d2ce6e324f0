/-
White space, and text without it at the ends.

Blank characters are the separators of every script, the tab and line controls,
and the four information separators.  The zero-width space and the byte order
mark are not among them.
-/
import AssemblerTables.Text.CharSet

namespace AssemblerTables
namespace Text

def blankCharacters : CharSet :=
  ⟨[
    (9, 13), (28, 32), (133, 133), (160, 160), (5760, 5760), (8192, 8202), (8232, 8233),
    (8239, 8239), (8287, 8287), (12288, 12288)
  ]⟩

def isBlank (c : Char) : Bool :=
  blankCharacters.contains c

def dropStart (p : Char → Bool) (s : List Char) : List Char :=
  s.dropWhile p

def dropEnd (p : Char → Bool) (s : List Char) : List Char :=
  (s.reverse.dropWhile p).reverse

def trim (s : List Char) : List Char :=
  dropEnd isBlank (dropStart isBlank s)

def isBlankText (s : List Char) : Bool :=
  s.all isBlank

end Text
end AssemblerTables
