/-
Text cut at a separator.
-/

namespace AssemblerTables
namespace Text

/-- The pieces between the separators, one more than there are separators. -/
def pieces (separator : Char) : List Char → List (List Char)
  | [] => [[]]
  | c :: rest =>
    if c = separator then [] :: pieces separator rest
    else
      match pieces separator rest with
      | [] => [[c]]
      | piece :: others => (c :: piece) :: others

end Text
end AssemblerTables
