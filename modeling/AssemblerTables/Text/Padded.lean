/-
Text padded to a width.  Widths count characters.  A text that is already as
wide as asked for stays as it is.
-/

namespace AssemblerTables
namespace Text

def padRight (width : Nat) (s : String) : String :=
  s ++ String.ofList (List.replicate (width - s.length) ' ')

def padLeft (width : Nat) (s : String) : String :=
  String.ofList (List.replicate (width - s.length) ' ') ++ s

end Text
end AssemblerTables
