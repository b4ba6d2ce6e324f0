/-
Items laid out in columns: a fixed number to a row, all padded to one width, rows
without blanks at the end.
-/
import AssemblerTables.Text.Blank
import AssemblerTables.Text.Padded

namespace AssemblerTables
namespace Columns

/-- The items cut into rows, at most `fuel` of them.  As many rows as there are items
are always enough. -/
def cut {α : Type} (perRow : Nat) : Nat → List α → List (List α)
  | 0, _ => []
  | _, [] => []
  | fuel + 1, items => items.take perRow :: cut perRow fuel (items.drop perRow)

/-- The rows of the items.  The last may be shorter than the others. -/
def rows {α : Type} (perRow : Nat) (items : List α) : List (List α) :=
  cut perRow items.length items

/-- The width of a column: one blank more than the widest item. -/
def width (items : List String) : Nat :=
  (items.map String.length).foldl max 0 + 1

/-- A row as a line: the padded items without the blanks behind the last. -/
def line (width : Nat) (indent : String) (row : List String) : String :=
  let padded := String.join (row.map (Text.padRight width))
  indent ++ String.ofList (Text.dropEnd Text.isBlank padded.toList)

def lines (items : List String) (perRow : Nat) (indent : String) : List String :=
  (rows perRow items).map (line (width items) indent)

end Columns
end AssemblerTables
