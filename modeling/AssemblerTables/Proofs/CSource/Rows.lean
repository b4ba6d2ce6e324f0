/-
The keywords have the same places in the array and in the enumeration.

Both are laid out in rows, in columns of different widths, since an identifier is longer than
its keyword.  The rows are cut by number and not by length, so row and column of a keyword are
told by its place in the table alone.  That holds of tables made by hand too, whatever texts
they have for keywords: an item ends in a comma, and nothing else about it counts.
-/
import AssemblerTables.CSource
import AssemblerTables.Proofs.Columns

namespace AssemblerTables
namespace CSource

/-! ## Items -/

/-- The items of the array of strings. -/
def arrayItems (k : Keywords) : List String :=
  k.words.map fun w => "\"" ++ w ++ "\","

/-- The items of the enumeration. -/
def enumItems (s : Settings) (k : Keywords) : List String :=
  (k.identifiers s.keywordStart).map (· ++ ",")

/-- The rows stand in a text behind two lines of their own. -/
def HasRows (text : String) (rows : List String) : Prop :=
  ∃ first second after, text = Text.unlines ([first, second] ++ rows ++ after)

variable (s : Settings) (k : Keywords)

theorem endsInComma_append (w : String) : Columns.EndsInComma (w ++ ",") := by
  have hcomma : (w ++ ",").toList = w.toList ++ [','] := String.toList_append
  rw [Columns.EndsInComma, hcomma, List.getLast?_concat]

theorem endsInComma_arrayItems : ∀ item ∈ arrayItems k, Columns.EndsInComma item := by
  intro item hitem
  obtain ⟨w, -, rfl⟩ := List.mem_map.mp hitem
  have hclosing : "\"," = "\"" ++ "," := by decide
  rw [hclosing, ← String.append_assoc]
  exact endsInComma_append _

theorem endsInComma_enumItems : ∀ item ∈ enumItems s k, Columns.EndsInComma item := by
  intro item hitem
  obtain ⟨w, -, rfl⟩ := List.mem_map.mp hitem
  exact endsInComma_append w

theorem hasRows_keywordArray :
    HasRows (keywordArray s k) (Columns.lines (arrayItems k) s.keywordsPerRow s.indent) :=
  ⟨_, _, _, rfl⟩

theorem hasRows_keywordEnum :
    HasRows (keywordEnum s k) (Columns.lines (enumItems s k) s.keywordsPerRow s.indent) :=
  ⟨_, _, _, rfl⟩

variable {s k}

theorem getElem?_arrayItems {i : Nat} {w : String} (h : k.words[i]? = some w) :
    (arrayItems k)[i]? = some ("\"" ++ w ++ "\",") := by
  rw [arrayItems, List.getElem?_map, h]
  rfl

theorem getElem?_enumItems {i : Nat} {w : String} (h : k.words[i]? = some w) :
    (enumItems s k)[i]? = some (s.keywordStart ++ Text.upper w ++ ",") := by
  rw [enumItems, List.getElem?_map, Keywords.identifiers, List.getElem?_map, h]
  rfl

theorem length_items : (arrayItems k).length = (enumItems s k).length := by
  rw [arrayItems, enumItems, Keywords.identifiers, List.length_map, List.length_map,
    List.length_map]

/-- Items that end in commas are laid out in rows from which they can be read back: none is
lost, repeated or moved.  So the array of strings and the enumeration of a table of any
keywords have the same number of rows, and each keyword stands in the same row of both and at
the same place in it. -/
theorem columns_keep_places {items : List String} (hitems : ∀ w ∈ items, Columns.EndsInComma w)
    {perRow : Nat} (hperRow : 1 ≤ perRow) (indent : String) :
    Columns.IsLaidOut items perRow (Columns.width items) indent
        (Columns.lines items perRow indent) ∧
      ∀ (s : Settings) (k : Keywords), 1 ≤ s.keywordsPerRow →
        ∃ strings names, HasRows (keywordArray s k) strings ∧ HasRows (keywordEnum s k) names ∧
          Columns.IsLaidOut (arrayItems k) s.keywordsPerRow (Columns.width (arrayItems k))
            s.indent strings ∧
          Columns.IsLaidOut (enumItems s k) s.keywordsPerRow (Columns.width (enumItems s k))
            s.indent names ∧
          strings.length = names.length ∧
          ∀ i w, k.words[i]? = some w → ∃ l l',
            strings[i / s.keywordsPerRow]? = some l ∧ names[i / s.keywordsPerRow]? = some l' ∧
              Columns.StandsAt (Columns.width (arrayItems k)) s.indent l (i % s.keywordsPerRow)
                ("\"" ++ w ++ "\",") ∧
              Columns.StandsAt (Columns.width (enumItems s k)) s.indent l' (i % s.keywordsPerRow)
                (s.keywordStart ++ Text.upper w ++ ",") := by
  refine ⟨Columns.isLaidOut_lines hitems hperRow indent, fun s k hs => ?_⟩
  have hstrings := Columns.isLaidOut_lines (endsInComma_arrayItems k) hs s.indent
  have hnames := Columns.isLaidOut_lines (endsInComma_enumItems s k) hs s.indent
  refine ⟨_, _, hasRows_keywordArray s k, hasRows_keywordEnum s k, hstrings, hnames, ?_,
    fun i w hi => ?_⟩
  · rw [hstrings.count, hnames.count, length_items]
  · obtain ⟨l, hl, hstring⟩ := hstrings.places i _ (getElem?_arrayItems hi)
    obtain ⟨l', hl', hname⟩ := hnames.places i _ (getElem?_enumItems hi)
    exact ⟨l, l', hl, hl', hstring, hname⟩

/-- Items with blanks inside, one of them nothing but its comma. -/
def ragged : List String := ["a ,", ",", "  bc,"]

/-- Keywords as no instruction set has them. -/
def handMade : Keywords := { words := ["x y", "", "ß\n,"], mnemonicCount := -1 }

theorem columns_keep_places_ragged :
    (∀ w ∈ ragged, Columns.EndsInComma w) ∧
      Columns.IsLaidOut ragged 2 6 "> " ["> a ,   ,", ">   bc,"] ∧
      ∃ strings names, HasRows (keywordArray { keywordsPerRow := 2 } handMade) strings ∧
        HasRows (keywordEnum { keywordsPerRow := 2 } handMade) names ∧
        ∃ l l', strings[1]? = some l ∧ names[1]? = some l' ∧
          Columns.StandsAt 7 "\t" l 0 "\"ß\n,\"," ∧
          Columns.StandsAt 14 "\t" l' 0 "R3_KEYW_SS\n,," := by
  have hitems : ∀ w ∈ ragged, Columns.EndsInComma w := by decide
  have hlines : Columns.lines ragged 2 "> " = ["> a ,   ,", ">   bc,"] := by decide +kernel
  have hrow : 1 ≤ ({ keywordsPerRow := 2 } : Settings).keywordsPerRow := by decide
  obtain ⟨hlaid, htables⟩ := columns_keep_places hitems (show 1 ≤ 2 by decide) "> "
  obtain ⟨strings, names, hstrings, hnames, -, -, -, hplaces⟩ := htables _ handMade hrow
  exact ⟨hitems, hlines ▸ hlaid, strings, names, hstrings, hnames, hplaces 2 _ rfl⟩

end CSource
end AssemblerTables
