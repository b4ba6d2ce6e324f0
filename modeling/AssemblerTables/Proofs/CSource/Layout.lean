/-
Lists in braces.

Keywords are laid out in rows of padded columns.  To a reader of C the rows are blanks
between items that have a comma behind each, whatever the width of the rows and of the
columns, and the items are what `listed` finds.  The names of modes stand on one line
with commas between them and are found in the same way.
-/
import AssemblerTables.Proofs.Columns
import AssemblerTables.Proofs.CSource.Document
import AssemblerTables.Proofs.Mode
import AssemblerTables.Proofs.Settings
import AssemblerTables.Proofs.Text.Lines

namespace AssemblerTables

namespace CSource

/-- Can the text be an item of a list in braces?  It has neither a comma nor a closing
brace in it and no blank at its ends. -/
structure IsItem (w : String) : Prop where
  comma : ',' ∉ w.toList
  brace : '}' ∉ w.toList
  trim : Text.trim w.toList = w.toList

/-! ## Items with a comma behind each -/

/-- Items with a comma behind each, blanks before each and blanks behind the last. -/
inductive Laid : List String → List Char → Prop where
  | nil {b : List Char} (hb : ∀ c ∈ b, Text.isBlank c = true) : Laid [] b
  | cons {b t : List Char} {w : String} {ws : List String}
      (hb : ∀ c ∈ b, Text.isBlank c = true) (h : Laid ws t) :
      Laid (w :: ws) (b ++ (w.toList ++ ',' :: t))

namespace Laid

variable {ws vs : List String} {t u : List Char}

theorem blank_append {b : List Char} (hb : ∀ c ∈ b, Text.isBlank c = true) (h : Laid ws t) :
    Laid ws (b ++ t) := by
  have hboth (b' : List Char) (hb' : ∀ c ∈ b', Text.isBlank c = true) :
      ∀ c ∈ b ++ b', Text.isBlank c = true := by
    intro c hc
    rcases List.mem_append.mp hc with hc | hc
    · exact hb c hc
    · exact hb' c hc
  cases h with
  | nil hb' => exact nil (hboth _ hb')
  | cons hb' h =>
      rw [← List.append_assoc]
      exact cons (hboth _ hb') h

theorem append (h : Laid ws t) (h' : Laid vs u) : Laid (ws ++ vs) (t ++ u) := by
  induction h with
  | nil hb => exact h'.blank_append hb
  | cons hb _ ih =>
      rw [List.append_assoc, List.append_assoc]
      exact cons hb ih

/-- Blanks behind the last item do not count. -/
theorem dropEnd (h : Laid ws t) : Laid ws (Text.dropEnd Text.isBlank t) := by
  induction h with
  | nil hb =>
      rw [Text.dropEnd_eq_nil hb]
      exact nil fun c hc => absurd hc List.not_mem_nil
  | @cons b t w ws hb h ih =>
      rw [← List.append_assoc, Text.dropEnd_append_cons (by decide), List.append_assoc]
      exact cons hb ih

theorem mem (h : Laid ws t) {c : Char} (hc : c ∈ t) :
    Text.isBlank c = true ∨ c = ',' ∨ ∃ w ∈ ws, c ∈ w.toList := by
  induction h with
  | nil hb => exact .inl (hb c hc)
  | cons hb _ ih =>
      rw [List.mem_append, List.mem_append, List.mem_cons] at hc
      rcases hc with hc | hc | hc | hc
      · exact .inl (hb c hc)
      · exact .inr (.inr ⟨_, List.mem_cons_self, hc⟩)
      · exact .inr (.inl hc)
      · rcases ih hc with hblank | hcomma | ⟨w, hw, hmem⟩
        · exact .inl hblank
        · exact .inr (.inl hcomma)
        · exact .inr (.inr ⟨w, List.mem_cons_of_mem _ hw, hmem⟩)

end Laid

/-! ## Rows -/

theorem laid_padRight (n : Nat) (w : String) :
    Laid [w] (Text.padRight n (w ++ ",")).toList := by
  have hpad : ∀ c ∈ List.replicate (n - (w ++ ",").length) ' ', Text.isBlank c = true := by
    intro c hc
    rw [List.eq_of_mem_replicate hc]
    decide
  have htext : (Text.padRight n (w ++ ",")).toList =
      [] ++ (w.toList ++ ',' :: List.replicate (n - (w ++ ",").length) ' ') := by
    simp [Text.padRight]
  rw [htext]
  exact .cons (fun c hc => absurd hc List.not_mem_nil) (.nil hpad)

theorem laid_join (n : Nat) (row : List String) :
    Laid row (String.join ((row.map (· ++ ",")).map (Text.padRight n))).toList := by
  induction row with
  | nil => exact .nil fun c hc => absurd hc List.not_mem_nil
  | cons w rest ih =>
      rw [List.map_cons, List.map_cons, String.join_cons, String.toList_append]
      exact (laid_padRight n w).append ih

theorem laid_line {indent : String} (hindent : ∀ c ∈ indent.toList, Text.isBlank c = true)
    (n : Nat) (row : List String) :
    Laid row (Columns.line n indent (row.map (· ++ ",")) ++ "\n").toList := by
  have hfeed : Laid [] "\n".toList := .nil (by decide)
  have hline := ((laid_join n row).dropEnd.blank_append hindent).append hfeed
  rw [List.append_nil] at hline
  rw [Columns.line, String.toList_append, String.toList_append, String.toList_ofList]
  exact hline

/-- Rows one under the other, however they are cut. -/
theorem laid_lines {indent : String} (hindent : ∀ c ∈ indent.toList, Text.isBlank c = true)
    {perRow : Nat} (hperRow : 1 ≤ perRow) (ws : List String) :
    Laid ws (String.join
      ((Columns.lines (ws.map (· ++ ",")) perRow indent).map (· ++ "\n"))).toList := by
  rw [Columns.lines]
  generalize Columns.width (ws.map (· ++ ",")) = n
  induction ws using Columns.rows_induction hperRow with
  | nil => exact .nil fun c hc => absurd hc List.not_mem_nil
  | row ws hne ih =>
      have hitems : ws.map (· ++ ",") ≠ [] := fun h => hne (List.map_eq_nil_iff.mp h)
      have hlaid := (laid_line hindent n (ws.take perRow)).append ih
      rw [List.take_append_drop] at hlaid
      rw [Columns.rows_of_ne_nil hperRow hitems, ← List.map_take, ← List.map_drop, List.map_cons,
        List.map_cons, String.join_cons, String.toList_append]
      exact hlaid

/-! ## What is listed -/

section Listed

variable {ws : List String}

/-- The pieces of items that are laid out, the one behind the last comma too. -/
theorem pieces_of_laid {t : List Char} (h : Laid ws t) (hws : ∀ w ∈ ws, IsItem w) :
    (Text.pieces ',' t).map (fun item => String.ofList (Text.trim item)) = ws ++ [""] := by
  have hblank {b : List Char} (hb : ∀ c ∈ b, Text.isBlank c = true) : ',' ∉ b := by
    intro hmem
    have hcomma : Text.isBlank ',' = false := by decide
    rw [hb ',' hmem] at hcomma
    cases hcomma
  induction h with
  | nil hb =>
      rw [Text.pieces_eq_singleton (hblank hb), List.map_singleton, Text.trim_eq_nil hb]
      rfl
  | @cons b t w ws hb _ ih =>
      have hw := hws w List.mem_cons_self
      have hcomma : ',' ∉ b ++ w.toList := by
        rw [List.mem_append, not_or]
        exact ⟨hblank hb, hw.comma⟩
      rw [← List.append_assoc, Text.pieces_append hcomma, List.map_cons, Text.trim_append hb,
        hw.trim, String.ofList_toList, ih fun v hv => hws v (List.mem_cons_of_mem _ hv)]
      rfl

/-- Items that are laid out are listed. -/
theorem listed_of_laid {body : String} (h : Laid ws body.toList) (hws : ∀ w ∈ ws, IsItem w) :
    listed body = ws := by
  simp only [listed, pieces_of_laid h hws, List.getLast?_concat, if_true, List.dropLast_concat]

/-- No brace closes the list before its end. -/
theorem brace_not_mem_of_laid {body : String} (h : Laid ws body.toList)
    (hws : ∀ w ∈ ws, IsItem w) : '}' ∉ body.toList := by
  intro hmem
  rcases h.mem hmem with hblank | hcomma | ⟨w, hw, hc⟩
  · revert hblank
    decide
  · revert hcomma
    decide
  · exact (hws w hw).brace hc

theorem pieces_intercalate (hne : ws ≠ []) (hws : ∀ w ∈ ws, IsItem w) {b : List Char}
    (hb : ∀ c ∈ b, c = ' ') :
    (Text.pieces ',' (b ++ (String.intercalate ", " ws).toList)).map
      (fun item => String.ofList (Text.trim item)) = ws := by
  have hblank {b : List Char} (hb : ∀ c ∈ b, c = ' ') : ∀ c ∈ b, Text.isBlank c = true := by
    intro c hc
    rw [hb c hc]
    decide
  have hcomma {b : List Char} (hb : ∀ c ∈ b, c = ' ') {w : String} (hw : IsItem w) :
      ',' ∉ b ++ w.toList := by
    rw [List.mem_append, not_or]
    refine ⟨fun hmem => ?_, hw.comma⟩
    have hspace := hb ',' hmem
    revert hspace
    decide
  induction ws generalizing b with
  | nil => exact absurd rfl hne
  | cons w rest ih =>
      have hw := hws w List.mem_cons_self
      cases rest with
      | nil =>
          rw [String.intercalate_singleton, Text.pieces_eq_singleton (hcomma hb hw),
            List.map_singleton, Text.trim_append (hblank hb), hw.trim, String.ofList_toList]
      | cons v others =>
          have htext : b ++ (String.intercalate ", " (w :: v :: others)).toList =
              (b ++ w.toList) ++
                ',' :: ([' '] ++ (String.intercalate ", " (v :: others)).toList) := by
            rw [String.intercalate_cons_cons, String.toList_append, String.toList_append]
            simp
          have hrest := ih (List.cons_ne_nil _ _)
            (fun u hu => hws u (List.mem_cons_of_mem _ hu)) (b := [' ']) (by simp)
          rw [htext, Text.pieces_append (hcomma hb hw), List.map_cons, hrest,
            Text.trim_append (hblank hb), hw.trim, String.ofList_toList]

/-- Items on one line are listed, none of them empty. -/
theorem listed_intercalate (hne : ws ≠ []) (hws : ∀ w ∈ ws, IsItem w) (hempty : "" ∉ ws) :
    listed (String.intercalate ", " ws) = ws := by
  have hpieces := pieces_intercalate hne hws (b := []) (by simp)
  rw [List.nil_append] at hpieces
  have hlast : ws.getLast? ≠ some "" := fun h => hempty (List.mem_of_getLast? h)
  simp only [listed, hpieces, if_neg hlast]

theorem brace_not_mem_intercalate (hws : ∀ w ∈ ws, IsItem w) :
    '}' ∉ (String.intercalate ", " ws).toList := by
  induction ws with
  | nil => simp
  | cons w rest ih =>
      have hw := hws w List.mem_cons_self
      cases rest with
      | nil =>
          rw [String.intercalate_singleton]
          exact hw.brace
      | cons v others =>
          have hrest := ih fun u hu => hws u (List.mem_cons_of_mem _ hu)
          rw [String.intercalate_cons_cons, String.toList_append, String.toList_append,
            List.mem_append, List.mem_append]
          rintro ((hmem | hmem) | hmem)
          · exact hw.brace hmem
          · revert hmem
            decide
          · exact hrest hmem

end Listed

/-! ## Items of the source -/

/-- A keyword in quotes. -/
theorem isItem_quoted {w : String} (hw : Text.Unmarked w.toList) : IsItem ("\"" ++ w ++ "\"") := by
  have htext : ("\"" ++ w ++ "\"").toList = '"' :: w.toList ++ ['"'] := by
    rw [String.toList_append, String.toList_append]
    rfl
  constructor
  · rw [htext]
    simpa using Text.not_mem_of_isMark hw (by decide)
  · rw [htext]
    simpa using Text.not_mem_of_isMark hw (by decide)
  · rw [htext]
    exact Text.trim_between (by decide) (by decide) (by simp)

theorem unquote?_quoted (w : String) : unquote? ("\"" ++ w ++ "\"") = some w := by
  have htext : ("\"" ++ w ++ "\"").toList = '"' :: (w.toList ++ ['"']) := by
    rw [String.toList_append, String.toList_append]
    rfl
  simp only [unquote?, htext, List.getLast?_concat, if_true, List.dropLast_concat,
    String.ofList_toList]

theorem isItem_identifier {s : Settings} (hs : s.Usual) {w : String}
    (hw : Text.Unmarked w.toList) : IsItem (s.keywordStart ++ Text.upper w) :=
  { comma := hs.not_mem_identifier hw (by decide) (by decide),
    brace := hs.not_mem_identifier hw (by decide) (by decide),
    trim := hs.trim_identifier hw }

theorem isItem_tag (m : Mode) : IsItem m.tag :=
  { comma := Text.not_mem_of_isMark m.unmarked_tag (by decide),
    brace := Text.not_mem_of_isMark m.unmarked_tag (by decide),
    trim := Text.trim_of_unmarked m.unmarked_tag }

end CSource
end AssemblerTables
