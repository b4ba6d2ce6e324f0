/-
Texts taken apart into lines, and lines into fields.

A text is cut at its line feeds, and what stands behind the last one is a line only if it is
not empty.  So lines that were written with a line feed behind each are found again, if they
have none in them; otherwise each line feed in them makes one line more.

A line is cut at its blanks, and rows of blanks count as one.  Fields are found again whatever
the number of blanks between them and around them.
-/
import AssemblerTables.Proofs.Text.Pieces
import AssemblerTables.Text.Lines
import AssemblerTables.Text.Padded

namespace AssemblerTables
namespace Text

/-! ## Lines -/

def lines (s : String) : List String :=
  let cuts := (pieces '\n' s.toList).map String.ofList
  if cuts.getLast? = some "" then cuts.dropLast else cuts

/-- Lines are texts with a line feed behind each. -/
theorem unlines_eq_join {ls : List String} (h : ls ≠ []) :
    unlines ls = String.join (ls.map (· ++ "\n")) := by
  induction ls with
  | nil => exact absurd rfl h
  | cons l rest ih =>
      cases rest with
      | nil => rw [unlines, String.intercalate_singleton, List.map_singleton,
          String.join_cons, String.join_nil, String.append_empty]
      | cons l' others =>
          rw [unlines] at ih
          rw [unlines, String.intercalate_cons_cons, String.append_assoc,
            ih (List.cons_ne_nil _ _), List.map_cons (l := l' :: others), String.join_cons]

/-- A text put together has the characters of its parts and those between them. -/
theorem forall_mem_intercalate {p : Char → Prop} {separator : String} {l : List String}
    (hseparator : ∀ c ∈ separator.toList, p c) (h : ∀ s ∈ l, ∀ c ∈ s.toList, p c) :
    ∀ c ∈ (String.intercalate separator l).toList, p c := by
  induction l with
  | nil => exact fun c hc => absurd hc List.not_mem_nil
  | cons s rest ih =>
      rw [List.forall_mem_cons] at h
      have hrest := ih h.2
      cases rest with
      | nil =>
          rw [String.intercalate_singleton]
          exact h.1
      | cons t others =>
          rw [String.intercalate_cons_cons, String.toList_append, String.toList_append,
            List.forall_mem_append, List.forall_mem_append]
          exact ⟨⟨h.1, hseparator⟩, hrest⟩

theorem pieces_concat (separator : Char) (s : List Char) :
    pieces separator (s ++ [separator]) = pieces separator s ++ [[]] := by
  induction s using pieces_induction with
  | last s hs => rw [pieces_append hs, pieces_eq_singleton hs]; rfl
  | cut first rest hfirst ih =>
      rw [List.append_assoc, List.cons_append, pieces_append hfirst, ih, pieces_append hfirst,
        List.cons_append]

/-- A line feed at the end of a text ends its last line and starts no other. -/
theorem lines_append_end (s : String) :
    lines (s ++ "\n") = (pieces '\n' s.toList).map String.ofList := by
  have hcuts : (pieces '\n' (s ++ "\n").toList).map String.ofList =
      (pieces '\n' s.toList).map String.ofList ++ [""] := by
    rw [String.toList_append]
    show (pieces '\n' (s.toList ++ ['\n'])).map String.ofList = _
    rw [pieces_concat, List.map_append]
    rfl
  rw [lines, hcuts, if_pos List.getLast?_concat, List.dropLast_concat]

variable {ls : List String}

/-- Lines are found again. -/
theorem lines_unlines (hne : ls ≠ []) (h : ∀ l ∈ ls, '\n' ∉ l.toList) :
    lines (unlines ls) = ls := by
  rw [unlines, lines_append_end, pieces_joined rfl hne h, map_ofList_map_toList]

/-- Each line feed in a line makes one line more. -/
theorem length_lines_unlines (hne : ls ≠ []) :
    (lines (unlines ls)).length = ls.length + (ls.flatMap String.toList).count '\n' := by
  have hcount : (lines (unlines ls)).length = (unlines ls).toList.count '\n' := by
    rw [unlines, lines_append_end, List.length_map, length_pieces, String.toList_append,
      List.count_append]
    rfl
  have hends (l : String) : (l ++ "\n").toList.count '\n' = l.toList.count '\n' + 1 := by
    rw [String.toList_append, List.count_append]
    rfl
  rw [hcount, unlines_eq_join hne, String.toList_join]
  clear hcount hne
  induction ls with
  | nil => rfl
  | cons l rest ih =>
      rw [List.map_cons, List.flatMap_cons, List.count_append, ih, hends, List.length_cons,
        List.flatMap_cons, List.count_append]
      omega

theorem not_mem_of_mem_lines {s l : String} (h : l ∈ lines s) : '\n' ∉ l.toList := by
  have hcut : l ∈ (pieces '\n' s.toList).map String.ofList := by
    rw [lines] at h
    split at h
    · exact List.dropLast_subset _ h
    · exact h
  obtain ⟨piece, hpiece, rfl⟩ := List.mem_map.mp hcut
  rw [String.toList_ofList]
  exact not_mem_of_mem_pieces hpiece

/-! ## Fields -/

/-- The runs of characters between blanks. -/
def runsBetween (s : List Char) : List (List Char) :=
  (s.splitOnP isBlank).filter fun run => !run.isEmpty

def fields (s : String) : List String :=
  (runsBetween s.toList).map String.ofList

/-- Is a text a field as it stands? -/
structure IsField (w : String) : Prop where
  ne_nil : w.toList ≠ []
  nonblank : ∀ c ∈ w.toList, isBlank c = false

section Runs

variable {s b : List Char} {c : Char}

/-- A blank ends a run. -/
theorem runsBetween_append_cons (s t : List Char) (hc : isBlank c = true) :
    runsBetween (s ++ c :: t) = runsBetween s ++ runsBetween t := by
  rw [runsBetween, List.splitOnP_append_cons s t hc, List.filter_append]
  rfl

theorem runsBetween_blanks_append (hb : ∀ c ∈ b, isBlank c = true) (s : List Char) :
    runsBetween (b ++ s) = runsBetween s := by
  induction b with
  | nil => rfl
  | cons c rest ih =>
      have hc := runsBetween_append_cons [] (rest ++ s) (hb c List.mem_cons_self)
      rw [List.cons_append, ← ih fun d hd => hb d (List.mem_cons_of_mem _ hd)]
      exact hc

/-- The runs have all that is not blank. -/
theorem flatten_runsBetween (s : List Char) :
    (runsBetween s).flatten = s.filter fun c => !isBlank c := by
  rw [runsBetween, List.flatten_filter_not_isEmpty]
  induction s with
  | nil => rfl
  | cons c rest ih =>
      rw [List.splitOnP_cons_eq_if_modifyHead]
      cases hc : isBlank c with
      | true => simpa [hc] using ih
      | false =>
          cases hcuts : rest.splitOnP isBlank with
          | nil => exact absurd hcuts (List.splitOnP_ne_nil _ _)
          | cons piece others =>
              rw [hcuts] at ih
              simpa [hc] using ih

end Runs

section Fields

variable {s t w b : String} {ws vs : List String}

theorem IsField.fields_eq (h : IsField w) : fields w = [w] := by
  have hfull : (!w.toList.isEmpty) = true := by simpa using h.ne_nil
  rw [fields, runsBetween, List.splitOnP_eq_singleton h.nonblank,
    List.filter_cons_of_pos (p := fun run : List Char => !run.isEmpty) hfull, List.filter_nil,
    List.map_singleton, String.ofList_toList]

theorem isField_of_unmarked (hne : w.toList ≠ []) (h : Unmarked w.toList) : IsField w :=
  { ne_nil := hne, nonblank := fun _ hc => isBlank_of_unmarked h hc }

/-- Blanks end a field. -/
theorem fields_append (s t : String) (hne : b ≠ "") (hb : ∀ c ∈ b.toList, isBlank c = true) :
    fields (s ++ (b ++ t)) = fields s ++ fields t := by
  cases hlist : b.toList with
  | nil => exact absurd (String.toList_eq_nil_iff.mp hlist) hne
  | cons c rest =>
      rw [hlist, List.forall_mem_cons] at hb
      rw [fields, String.toList_append, String.toList_append, hlist, List.cons_append,
        runsBetween_append_cons _ _ hb.1, runsBetween_blanks_append hb.2, List.map_append]
      rfl

theorem fields_blanks_append (hb : ∀ c ∈ b.toList, isBlank c = true) (t : String) :
    fields (b ++ t) = fields t := by
  rw [fields, String.toList_append, runsBetween_blanks_append hb, fields]

/-- Fields are what is not blank. -/
theorem flatMap_fields (s : String) :
    (fields s).flatMap String.toList = s.toList.filter fun c => !isBlank c := by
  have hsame : (String.toList ∘ String.ofList) = id := funext fun _ => String.toList_ofList
  rw [fields, List.flatMap_def, List.map_map, hsame, List.map_id, flatten_runsBetween]

/-! ## Fields with spaces between them -/

/-- Has the text the fields `ws`, and spaces for all its blanks? -/
structure IsSpaced (s : String) (ws : List String) : Prop where
  fields_eq : fields s = ws
  spaces : ∀ c ∈ s.toList, isBlank c = true → c = ' '

/-- Is the text made of spaces? -/
def IsSpaces (b : String) : Prop :=
  ∀ c ∈ b.toList, c = ' '

instance (b : String) : Decidable (IsSpaces b) :=
  inferInstanceAs (Decidable (∀ c ∈ b.toList, c = ' '))

theorem isSpaces_padding (n : Nat) : IsSpaces (String.ofList (List.replicate n ' ')) := by
  intro c hc
  rw [String.toList_ofList] at hc
  exact List.eq_of_mem_replicate hc

theorem IsSpaces.blank (h : IsSpaces b) : ∀ c ∈ b.toList, isBlank c = true := by
  intro c hc
  rw [h c hc]
  decide

theorem IsField.isSpaced (h : IsField w) : IsSpaced w [w] where
  fields_eq := h.fields_eq
  spaces c hc hblank := by
    rw [h.nonblank c hc] at hblank
    cases hblank

theorem IsSpaces.isSpaced (h : IsSpaces b) : IsSpaced b [] where
  fields_eq := by
    rw [← String.append_empty (s := b), fields_blanks_append h.blank]
    rfl
  spaces c hc _ := h c hc

theorem IsSpaced.append (hs : IsSpaced s ws) (hne : b ≠ "") (hb : IsSpaces b)
    (ht : IsSpaced t vs) : IsSpaced (s ++ (b ++ t)) (ws ++ vs) where
  fields_eq := by rw [fields_append s t hne hb.blank, hs.fields_eq, ht.fields_eq]
  spaces c hc hblank := by
    rw [String.toList_append, String.toList_append, List.mem_append, List.mem_append] at hc
    rcases hc with hc | hc | hc
    · exact hs.spaces c hc hblank
    · exact hb c hc
    · exact ht.spaces c hc hblank

theorem isSpaced_empty : IsSpaced "" [] :=
  (show IsSpaces "" by decide).isSpaced

theorem IsSpaced.indent (hb : IsSpaces b) (hs : IsSpaced s ws) : IsSpaced (b ++ s) ws := by
  by_cases hne : b = ""
  · rw [hne, String.empty_append]
    exact hs
  · exact isSpaced_empty.append hne hb hs

theorem IsSpaced.padLeft (n : Nat) (hs : IsSpaced s ws) : IsSpaced (padLeft n s) ws :=
  hs.indent (isSpaces_padding _)

theorem IsSpaced.padRight (n : Nat) (hs : IsSpaced s ws) : IsSpaced (padRight n s) ws := by
  rw [Text.padRight]
  by_cases hne : String.ofList (List.replicate (n - s.length) ' ') = ""
  · rw [hne, String.append_empty]
    exact hs
  · have hpadded := hs.append hne (isSpaces_padding _) isSpaced_empty
    rwa [String.append_empty, List.append_nil] at hpadded

theorem IsSpaced.feed_not_mem (h : IsSpaced s ws) : '\n' ∉ s.toList := by
  intro hmem
  exact absurd (h.spaces '\n' hmem (by decide)) (by decide)

end Fields

end Text
end AssemblerTables
