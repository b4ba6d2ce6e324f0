/-
What a run can write about accepted instructions.

Once the tables are built there is a text in every format: the entries of a table of
accepted instructions are all found.  No escape character stands in any of these texts,
since the patterns have been checked: besides word characters, blanks and commas they have
nothing but surface forms.  So what is printed is what would be written.
-/
import AssemblerTables.Command.Run
import AssemblerTables.Proofs.CSource.Escapes

namespace AssemblerTables

/-! ## Descriptions -/

namespace Pattern

variable {c : Char}

theorem mem_label {opening closing : Char} {name s : List Char}
    (h : c ∈ label opening closing name s) : c ∈ s ∨ c ∈ name := by
  fun_induction label opening closing name s with
  | case1 => exact .inl h
  | case2 => exact .inl h
  | case3 => exact .inl h
  | case4 a b d rest hshape ih =>
      simp only [List.mem_cons, List.mem_append] at h ⊢
      grind
  | case5 a b d rest hshape ih =>
      simp only [List.mem_cons] at h ih ⊢
      grind

/-- A description has the characters of the pattern, and those of the three labels. -/
theorem mem_describeChars {s : List Char} (h : c ∈ describeChars s) :
    c ∈ s ∨ c ∈ ['i', 'm', 'm', 'p', 't', 'r', 'a', 'd', 'r'] := by
  obtain ⟨d, hd, hc⟩ := List.mem_flatMap.mp h
  split at hc
  · simp only [List.mem_cons] at hc ⊢
    grind
  · rw [List.mem_singleton.mp hc]
    rcases mem_label hd with hd | hd
    · rcases mem_label hd with hd | hd
      · exact .inl hd
      · simp only [List.mem_cons] at hd ⊢
        grind
    · simp only [List.mem_cons] at hd ⊢
      grind

theorem plain_describe {pattern : String} (h : Text.Plain pattern) :
    Text.Plain (describe pattern) := by
  intro hmem
  rw [describe, String.toList_ofList] at hmem
  rcases mem_describeChars hmem with hmem | hmem
  · exact h hmem
  · revert hmem
    decide

end Pattern

theorem Mode.plain_surface (m : Mode) : Text.Plain m.surface := by
  cases m <;> decide

theorem Mode.plain_name (m : Mode) : Text.Plain m.name := by
  cases m <;> decide

/-- The pattern of a resolved instruction is made of checked characters. -/
theorem Variant.plain_pattern {i : Instruction} {v : Variant} (h : resolve i = .ok v) :
    Text.Plain i.pattern := by
  intro hmem
  obtain ⟨m, text, hsplit, hoperands⟩ := exists_split?_of_resolve h
  rcases Pattern.mem_of_split? hsplit hmem with hword | hblank | hcomma | ⟨operand, hop, hchar⟩
  · revert hword
    decide
  · revert hblank
    decide
  · revert hcomma
    decide
  · rw [hoperands] at hop
    obtain ⟨mode, -, rfl⟩ := List.mem_map.mp hop
    exact mode.plain_surface hchar

/-! ## Listing -/

namespace Listing

theorem plain_text {is : List Instruction} (h : Tables.Accepted is) :
    Text.Plain (text defaultIndent (ofGroups (Groups.partition is))) := by
  refine Text.plain_unlines fun l hl => ?_
  obtain ⟨e, he, hl⟩ := List.mem_flatMap.mp hl
  obtain ⟨g, hg, rfl⟩ := List.mem_map.mp he
  obtain ⟨m, hm, rfl⟩ := List.mem_map.mp hg
  rcases List.mem_cons.mp hl with rfl | hl
  · have hroot := Text.plain_of_unmarked (Keywords.unmarked_of_mem_roots hm)
    simp +decide only [Text.plain_append, hroot, and_self]
  · obtain ⟨form, hform, rfl⟩ := List.mem_map.mp hl
    obtain ⟨i, hi, rfl⟩ := List.mem_map.mp hform
    obtain ⟨v, hv⟩ := h i (Groups.mem_membersOf.mp hi).1
    have hdescribed := Pattern.plain_describe (Variant.plain_pattern hv)
    simp +decide only [Text.plain_append, hdescribed, and_self]

end Listing

/-! ## Summary -/

namespace Summary

theorem plain_modesText (e : LookupEntry) : Text.Plain (modesText e) := by
  rw [modesText]
  split
  · decide
  · refine Text.plain_intercalate (by decide) fun name hname => ?_
    obtain ⟨m, -, rfl⟩ := List.mem_map.mp hname
    exact m.plain_name

theorem plain_entryLine (place : Nat) {e : LookupEntry} (he : Text.Unmarked e.mnemonic.toList) :
    Text.Plain (entryLine place e) := by
  have hplace := Text.plain_padLeft 3 (Text.plain_toString_nat place)
  have hmnemonic := Text.plain_padRight 6 (Text.plain_of_unmarked he)
  have hcount := Text.plain_padLeft 3 (Text.plain_toString_nat e.count)
  simp +decide only [entryLine, Text.plain_append, CSource.toString_text, hplace, hmnemonic,
    hcount, plain_modesText, and_self]

theorem exists_of_mem_entryLines {l : String} {place : Nat} {entries : List LookupEntry}
    (h : l ∈ entryLines place entries) : ∃ i, ∃ e ∈ entries, l = entryLine i e := by
  induction entries generalizing place with
  | nil => exact absurd h List.not_mem_nil
  | cons e rest ih =>
      rcases List.mem_cons.mp h with rfl | h
      · exact ⟨place, e, List.mem_cons_self, rfl⟩
      · obtain ⟨i, e', he', hl⟩ := ih h
        exact ⟨i, e', List.mem_cons_of_mem _ he', hl⟩

theorem plain_of_mem_totals {t : Tables} (hcount : 0 ≤ t.keywords.mnemonicCount) :
    ∀ l ∈ totals t, Text.Plain l := by
  intro l hl
  simp only [totals, List.mem_cons, List.not_mem_nil, or_false] at hl
  have hint := Text.plain_toString_int hcount
  rcases hl with rfl | rfl | rfl | rfl <;>
    simp +decide only [Text.plain_append, CSource.toString_text, Text.plain_toString_nat, hint,
      and_self]

/-- The summary of tables whose entries are found. -/
def summaryText (t : Tables) : String :=
  Text.unlines (totals t ++ entryLines 0 t.lookup.entries)

theorem text_eq_ok {t : Tables} (ht : t.lookup.IsKeyed) : text t = .ok (summaryText t) := by
  rw [text, ht.values_eq]
  rfl

theorem plain_summaryText {t : Tables} (ht : CSource.Legible t) :
    Text.Plain (summaryText t) := by
  refine Text.plain_unlines fun l hl => ?_
  rcases List.mem_append.mp hl with hl | hl
  · exact plain_of_mem_totals ht.mnemonicCount l hl
  · obtain ⟨i, e, he, rfl⟩ := exists_of_mem_entryLines hl
    exact plain_entryLine i (ht.mnemonics e he)

end Summary

/-! ## Every format -/

namespace Command

/-- The text of tables whose entries are found. -/
def outputText (s : Settings) (t : Tables) : Format → String
  | .c => CSource.sourceText s t
  | .listing => listingText t
  | .summary => Summary.summaryText t

/-- No format fails on tables that have been built. -/
theorem textOf_eq_ok {is : List Instruction} {t : Tables} (h : Tables.build is = .ok t)
    (s : Settings) (f : Format) : textOf s f t = .ok (outputText s t f) := by
  obtain ⟨-, rfl⟩ := Tables.build_eq_ok.mp h
  have hkeyed := (CSource.legible_ofAccepted is).keyed
  cases f with
  | c =>
      rw [textOf, CSource.source_eq_ok s hkeyed]
      rfl
  | listing => rfl
  | summary =>
      rw [textOf, Summary.text_eq_ok hkeyed]
      rfl

/-- No escape character stands in the text, whatever the format. -/
theorem plain_outputText {is : List Instruction} {t : Tables} (h : Tables.build is = .ok t)
    {s : Settings} (hs : s.Usual) (f : Format) : Text.Plain (outputText s t f) := by
  obtain ⟨haccepted, rfl⟩ := Tables.build_eq_ok.mp h
  have hlegible := CSource.legible_ofAccepted is
  cases f with
  | c => exact CSource.plain_sourceText hs hlegible
  | listing => exact Listing.plain_text haccepted
  | summary => exact Summary.plain_summaryText hlegible

theorem outputText_ne_empty (s : Settings) (t : Tables) (f : Format) : outputText s t f ≠ "" := by
  have hlines (ls : List String) : Text.unlines ls ≠ "" := by
    rw [Text.unlines, Ne, String.append_eq_empty_iff]
    exact fun h => absurd h.2 (by decide)
  cases f with
  | c =>
      show CSource.sourceText s t ≠ ""
      rw [CSource.sourceText, String.intercalate_cons_cons, Ne, String.append_eq_empty_iff]
      exact fun h => absurd (String.append_eq_empty_iff.mp h.1).1 (by decide)
  | listing => exact hlines _
  | summary => exact hlines _

end Command
end AssemblerTables
