/-
The C source has no escape characters.

All of it is fixed text, numerals, unmarked words, and names that start with the stem.  A
stem is made of word characters and ends at most with a line feed.
-/
import AssemblerTables.Proofs.CSource.Reading
import AssemblerTables.Proofs.Text.Escapes

namespace AssemblerTables

/-! ## Stems -/

namespace Settings.Usual

variable {s : Settings}

theorem plain_stem (hs : s.Usual) : Text.Plain s.stem := by
  obtain ⟨c, body, tail, hstem, hc, hbody, htail⟩ := exists_of_isStem hs.stem
  intro hmem
  rw [hstem, List.mem_cons, List.mem_append] at hmem
  rcases hmem with rfl | hmem | hmem
  · cases hc
  · exact Text.not_mem_of_isMark hbody (by decide) hmem
  · rcases htail with rfl | rfl
    · cases hmem
    · revert hmem
      decide

theorem plain_upper_stem (hs : s.Usual) : Text.Plain (Text.upper s.stem) := by
  obtain ⟨c, rest, hupper, hc, hrest⟩ := exists_of_upper_stem hs.stem
  intro hmem
  rw [hupper, List.mem_cons] at hmem
  rcases hmem with rfl | hmem
  · cases hc
  · rcases hrest _ hmem with hmark | hfeed
    · cases hmark
    · revert hfeed
      decide

end Settings.Usual

/-! ## C source -/

namespace CSource

open Text (plain_append)

variable {s : Settings}

theorem plain_rowsText (hs : s.Usual) {ws : List String} (hws : ∀ w ∈ ws, Text.Plain w) :
    Text.Plain (rowsText s ws) := by
  intro hmem
  rcases (laid_rowsText hs ws).mem hmem with hblank | hcomma | ⟨w, hw, hchar⟩
  · revert hblank
    decide
  · revert hcomma
    decide
  · exact hws w hw hchar

theorem plain_keywordEnum (hs : s.Usual) {k : Keywords}
    (hk : ∀ w ∈ k.words, Text.Unmarked w.toList) (hcount : 0 ≤ k.mnemonicCount) :
    Text.Plain (keywordEnum s k) := by
  have hrows : Text.Plain (rowsText s (k.identifiers s.keywordStart)) := by
    refine plain_rowsText hs fun w hw => ?_
    obtain ⟨v, hv, rfl⟩ := List.mem_map.mp hw
    exact hs.not_mem_identifier (hk v hv) (by decide) (by decide)
  rw [keywordEnum_eq hs hcount]
  simp +decide only [plain_append, toString_text, hs.plain_stem, hs.plain_upper_stem, hrows,
    Text.plain_toString_nat, and_self]

theorem plain_keywordArray (hs : s.Usual) {k : Keywords}
    (hk : ∀ w ∈ k.words, Text.Unmarked w.toList) : Text.Plain (keywordArray s k) := by
  have hrows : Text.Plain (rowsText s (k.words.map fun w => "\"" ++ w ++ "\"")) := by
    refine plain_rowsText hs fun q hq => ?_
    obtain ⟨w, hw, rfl⟩ := List.mem_map.mp hq
    simp +decide only [plain_append, Text.plain_of_unmarked (hk w hw), and_self]
  rw [keywordArray_eq]
  simp +decide only [plain_append, toString_text, hs.plain_stem, hrows, and_self]

theorem plain_variantLine (hs : s.Usual) {v : Variant}
    (hv : 0 ≤ v.operandCount ∧ 0 ≤ v.wordCount) :
    Text.Plain (indentOf s 3 ++ variantLine v ++ "\n") := by
  have htags : Text.Plain (tagsText v.modes) := by
    cases v.modes with
    | nil => decide
    | cons m rest =>
        have hnames : Text.Plain (String.intercalate ", " ((m :: rest).map Mode.tag)) := by
          refine Text.plain_intercalate (by decide) fun name hname => ?_
          obtain ⟨mode, -, rfl⟩ := List.mem_map.mp hname
          exact Text.plain_of_unmarked mode.unmarked_tag
        simp +decide only [tagsText, plain_append, hnames, and_self]
  rw [variantLine_eq hs hv]
  simp +decide only [plain_append, Text.plain_toString_nat, Text.plain_hex, htags, and_self]

theorem plain_blockText (hs : s.Usual) {e : LookupEntry} (he : Text.Unmarked e.mnemonic.toList)
    (hv : ∀ v ∈ e.variants, 0 ≤ v.operandCount ∧ 0 ≤ v.wordCount) :
    Text.Plain (blockText s e) := by
  have hlines : Text.Plain
      (String.join (e.variants.map fun v => indentOf s 3 ++ variantLine v ++ "\n")) := by
    refine Text.plain_join fun l hl => ?_
    obtain ⟨v, hmem, rfl⟩ := List.mem_map.mp hl
    exact plain_variantLine hs (hv v hmem)
  rw [blockText_eq hs]
  simp +decide only [plain_append, toString_text, Text.plain_of_unmarked he,
    Text.plain_toString_nat, hs.plain_stem, hlines, and_self]

theorem plain_tableText (hs : s.Usual) {t : Tables} (ht : Legible t) :
    Text.Plain (tableText s t.lookup) := by
  have hblocks : Text.Plain (String.join (t.lookup.entries.map (blockText s))) := by
    refine Text.plain_join fun b hb => ?_
    obtain ⟨e, he, rfl⟩ := List.mem_map.mp hb
    exact plain_blockText hs (ht.mnemonics e he) (ht.variants e he)
  rw [tableText_eq]
  simp +decide only [plain_append, toString_text, Text.plain_toString_nat, hs.plain_stem,
    hblocks, and_self]

theorem plain_modeDefines : Text.Plain modeDefines := by
  refine Text.plain_unlines fun l hl => ?_
  obtain ⟨m, -, rfl⟩ := List.mem_map.mp hl
  have htag := Text.plain_padRight (Columns.width (Mode.all.map Mode.tag))
    (Text.plain_of_unmarked m.unmarked_tag)
  simp +decide only [modeDefine, plain_append, htag, Text.plain_hex, and_self]

theorem plain_sourceText (hs : s.Usual) {t : Tables} (ht : Legible t) :
    Text.Plain (sourceText s t) := by
  refine Text.plain_intercalate (by decide) fun part hpart => ?_
  simp only [List.mem_cons, List.not_mem_nil, or_false] at hpart
  rcases hpart with rfl | rfl | rfl | rfl | rfl
  · decide
  · exact plain_modeDefines
  · exact plain_keywordEnum hs ht.words ht.mnemonicCount
  · exact plain_keywordArray hs ht.words
  · exact plain_tableText hs ht

end CSource

end AssemblerTables
