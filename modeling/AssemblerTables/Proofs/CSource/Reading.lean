/-
The generated source read back.

`read?` finds in the source of tables exactly the document of the tables, for all
settings that a command line can lead to.  The text is read part by part, and every part
in the way in which it is written.
-/
import AssemblerTables.Proofs.CSource.Layout
import AssemblerTables.Proofs.Tables

namespace AssemblerTables
namespace CSource

open Text (Reading)
open Text.Reading

/-- The texts and numbers of tables that can be read back. -/
structure Legible (t : Tables) : Prop where
  words : ∀ w ∈ t.keywords.words, Text.Unmarked w.toList
  mnemonicCount : 0 ≤ t.keywords.mnemonicCount
  mnemonics : ∀ e ∈ t.lookup.entries, Text.Unmarked e.mnemonic.toList
  variants : ∀ e ∈ t.lookup.entries, ∀ v ∈ e.variants, 0 ≤ v.operandCount ∧ 0 ≤ v.wordCount
  keyed : t.lookup.IsKeyed

theorem legible_ofAccepted (is : List Instruction) : Legible (Tables.ofAccepted is) := by
  refine ⟨fun w hw => Keywords.unmarked_of_mem_words hw, Int.natCast_nonneg _, ?_, ?_,
    Lookup.isKeyed_ofInstructions Variant.resolve is⟩
  · intro e he
    have hkey : e.mnemonic ∈ (Tables.ofAccepted is).lookup.mnemonics := List.mem_map_of_mem he
    exact Keywords.unmarked_of_mem_roots (Lookup.mnemonics_ofInstructions Variant.resolve is ▸ hkey)
  · intro e he v hv
    obtain ⟨i, -, hresolve⟩ := Lookup.exists_of_mem_variants Variant.resolve he hv
    exact Variant.counts_nonneg hresolve

/-! ## Numbers and texts -/

theorem toString_text (s : String) : toString s = s := rfl

theorem toString_of_nonneg {n : Int} (h : 0 ≤ n) : toString n = toString n.toNat := by
  cases n with
  | ofNat n => rfl
  | negSucc n => cases h

/-! ## Variants -/

section Variants

variable {s : Settings} {v : Variant}

/-- The end of a variant's line, behind the words. -/
def tagsText : List Mode → String
  | [] => "\x7d,\n"
  | m :: rest =>
    ", .arg_modes=\x7b" ++
      ((String.intercalate ", " ((m :: rest).map Mode.tag) ++ "\x7d") ++ "\x7d,\n")

theorem reads_tags (modes : List Mode) :
    Reads Reader.tags (tagsText modes)
      (if modes.isEmpty then none else some (modes.map Mode.tag)) := by
  cases modes with
  | nil =>
      have hend : Reads (do expect "\x7d,\n"; return (none : Option (List String)))
          "\x7d,\n" none := (reads_expect _).bind_pure fun _ => none
      exact hend.orElse
  | cons m rest =>
      have hitems : ∀ w ∈ (m :: rest).map Mode.tag, IsItem w := by
        intro w hw
        obtain ⟨m, -, rfl⟩ := List.mem_map.mp hw
        exact isItem_tag m
      have hempty : "" ∉ (m :: rest).map Mode.tag := by
        intro hmem
        obtain ⟨m, -, hm⟩ := List.mem_map.mp hmem
        exact m.tag_ne_empty hm
      have hlisted : listed (String.intercalate ", " ((m :: rest).map Mode.tag)) =
          (m :: rest).map Mode.tag := listed_intercalate (List.cons_ne_nil _ _) hitems hempty
      have hbody := brace_not_mem_intercalate hitems
      have hread : Reads (do
          expect ", .arg_modes=\x7b"
          let body ← before '}'
          expect "\x7d,\n"
          return some (listed body)) (tagsText (m :: rest))
          (some (listed (String.intercalate ", " ((m :: rest).map Mode.tag)))) := by
        refine (reads_expect _).bind ?_
        refine (reads_before rfl hbody).bind ?_
        exact (reads_expect _).bind_pure fun _ => some (listed _)
      rw [hlisted] at hread
      have hmisses : Misses "\x7d,\n" (tagsText (m :: rest)) :=
        (misses_of_literal (by decide) (by decide)).append _
      exact hmisses.orElse hread

/-- A variant's line as it is read. -/
theorem variantLine_eq (hs : s.Usual) (hv : 0 ≤ v.operandCount ∧ 0 ≤ v.wordCount) :
    indentOf s 3 ++ variantLine v ++ "\n" =
      "\t\t\t\x7b .n_args=" ++ (toString v.operandCount.toNat ++ (", .opcode=0x" ++
        ((Numeral.hex v.opcode ++ ",") ++ (" .n_words=" ++
          (toString v.wordCount.toNat ++ tagsText v.modes))))) := by
  rw [← toString_of_nonneg hv.1, ← toString_of_nonneg hv.2, indentOf, hs.indent, variantLine]
  apply String.toList_inj.mp
  cases v.modes with
  | nil => simp [tagsText, toString_text, String.join, List.replicate]
  | cons m rest => simp [tagsText, toString_text, String.join, List.replicate]

theorem reads_initializer (hs : s.Usual) (hv : 0 ≤ v.operandCount ∧ 0 ≤ v.wordCount) :
    Reads Reader.initializer (indentOf s 3 ++ variantLine v ++ "\n")
      (Initializer.ofVariant v) := by
  have hopcode : ',' ∉ (Numeral.hex v.opcode).toList := by
    intro hmem
    have hdigit := Numeral.mem_hex hmem
    revert hdigit
    decide
  have htags : (tagsText v.modes).toList.head?.all Char.isDigit = false := by
    cases v.modes with
    | nil => decide
    | cons m rest => simp [tagsText]
  rw [variantLine_eq hs hv]
  refine (reads_expect _).bind ?_
  refine Reads.number_bind ?_ (by simp)
  refine (reads_expect _).bind ?_
  refine (reads_before rfl hopcode).bind ?_
  refine (reads_expect _).bind ?_
  refine Reads.number_bind ?_ htags
  exact (reads_tags v.modes).bind_pure fun names => Initializer.mk _ _ _ names

end Variants

/-! ## Blocks -/

section Blocks

variable {s : Settings} {e : LookupEntry}

/-- The lines of a block as one text. -/
def blockText (s : Settings) (e : LookupEntry) : String :=
  String.join ((block s e).map (· ++ "\n"))

theorem blockText_eq (hs : s.Usual) :
    blockText s e =
      "\t\x7b // " ++ ((e.mnemonic ++ "\n") ++ ("\t\t.num = " ++ (toString e.count ++
        (s!", .modes = ({s.stem}_iasm_mode_t[]) \x7b\n" ++
          ((String.join (e.variants.map fun v => indentOf s 3 ++ variantLine v ++ "\n") ++
            "\t\t\x7d\n") ++ "\t\x7d,\n"))))) := by
  have hone : indentOf s 1 = "\t" := by
    rw [indentOf, hs.indent]
    rfl
  have htwo : indentOf s 2 = "\t\t" := by
    rw [indentOf, hs.indent]
    rfl
  rw [blockText, block, hone, htwo]
  apply String.toList_inj.mp
  simp [toString_text, Function.comp_def]

theorem reads_block (hs : s.Usual) (he : Text.Unmarked e.mnemonic.toList)
    (hv : ∀ v ∈ e.variants, 0 ≤ v.operandCount ∧ 0 ≤ v.wordCount) :
    Reads (Reader.block s.stem) (blockText s e) (Block.ofEntry e) := by
  have hcomment : '\n' ∉ e.mnemonic.toList := Text.not_mem_of_isMark he (by decide)
  have hlines : Reads (itemsUntil "\t\t\x7d\n" Reader.initializer)
      (String.join (e.variants.map fun v => indentOf s 3 ++ variantLine v ++ "\n") ++
        "\t\t\x7d\n") (e.variants.map Initializer.ofVariant) := by
    refine reads_itemsUntil (fun v hmem => reads_initializer hs (hv v hmem)) fun v hmem => ?_
    rw [variantLine_eq hs (hv v hmem)]
    exact (misses_of_literal (by decide) (by decide)).append _
  rw [blockText_eq hs]
  refine (reads_expect _).bind ?_
  refine (reads_before rfl hcomment).bind ?_
  refine (reads_expect _).bind ?_
  refine Reads.number_bind ?_ (by simp [toString_text])
  refine (reads_expect _).bind ?_
  refine hlines.bind ?_
  exact (reads_expect _).bind_pure fun _ => Block.ofEntry e

end Blocks

/-! ## The look-up table -/

section Table

variable {s : Settings} {t : Tables}

def tableText (s : Settings) (t : Lookup) : String :=
  Text.unlines
    (["// Addressing modes belonging to instructions.",
        s!"{s.stem}_iasm_modes_t {s.stem}_insn_lut[{t.size}] = \x7b"] ++
      t.entries.flatMap (block s) ++ ["\x7d;"])

theorem join_flatMap (entries : List LookupEntry) :
    String.join ((entries.flatMap (block s)).map (· ++ "\n")) =
      String.join (entries.map (blockText s)) := by
  induction entries with
  | nil => rfl
  | cons e rest ih =>
      rw [List.flatMap_cons, List.map_append, String.join_append, ih, List.map_cons,
        String.join_cons]
      rfl

theorem tableText_eq (t : Lookup) :
    tableText s t =
      "// Addressing modes belonging to instructions.\n" ++
        (s!"{s.stem}_iasm_modes_t {s.stem}_insn_lut[" ++ (toString t.size ++
          ("] = \x7b\n" ++ (String.join (t.entries.map (blockText s)) ++ "\x7d;\n")))) := by
  rw [tableText, Text.unlines_eq_join (by simp), List.map_append, List.map_append,
    String.join_append, String.join_append, join_flatMap]
  apply String.toList_inj.mp
  simp [toString_text]

theorem reads_table (hs : s.Usual) (ht : Legible t) :
    Reads (Reader.table s.stem) (tableText s t.lookup)
      { size := t.lookup.size, blocks := t.lookup.entries.map Block.ofEntry } := by
  have hblocks : Reads (itemsUntil "\x7d;\n" (Reader.block s.stem))
      (String.join (t.lookup.entries.map (blockText s)) ++ "\x7d;\n")
      (t.lookup.entries.map Block.ofEntry) := by
    refine reads_itemsUntil
      (fun e he => reads_block hs (ht.mnemonics e he) (ht.variants e he)) fun e _ => ?_
    rw [blockText_eq hs]
    exact (misses_of_literal (by decide) (by decide)).append _
  rw [tableText_eq]
  refine (reads_expect _).bind ?_
  refine (reads_expect _).bind ?_
  refine Reads.number_bind ?_ (by simp)
  refine (reads_expect _).bind ?_
  exact hblocks.bind_pure fun blocks => Table.mk _ blocks

end Table

/-! ## Keywords -/

section Keywords

variable {s : Settings} {k : Keywords}

/-- Items in rows, as one text. -/
def rowsText (s : Settings) (ws : List String) : String :=
  String.join ((Columns.lines (ws.map (· ++ ",")) s.keywordsPerRow s.indent).map (· ++ "\n"))

theorem laid_rowsText (hs : s.Usual) (ws : List String) : Laid ws (rowsText s ws).toList := by
  refine laid_lines ?_ hs.rowWidth ws
  rw [hs.indent]
  decide

theorem keywordEnum_eq (hs : s.Usual) (hcount : 0 ≤ k.mnemonicCount) :
    keywordEnum s k =
      s!"typedef enum {s.stem}_iasm_keyw_id \x7b\n" ++ ("\t// Keyword tokens.\n" ++
        ((rowsText s (k.identifiers s.keywordStart) ++ "\x7d") ++
          (s!" {s.stem}_iasm_keyw_id_t;\n" ++ ("\n" ++
            (s!"#define {Text.upper s.stem}_TKN_INSN_KEYWORDS " ++
              (toString k.mnemonicCount.toNat ++ ("\n" ++
                (s!"#define {Text.upper s.stem}_NUM_KEYW " ++
                  (toString k.size ++ "\n"))))))))) := by
  rw [← toString_of_nonneg hcount, keywordEnum, Text.unlines_eq_join (by simp), List.map_append,
    List.map_append, String.join_append, String.join_append]
  apply String.toList_inj.mp
  simp [rowsText, toString_text, hs.indent]

theorem reads_enumeration (hs : s.Usual) (hk : ∀ w ∈ k.words, Text.Unmarked w.toList)
    (hcount : 0 ≤ k.mnemonicCount) :
    Reads (Reader.enumeration s.stem) (keywordEnum s k)
      { names := k.identifiers s.keywordStart,
        mnemonicCount := k.mnemonicCount.toNat,
        keywordCount := k.size } := by
  have hlaid := laid_rowsText hs (k.identifiers s.keywordStart)
  have hitems : ∀ w ∈ k.identifiers s.keywordStart, IsItem w := by
    intro w hw
    obtain ⟨v, hv, rfl⟩ := List.mem_map.mp hw
    exact isItem_identifier hs (hk v hv)
  have hread : Reads (Reader.enumeration s.stem) (keywordEnum s k)
      { names := listed (rowsText s (k.identifiers s.keywordStart)),
        mnemonicCount := k.mnemonicCount.toNat,
        keywordCount := k.size } := by
    rw [keywordEnum_eq hs hcount]
    refine (reads_expect _).bind ?_
    refine (reads_expect _).bind ?_
    refine (reads_before rfl (brace_not_mem_of_laid hlaid hitems)).bind ?_
    refine (reads_expect _).bind ?_
    refine (reads_expect _).bind ?_
    refine (reads_expect _).bind ?_
    refine Reads.number_bind ?_ (by simp)
    refine (reads_expect _).bind ?_
    refine (reads_expect _).bind ?_
    refine Reads.number_bind ?_ (by decide)
    exact (reads_expect _).bind_pure fun _ => Enumeration.mk _ _ _
  rw [listed_of_laid hlaid hitems] at hread
  exact hread

theorem mapM_unquote? (ws : List String) :
    (ws.map fun w => "\"" ++ w ++ "\"").mapM unquote? = some ws := by
  induction ws with
  | nil => rfl
  | cons w rest ih =>
      rw [List.map_cons, List.mapM_cons, unquote?_quoted, ih]
      rfl

theorem keywordArray_eq :
    keywordArray s k =
      "// All keywords that occur.\n" ++ (s!"char *{s.stem}_iasm_keyw[] = \x7b\n" ++
        ((rowsText s (k.words.map fun w => "\"" ++ w ++ "\"") ++ "\x7d") ++ ";\n")) := by
  have hitems : (k.words.map fun w => "\"" ++ w ++ "\",") =
      (k.words.map fun w => "\"" ++ w ++ "\"").map (· ++ ",") := by
    have hclosing : "\"," = "\"" ++ "," := by decide
    rw [List.map_map, hclosing]
    refine List.map_congr_left fun w _ => ?_
    rw [← String.append_assoc]
    rfl
  rw [keywordArray, Text.unlines_eq_join (by simp), List.map_append, List.map_append,
    String.join_append, String.join_append, hitems]
  apply String.toList_inj.mp
  simp [rowsText, toString_text]

theorem reads_strings (hs : s.Usual) (hk : ∀ w ∈ k.words, Text.Unmarked w.toList) :
    Reads (Reader.strings s.stem) (keywordArray s k) k.words := by
  have hlaid := laid_rowsText hs (k.words.map fun w => "\"" ++ w ++ "\"")
  have hitems : ∀ q ∈ k.words.map fun w => "\"" ++ w ++ "\"", IsItem q := by
    intro q hq
    obtain ⟨w, hw, rfl⟩ := List.mem_map.mp hq
    exact isItem_quoted (hk w hw)
  have hwords : (listed (rowsText s (k.words.map fun w => "\"" ++ w ++ "\""))).mapM unquote? =
      some k.words := by
    rw [listed_of_laid hlaid hitems, mapM_unquote?]
  rw [keywordArray_eq]
  refine (reads_expect _).bind ?_
  refine (reads_expect _).bind ?_
  refine (reads_before rfl (brace_not_mem_of_laid hlaid hitems)).bind ?_
  exact (reads_expect _).bind_lift hwords

end Keywords

/-! ## Modes -/

theorem modeDefine_eq (m : Mode) :
    ∃ spaces, (∀ c ∈ spaces, c = ' ') ∧ modeDefine m ++ "\n" =
      "#define " ++ ((m.tag ++ " ") ++
        ((String.ofList spaces ++ ("0x" ++ Numeral.hex m.code)) ++ "\n")) := by
  have hwidth := Columns.length_lt_width (List.mem_map_of_mem (f := Mode.tag) (Mode.mem_all m))
  refine ⟨List.replicate (Columns.width (Mode.all.map Mode.tag) - m.tag.length - 1) ' ',
    fun c hc => List.eq_of_mem_replicate hc, ?_⟩
  rw [modeDefine, Text.padRight_eq hwidth]
  simp only [String.append_assoc]

theorem reads_define (m : Mode) :
    Reads Reader.define (modeDefine m ++ "\n") (m.tag, "0x" ++ Numeral.hex m.code) := by
  obtain ⟨spaces, hspaces, htext⟩ := modeDefine_eq m
  have hname : ' ' ∉ m.tag.toList := Text.not_mem_of_isMark m.unmarked_tag (by decide)
  have hcode : Text.Unmarked ("0x" ++ Numeral.hex m.code).toList := by
    have hdigits : Text.Unmarked ("0x".toList ++ Numeral.upperDigits) := by decide
    intro c hc
    rw [String.toList_append, List.mem_append] at hc
    rcases hc with hc | hc
    · exact hdigits c (List.mem_append_left _ hc)
    · exact hdigits c (List.mem_append_right _ (Numeral.hex_ofNat_mem hc))
  have hvalue : '\n' ∉ (String.ofList spaces ++ ("0x" ++ Numeral.hex m.code)).toList := by
    rw [String.toList_append, String.toList_ofList, List.mem_append]
    rintro (hmem | hmem)
    · have hspace := hspaces _ hmem
      revert hspace
      decide
    · exact Text.not_mem_of_isMark hcode (by decide) hmem
  have htrim : String.ofList
      (Text.trim (String.ofList spaces ++ ("0x" ++ Numeral.hex m.code)).toList) =
        "0x" ++ Numeral.hex m.code := by
    have hblank : ∀ c ∈ spaces, Text.isBlank c = true := by
      intro c hc
      rw [hspaces c hc]
      decide
    rw [String.toList_append, String.toList_ofList, Text.trim_append hblank,
      Text.trim_of_unmarked hcode, String.ofList_toList]
  have hread : Reads Reader.define (modeDefine m ++ "\n") (m.tag, String.ofList
      (Text.trim (String.ofList spaces ++ ("0x" ++ Numeral.hex m.code)).toList)) := by
    rw [htext]
    refine (reads_expect _).bind ?_
    refine (reads_before rfl hname).bind ?_
    exact (reads_before rfl hvalue).bind_pure fun value =>
      (m.tag, String.ofList (Text.trim value.toList))
  rw [htrim] at hread
  exact hread

theorem reads_defines :
    Reads (itemsUntil "\n" Reader.define) (modeDefines ++ "\n")
      (Mode.all.map fun m => (m.tag, "0x" ++ Numeral.hex m.code)) := by
  have htext : modeDefines = String.join (Mode.all.map fun m => modeDefine m ++ "\n") := by
    rw [modeDefines, Text.unlines_eq_join (by simp [Mode.all]), List.map_map]
    rfl
  rw [htext]
  refine reads_itemsUntil (fun m _ => reads_define m) fun m _ => ?_
  obtain ⟨_, -, htext⟩ := modeDefine_eq m
  rw [htext]
  exact (misses_of_literal (by decide) (by decide)).append _

/-! ## The whole source -/

/-- The source of tables whose entries are found. -/
def sourceText (s : Settings) (t : Tables) : String :=
  String.intercalate "\n"
    [heading, modeDefines, keywordEnum s t.keywords, keywordArray s t.keywords,
      tableText s t.lookup]

theorem source_eq_ok (s : Settings) {t : Tables} (ht : t.lookup.IsKeyed) :
    source s t = .ok (sourceText s t) := by
  rw [source, lookupTable, ht.values_eq]
  rfl

theorem reads_source {s : Settings} {t : Tables} (hs : s.Usual) (ht : Legible t) :
    Reads (Reader.document s.stem) (sourceText s t) (Document.ofTables s t) := by
  have htext : sourceText s t =
      "// Generated by isagen. Do not edit.\n" ++ ("\n" ++ ((modeDefines ++ "\n") ++
        (keywordEnum s t.keywords ++ ("\n" ++ (keywordArray s t.keywords ++ ("\n" ++
          tableText s t.lookup)))))) := by
    simp only [sourceText, heading, String.intercalate_cons_cons, String.intercalate_singleton,
      String.append_assoc]
  rw [htext]
  refine (reads_expect _).bind ?_
  refine (reads_expect _).bind ?_
  refine reads_defines.bind ?_
  refine (reads_enumeration hs ht.words ht.mnemonicCount).bind ?_
  refine (reads_expect _).bind ?_
  refine (reads_strings hs ht.words).bind ?_
  refine (reads_expect _).bind ?_
  exact (reads_table hs ht).bind_pure fun table => Document.mk _ _ _ table

/-- The source of tables is read as the document of the tables. -/
theorem read?_sourceText {s : Settings} {t : Tables} (hs : s.Usual) (ht : Legible t) :
    read? s.stem (sourceText s t) = some (Document.ofTables s t) := by
  have hread := reads_source hs ht []
  rw [List.append_nil] at hread
  rw [read?, hread]

end CSource
end AssemblerTables
