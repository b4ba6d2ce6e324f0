/-
The generated source loses nothing but the patterns.

A document determines the keywords with their count and the entries of the look-up table
up to the patterns of their variants.  Since the source is read as the document of the
tables, equal sources come of equal tables.  Nothing else goes into the source, so equal
tables have equal sources.
-/
import AssemblerTables.Proofs.CSource.Reading

namespace AssemblerTables

/-! ## Tables without patterns -/

def Variant.withoutPattern (v : Variant) : Variant :=
  { v with pattern := "" }

def LookupEntry.withoutPatterns (e : LookupEntry) : LookupEntry :=
  { e with variants := e.variants.map Variant.withoutPattern }

namespace CSource

/-! ## Documents determine tables -/

theorem withoutPattern_eq_of_initializer {v w : Variant}
    (hv : 0 ≤ v.operandCount ∧ 0 ≤ v.wordCount) (hw : 0 ≤ w.operandCount ∧ 0 ≤ w.wordCount)
    (h : Initializer.ofVariant v = Initializer.ofVariant w) :
    v.withoutPattern = w.withoutPattern := by
  have hopcode : v.opcode = w.opcode :=
    Numeral.hex_injective (congrArg Initializer.opcode h)
  have hargs : v.operandCount.toNat = w.operandCount.toNat := congrArg Initializer.argCount h
  have hwords : v.wordCount.toNat = w.wordCount.toNat := congrArg Initializer.wordCount h
  have htags : v.modes.map Mode.tag = w.modes.map Mode.tag := by
    rw [← Initializer.getD_tags v, h, Initializer.getD_tags w]
  have hmodes : v.modes = w.modes :=
    (List.map_inj_right fun _ _ hsame => Mode.tag_injective hsame).mp htags
  have hargs' : v.operandCount = w.operandCount := by omega
  have hwords' : v.wordCount = w.wordCount := by omega
  rw [Variant.withoutPattern, Variant.withoutPattern, hopcode, hargs', hwords', hmodes]

theorem withoutPatterns_eq_of_block {e f : LookupEntry}
    (he : ∀ v ∈ e.variants, 0 ≤ v.operandCount ∧ 0 ≤ v.wordCount)
    (hf : ∀ v ∈ f.variants, 0 ≤ v.operandCount ∧ 0 ≤ v.wordCount)
    (h : Block.ofEntry e = Block.ofEntry f) : e.withoutPatterns = f.withoutPatterns := by
  have hmnemonic : e.mnemonic = f.mnemonic := congrArg Block.comment h
  have hvariants : e.variants.map Variant.withoutPattern = f.variants.map Variant.withoutPattern :=
    Result.map_eq_map_of
      (fun v hv w hw => withoutPattern_eq_of_initializer (he v hv) (hf w hw))
      (congrArg Block.lines h)
  rw [LookupEntry.withoutPatterns, LookupEntry.withoutPatterns, hmnemonic, hvariants]

theorem tables_eq_of_document {s : Settings} {t u : Tables} (ht : Legible t) (hu : Legible u)
    (h : Document.ofTables s t = Document.ofTables s u) :
    t.keywords = u.keywords ∧
      t.lookup.entries.map LookupEntry.withoutPatterns =
        u.lookup.entries.map LookupEntry.withoutPatterns := by
  have hwords : t.keywords.words = u.keywords.words := congrArg Document.strings h
  have hcount : t.keywords.mnemonicCount.toNat = u.keywords.mnemonicCount.toNat :=
    congrArg (fun d => d.enumeration.mnemonicCount) h
  have hblocks : t.lookup.entries.map Block.ofEntry = u.lookup.entries.map Block.ofEntry :=
    congrArg (fun d => d.table.blocks) h
  constructor
  · have hnonneg := ht.mnemonicCount
    have hnonneg' := hu.mnemonicCount
    have hcount' : t.keywords.mnemonicCount = u.keywords.mnemonicCount := by omega
    cases htk : t.keywords
    cases huk : u.keywords
    simp only [htk, huk] at hwords hcount'
    rw [hwords, hcount']
  · exact Result.map_eq_map_of
      (fun e he f hf => withoutPatterns_eq_of_block (ht.variants e he) (hu.variants f hf)) hblocks

/-! ## Tables determine the source -/

theorem block_withoutPatterns (s : Settings) (e : LookupEntry) :
    block s e.withoutPatterns = block s e := by
  have hcount : e.withoutPatterns.count = e.count := List.length_map _
  have hlines : e.withoutPatterns.variants.map (fun v => indentOf s 3 ++ variantLine v) =
      e.variants.map fun v => indentOf s 3 ++ variantLine v := by
    rw [LookupEntry.withoutPatterns, List.map_map]
    rfl
  rw [block, block, hcount, hlines]
  rfl

theorem tableText_withoutPatterns (s : Settings) (t : Lookup) :
    tableText s { entries := t.entries.map LookupEntry.withoutPatterns } = tableText s t := by
  have hsize : Lookup.size { entries := t.entries.map LookupEntry.withoutPatterns } = t.size :=
    List.length_map _
  have hblocks : (t.entries.map LookupEntry.withoutPatterns).flatMap (block s) =
      t.entries.flatMap (block s) := by
    rw [List.flatMap_map]
    exact congrArg t.entries.flatMap (funext (block_withoutPatterns s))
  rw [tableText, tableText, hsize, hblocks]

/-- The sources of two accepted instruction sets are equal exactly when their keyword
tables are and their look-up tables are, the patterns of the variants left out. -/
theorem source_eq_iff {is₁ is₂ : List Instruction} {t₁ t₂ : Tables}
    {env : Settings.Environment} {r : Command.Request} {s : Settings}
    (hbuild₁ : Tables.build is₁ = .ok t₁) (hbuild₂ : Tables.build is₂ = .ok t₂)
    (hsettings : Command.settingsOf env r = .ok s) :
    ∃ text₁ text₂, source s t₁ = .ok text₁ ∧ source s t₂ = .ok text₂ ∧
      (text₁ = text₂ ↔
        t₁.keywords = t₂.keywords ∧
          t₁.lookup.entries.map LookupEntry.withoutPatterns =
            t₂.lookup.entries.map LookupEntry.withoutPatterns) := by
  obtain ⟨-, rfl⟩ := Tables.build_eq_ok.mp hbuild₁
  obtain ⟨-, rfl⟩ := Tables.build_eq_ok.mp hbuild₂
  have hs := Settings.usual_of_settingsOf hsettings
  have hlegible₁ := legible_ofAccepted is₁
  have hlegible₂ := legible_ofAccepted is₂
  refine ⟨_, _, source_eq_ok s hlegible₁.keyed, source_eq_ok s hlegible₂.keyed, ?_, ?_⟩
  · intro htext
    have hread := read?_sourceText hs hlegible₁
    rw [htext, read?_sourceText hs hlegible₂] at hread
    exact tables_eq_of_document hlegible₁ hlegible₂ (Option.some.inj hread).symm
  · rintro ⟨hkeywords, hentries⟩
    rw [sourceText, sourceText, hkeywords, ← tableText_withoutPatterns s, hentries,
      tableText_withoutPatterns s]

/-- An instruction with its pattern left open. -/
def spelling (pattern : String) : List Instruction :=
  [{ pattern := pattern, opcode := 0x6C, widths := [16] }]

/-- The keyword table of every spelling with these words. -/
def spelledWords : Keywords :=
  { words := ["mov", "a"], mnemonicCount := 1 }

/-- The entry of a spelling with these words. -/
def spelledEntry (pattern : String) : LookupEntry :=
  { mnemonic := "mov",
    variants :=
      [{ opcode := 0x6C, operandCount := 2, wordCount := 2, modes := [.regA, .mem],
         pattern := pattern }] }

theorem source_eq_iff_spellings :
    (Tables.ofAccepted (spelling "MOV A, [%]")).lookup ≠
        (Tables.ofAccepted (spelling "mov  A,[%]")).lookup ∧
      ∃ s text, Command.settingsOf [] { stem := some "gß\n" } = .ok s ∧
        source s (Tables.ofAccepted (spelling "MOV A, [%]")) = .ok text ∧
        source s (Tables.ofAccepted (spelling "mov  A,[%]")) = .ok text := by
  have hkeywords₁ : (Tables.ofAccepted (spelling "MOV A, [%]")).keywords = spelledWords := rfl
  have hkeywords₂ : (Tables.ofAccepted (spelling "mov  A,[%]")).keywords = spelledWords := rfl
  have hlookup₁ : (Tables.ofAccepted (spelling "MOV A, [%]")).lookup =
      { entries := [spelledEntry "MOV A, [%]"] } := rfl
  have hlookup₂ : (Tables.ofAccepted (spelling "mov  A,[%]")).lookup =
      { entries := [spelledEntry "mov  A,[%]"] } := rfl
  have hsettings : Command.settingsOf [] { stem := some "gß\n" } = .ok { stem := "gß\n" } := rfl
  have hbuild₁ : Tables.build (spelling "MOV A, [%]") =
      .ok (Tables.ofAccepted (spelling "MOV A, [%]")) := rfl
  have hbuild₂ : Tables.build (spelling "mov  A,[%]") =
      .ok (Tables.ofAccepted (spelling "mov  A,[%]")) := rfl
  obtain ⟨text₁, text₂, htext₁, htext₂, hiff⟩ := source_eq_iff hbuild₁ hbuild₂ hsettings
  have hsame : text₁ = text₂ := by
    apply hiff.mpr
    rw [hkeywords₁, hkeywords₂, hlookup₁, hlookup₂]
    exact ⟨rfl, rfl⟩
  refine ⟨?_, _, text₁, hsettings, htext₁, ?_⟩
  · rw [hlookup₁, hlookup₂]
    simp [spelledEntry]
  · rw [hsame]
    exact htext₂

end CSource
end AssemblerTables
