/-
The parts of the generated source agree with each other.

The assembler that the source is made for looks a word up in the array of strings, uses
its place as the token, and with the token of a mnemonic goes to the block at that place.
Nothing but position ties the parts together.  `source_consistent` says that every count
and every order is right, for every instruction set that was loaded and accepted and for
all settings that a command line can lead to.
-/
import AssemblerTables.Proofs.CSource.Reading
import AssemblerTables.Proofs.Definition.Records

namespace AssemblerTables

namespace CSource

/-! ## Consistent documents -/

/-- A variant counts the modes that it names, has a byte in two digits for its opcode, and
uses defined names only. -/
structure Initializer.Consistent (defines : List (String × String)) (l : Initializer) :
    Prop where
  argCount : l.argCount = (l.tags.getD []).length
  absent : l.tags = none ↔ l.argCount = 0
  opcodeLength : l.opcode.toList.length = 2
  opcodeDigits : ∀ c ∈ l.opcode.toList, c ∈ Numeral.upperDigits
  defined : ∀ tag ∈ l.tags.getD [], ∃ value, (tag, value) ∈ defines

/-- The places of the parts are those of the keywords, and the counts are those of the
items. -/
structure Document.Consistent (start : String) (d : Document) : Prop where
  names : ∀ i : Nat, d.enumeration.names[i]? = d.strings[i]?.map fun w => start ++ Text.upper w
  keywordCount_names : d.enumeration.keywordCount = d.enumeration.names.length
  keywordCount_strings : d.enumeration.keywordCount = d.strings.length
  mnemonicCount_size : d.enumeration.mnemonicCount = d.table.size
  mnemonicCount_blocks : d.enumeration.mnemonicCount = d.table.blocks.length
  comments : ∀ (i : Nat) (b : Block), d.table.blocks[i]? = some b → d.strings[i]? = some b.comment
  counts : ∀ b ∈ d.table.blocks, b.count = b.lines.length
  lines : ∀ b ∈ d.table.blocks, ∀ l ∈ b.lines, l.Consistent d.defines

/-! ## Documents of accepted instructions -/

/-- The names that are defined in every document. -/
def modeDefinitions : List (String × String) :=
  Mode.all.map fun m => (m.tag, "0x" ++ Numeral.hex m.code)

theorem consistent_ofVariant {v : Variant} (hmodes : v.operandCount = v.modes.length)
    (hopcode : 0 ≤ v.opcode ∧ v.opcode ≤ Record.maxOpcode) :
    (Initializer.ofVariant v).Consistent modeDefinitions := by
  have hcount : v.operandCount.toNat = v.modes.length := by omega
  have htags := Initializer.getD_tags v
  obtain ⟨n, hn⟩ := Int.eq_ofNat_of_zero_le hopcode.1
  have hbyte : n < 256 := by
    have hmax : v.opcode ≤ 255 := hopcode.2
    omega
  constructor
  · rw [htags, List.length_map]
    exact hcount
  · show (if v.modes.isEmpty then none else some (v.modes.map Mode.tag)) = none ↔
      v.operandCount.toNat = 0
    rw [hcount]
    cases v.modes <;> simp
  · show (Numeral.hex v.opcode).toList.length = 2
    rw [hn]
    exact Numeral.length_hex hbyte
  · intro c hc
    change c ∈ (Numeral.hex v.opcode).toList at hc
    rw [hn] at hc
    exact Numeral.hex_ofNat_mem hc
  · intro tag htag
    rw [htags] at htag
    obtain ⟨m, -, rfl⟩ := List.mem_map.mp htag
    exact ⟨_, List.mem_map_of_mem (Mode.mem_all m)⟩

/-- The comment of a block is the keyword at its place. -/
theorem getElem?_words_of_blocks {is : List Instruction} {i : Nat} {b : Block}
    (h : ((Tables.ofAccepted is).lookup.entries.map Block.ofEntry)[i]? = some b) :
    (Tables.ofAccepted is).keywords.words[i]? = some b.comment := by
  rw [List.getElem?_map, Option.map_eq_some_iff] at h
  obtain ⟨e, he, rfl⟩ := h
  have hkey : (Groups.roots is)[i]? = some e.mnemonic := by
    rw [← Lookup.getElem?_entries_ofInstructions Variant.resolve is i]
    exact congrArg (Option.map LookupEntry.mnemonic) he
  have hi : i < (Groups.roots is).length := (List.getElem?_eq_some_iff.mp hkey).1
  exact (Keywords.getElem?_words_ofRooted hi).trans hkey

theorem consistent_ofAccepted {is : List Instruction}
    (hopcodes : ∀ i ∈ is, 0 ≤ i.opcode ∧ i.opcode ≤ Record.maxOpcode) (s : Settings) :
    (Document.ofTables s (Tables.ofAccepted is)).Consistent s.keywordStart := by
  have hsize : (Groups.roots is).length = (Tables.ofAccepted is).lookup.entries.length :=
    (Lookup.size_ofInstructions Variant.resolve is).symm
  constructor
  · intro i
    exact List.getElem?_map
  · exact (List.length_map _).symm
  · rfl
  · exact hsize
  · show (Groups.roots is).length =
      ((Tables.ofAccepted is).lookup.entries.map Block.ofEntry).length
    rw [List.length_map, hsize]
  · exact fun i b hb => getElem?_words_of_blocks hb
  · intro b hb
    obtain ⟨e, -, rfl⟩ := List.mem_map.mp hb
    exact (List.length_map _).symm
  · intro b hb l hl
    obtain ⟨e, he, rfl⟩ := List.mem_map.mp hb
    obtain ⟨v, hv, rfl⟩ := List.mem_map.mp hl
    obtain ⟨i, hi, hresolve⟩ := Lookup.exists_of_mem_variants Variant.resolve he hv
    refine consistent_ofVariant (Variant.operandCount_eq hresolve) ?_
    rw [Variant.opcode_eq hresolve]
    exact hopcodes i hi

/-- The source of loaded and accepted instructions exists, can be read, and is consistent. -/
theorem source_consistent {records : List Json.Value} {is : List Instruction} {t : Tables}
    {env : Settings.Environment} {r : Command.Request} {s : Settings}
    (hload : Definition.ofRecords records = .ok is) (hbuild : Tables.build is = .ok t)
    (hsettings : Command.settingsOf env r = .ok s) :
    ∃ text d, source s t = .ok text ∧ read? s.stem text = some d ∧
      d.Consistent s.keywordStart := by
  obtain ⟨-, rfl⟩ := Tables.build_eq_ok.mp hbuild
  have hlegible := legible_ofAccepted is
  have hopcodes := Definition.opcode_of_ofRecords hload
  exact ⟨_, _, source_eq_ok s hlegible.keyed,
    read?_sourceText (Settings.usual_of_settingsOf hsettings) hlegible,
    consistent_ofAccepted hopcodes s⟩

/-- Two mnemonics, with a value and an operand and with neither. -/
def specimen : List Json.Value :=
  [.object [("name", .text "MOV A, [%]"), ("hex", .text "0x6c"),
      ("args", .list [.object [("bits", .int 16)]])],
    .object [("name", .text "ret"), ("hex", .int 7)]]

def specimenInstructions : List Instruction :=
  [{ pattern := "MOV A, [%]", opcode := 0x6C, widths := [16] },
    { pattern := "ret", opcode := 7, widths := [] }]

/-- A stem with a letter of another script and a line feed, and one keyword to a line. -/
def narrow : Settings :=
  { stem := "gß\n", keywordsPerRow := 1 }

theorem source_consistent_specimen :
    Definition.ofRecords specimen = .ok specimenInstructions ∧
      Command.settingsOf [("ISAGEN_PREFIX", "gß\n")] { keywordsPerRow := some 1 } =
        .ok narrow ∧
      ∃ text d, source narrow (Tables.ofAccepted specimenInstructions) = .ok text ∧
        read? narrow.stem text = some d ∧ d.Consistent narrow.keywordStart := by
  have hload : Definition.ofRecords specimen = .ok specimenInstructions := rfl
  have hbuild : Tables.build specimenInstructions =
      .ok (Tables.ofAccepted specimenInstructions) := rfl
  have hsettings : Command.settingsOf [("ISAGEN_PREFIX", "gß\n")] { keywordsPerRow := some 1 } =
      .ok narrow := rfl
  exact ⟨hload, hsettings, source_consistent hload hbuild hsettings⟩

end CSource
end AssemblerTables
