/-
What a summary tells is what the tables hold.

The totals come from three tables and the lines from a fourth view of them.  They agree with
each other: every instruction is a variant of one entry, and the entries are numbered as the
mnemonics among the keywords are.
-/
import AssemblerTables.Proofs.Summary.Reading

namespace AssemblerTables
namespace Summary

/-! ## Agreement with the tables -/

/-- Does a line tell of the entry at a place of the tables? -/
structure Line.Tells (l : Line) (t : Tables) (i : Nat) (e : LookupEntry) : Prop where
  place : l.place = i
  mnemonic : l.mnemonic = e.mnemonic
  keyword : t.keywords.get? i = some l.mnemonic
  count : l.count = e.variants.length
  dash : l.modes = none ↔ ∀ v ∈ e.variants, v.operandCount = 0
  increasing : ∀ names, l.modes = some names → names.Pairwise (· < ·)
  mem_names : ∀ names, l.modes = some names →
    ∀ name, name ∈ names ↔ ∃ v ∈ e.variants, ∃ m ∈ v.modes, m.name = name

/-- Do the totals of a report agree with each other, and all of it with the tables? -/
structure Report.Agrees (r : Report) (t : Tables) : Prop where
  instructions : r.instructions = t.instructions.length
  variants : r.variants = r.instructions
  counted : r.counted = r.instructions
  keywords : r.keywords = t.keywords.size
  mnemonics : (r.mnemonics : Int) = t.keywords.mnemonicCount
  entries : r.entries = r.mnemonics
  length : r.lines.length = r.entries
  size : t.lookup.size = r.entries
  tells : ∀ i e, t.lookup.entries[i]? = some e → ∃ l : Line, r.lines[i]? = some l ∧ l.Tells t i e

theorem mem_modeNames {e : LookupEntry} {name : String} :
    name ∈ modeNames e ↔ ∃ v ∈ e.variants, ∃ m ∈ v.modes, m.name = name := by
  have hall : ∀ m, m ∈ Mode.byName := fun m => by cases m <;> decide
  rw [modeNames, List.mem_map]
  constructor
  · rintro ⟨m, hm, rfl⟩
    obtain ⟨v, hv, hmode⟩ := List.any_eq_true.mp (List.mem_filter.mp hm).2
    exact ⟨v, hv, m, List.contains_iff_mem.mp hmode, rfl⟩
  · rintro ⟨v, hv, m, hm, rfl⟩
    refine ⟨m, List.mem_filter.mpr ⟨hall m, ?_⟩, rfl⟩
    exact List.any_eq_true.mpr ⟨v, hv, List.contains_iff_mem.mpr hm⟩

theorem pairwise_modeNames (e : LookupEntry) : (modeNames e).Pairwise (· < ·) := by
  have hnames : (Mode.byName.map Mode.name).Pairwise (· < ·) := by decide +kernel
  exact hnames.sublist (List.filter_sublist.map _)

theorem modeNames_eq_nil {e : LookupEntry} :
    modeNames e = [] ↔ ∀ v ∈ e.variants, v.modes = [] := by
  simp only [List.eq_nil_iff_forall_not_mem, mem_modeNames, not_exists, not_and]
  constructor
  · intro h v hv m hm
    exact h m.name v hv m hm rfl
  · intro h name v hv m hm
    exact absurd hm (h v hv m)

/-- The counts of the lines are those of the entries. -/
theorem counted_ofTables (t : Tables) : (Report.ofTables t).counted = t.lookup.variantCount := by
  have hcounts : (Report.ofTables t).lines.map Line.count =
      t.lookup.entries.map LookupEntry.count := by
    refine List.ext_getElem? fun i => ?_
    simp only [Report.ofTables, List.getElem?_map, List.getElem?_mapIdx, Option.map_map]
    rfl
  rw [Report.counted, hcounts]
  rfl

theorem tells_ofEntry {is : List Instruction} {i : Nat} {e : LookupEntry}
    (he : (Tables.ofAccepted is).lookup.entries[i]? = some e) :
    (Line.ofEntry i e).Tells (Tables.ofAccepted is) i e := by
  have hcounts : ∀ v ∈ e.variants, v.operandCount = 0 ↔ v.modes = [] := by
    intro v hv
    obtain ⟨j, -, hresolve⟩ :=
      Lookup.exists_of_mem_variants Variant.resolve (List.mem_of_getElem? he) hv
    rw [Variant.operandCount_eq hresolve, Int.natCast_eq_zero, List.length_eq_zero_iff]
  have hkeyword : (Tables.ofAccepted is).keywords.get? i = some e.mnemonic := by
    have hroot := Lookup.getElem?_entries_ofInstructions Variant.resolve is i
    change (Tables.ofAccepted is).lookup.entries[i]?.map _ = _ at hroot
    rw [he, Option.map_some] at hroot
    have hi : i < (Groups.roots is).length := (List.getElem?_eq_some_iff.mp hroot.symm).1
    rw [Keywords.get?_eq_getElem?]
    exact (Keywords.getElem?_words_ofRooted hi).trans hroot.symm
  have hnames {names : List String} (h : (Line.ofEntry i e).modes = some names) :
      names = modeNames e := by
    rw [Line.ofEntry] at h
    dsimp only at h
    split at h
    · cases h
    · exact (Option.some.inj h).symm
  refine { place := rfl, mnemonic := rfl, keyword := hkeyword, count := rfl, dash := ?_,
           increasing := ?_, mem_names := ?_ }
  · have hdash : (Line.ofEntry i e).modes = none ↔ modeNames e = [] := by simp [Line.ofEntry]
    rw [hdash, modeNames_eq_nil]
    exact forall₂_congr fun v hv => (hcounts v hv).symm
  · intro names h
    rw [hnames h]
    exact pairwise_modeNames e
  · intro names h name
    rw [hnames h]
    exact mem_modeNames

theorem agrees_ofTables {is : List Instruction} (h : Tables.Accepted is) :
    (Report.ofTables (Tables.ofAccepted is)).Agrees (Tables.ofAccepted is) := by
  have hvariants : (Tables.ofAccepted is).lookup.variantCount = is.length :=
    Lookup.variantCount_ofInstructions h.exists_root h
  have hsize : (Tables.ofAccepted is).lookup.size = (Groups.roots is).length :=
    Lookup.size_ofInstructions Variant.resolve is
  refine { instructions := rfl, variants := hvariants, counted := ?_, keywords := rfl,
           mnemonics := rfl, entries := hsize, length := List.length_mapIdx, size := rfl,
           tells := ?_ }
  · rw [counted_ofTables]
    exact hvariants
  · intro i e he
    refine ⟨Line.ofEntry i e, ?_, tells_ofEntry he⟩
    show ((Tables.ofAccepted is).lookup.entries.mapIdx Line.ofEntry)[i]? = _
    rw [List.getElem?_mapIdx, he, Option.map_some]

/-- Every instruction set with tables has a summary, with four lines and then one for each
entry.  It can be read back, its totals agree with each other, and each line tells of the
entry and the keyword at its place. -/
theorem summary_tells {is : List Instruction} {t : Tables} (h : Tables.build is = .ok t) :
    ∃ text r, Summary.text t = .ok text ∧ (Text.lines text).length = 4 + t.lookup.size ∧
      read? text = some r ∧ r.Agrees t := by
  obtain ⟨haccepted, rfl⟩ := Tables.build_eq_ok.mp h
  have hlegible := CSource.legible_ofAccepted is
  have hmnemonics : ∀ e ∈ (Tables.ofAccepted is).lookup.entries, Text.IsField e.mnemonic := by
    intro e he
    have hkey : e.mnemonic ∈ (Tables.ofAccepted is).lookup.mnemonics := List.mem_map_of_mem he
    rw [Tables.ofAccepted, Lookup.mnemonics_ofInstructions] at hkey
    obtain ⟨i, -, hroot⟩ := Groups.mem_roots.mp hkey
    exact Text.isField_of_unmarked (Pattern.mnemonic?_ne_nil hroot) (hlegible.mnemonics e he)
  refine ⟨_, _, text_eq_ok hlegible.keyed, ?_, read?_summaryText hlegible.mnemonicCount hmnemonics,
    agrees_ofTables haccepted⟩
  rw [lines_summaryText hlegible.mnemonicCount hmnemonics, List.length_append, length_entryLines]
  rfl

/-- A mnemonic that is longer than its column and in capital letters of another script, one
without operands, and modes that come in another order than their names. -/
def uneven : List Instruction :=
  [{ pattern := "ΜΕΤΑΦΟΡΑ X, (%)Y", opcode := 1, widths := [16] },
    { pattern := "Nop\u2028", opcode := 2, widths := [] },
    { pattern := "μεταφορα A,\n%", opcode := 3, widths := [8] }]

theorem summary_tells_uneven :
    Tables.build uneven = .ok (Tables.ofAccepted uneven) ∧
      ∃ text r, Summary.text (Tables.ofAccepted uneven) = .ok text ∧
        (Text.lines text).length = 6 ∧ read? text = some r ∧
          r.Agrees (Tables.ofAccepted uneven) := by
  have haccepted : Tables.Accepted uneven := by decide +kernel
  have hbuild : Tables.build uneven = .ok (Tables.ofAccepted uneven) :=
    Tables.build_eq_ok.mpr ⟨haccepted, rfl⟩
  have hsize : (Tables.ofAccepted uneven).lookup.size = 2 := by decide +kernel
  obtain ⟨text, r, htext, hlength, hread, hagrees⟩ := summary_tells hbuild
  rw [hsize] at hlength
  exact ⟨hbuild, text, r, htext, hlength, hread, hagrees⟩

example :
    entryLine 1000 { mnemonic := "μεταφορα", variants := [] } = "  1000  μεταφορα   0  -" := by
  decide +kernel

end Summary
end AssemblerTables
