/-
One numbering of the mnemonics for all tables.

The keyword table and the look-up table are built in separate passes, one that leaves
out repeated words and one that groups instructions.  Both number the mnemonics by
first appearance, as do the groups and the listing.  Keywords are in lower case, so a
question for an entry, which is put into lower case first, can be asked with a keyword.
-/
import AssemblerTables.Proofs.Tables

namespace AssemblerTables
namespace Tables

theorem contains_ofAccepted {is : List Instruction} {w : String} :
    (ofAccepted is).lookup.contains w = true ↔ Text.lower w ∈ Groups.roots is := by
  rw [ofAccepted, Lookup.contains, Lookup.get?_ofInstructions]
  by_cases hw : Text.lower w ∈ Groups.roots is
  · rw [if_pos hw]
    exact iff_of_true rfl hw
  · rw [if_neg hw]
    exact iff_of_false Bool.false_ne_true hw

theorem mnemonics_listing (is : List Instruction) :
    (ofAccepted is).listing.map ListingEntry.mnemonic = Groups.roots is := by
  rw [ofAccepted, Listing.ofGroups, List.map_map]
  exact Groups.keys_partition is

/-- The entry at a place below the number of mnemonics. -/
theorem exists_entry {is : List Instruction} {i : Nat} (hi : i < (Groups.roots is).length) :
    ∃ w e, (Groups.roots is)[i]? = some w ∧ (ofAccepted is).lookup.get w = .ok e ∧
      (ofAccepted is).lookup.entries[i]? = some e ∧ e.mnemonic = w := by
  have hplace := Lookup.getElem?_entries_ofInstructions Variant.resolve is i
  rw [List.getElem?_eq_getElem hi, Option.map_eq_some_iff] at hplace
  obtain ⟨e, he, hmnemonic⟩ := hplace
  have hkeyed := Lookup.isKeyed_ofInstructions Variant.resolve is
  have hget : (ofAccepted is).lookup.get? e.mnemonic = some e :=
    hkeyed.get?_mnemonic (List.mem_of_getElem? he)
  refine ⟨_, e, List.getElem?_eq_getElem hi, ?_, he, hmnemonic⟩
  rw [← hmnemonic, Lookup.get, hget]

/-- The tables agree on the mnemonics.  With `n` of them, the first `n` keywords, the
groups, the entries and the listing have the same keys in the same order.  The keyword
at a place below `n` is the mnemonic of the entry there, it finds that entry, and its
own place is found again.  Being a mnemonic, having an entry and standing below `n` are
the same for every word in lower case, and no instruction is left out of the entries. -/
theorem numbering_agrees {is : List Instruction} {t : Tables} (h : build is = .ok t) :
    ∃ n : Nat, t.keywords.mnemonicCount = n ∧
      t.keywords.words.take n = t.groups.map Group.mnemonic ∧
      t.groups.map Group.mnemonic = t.lookup.mnemonics ∧
      t.lookup.mnemonics = t.listing.map ListingEntry.mnemonic ∧
      n = t.lookup.size ∧
      (∀ i, i < n → ∃ w e, t.keywords.get? i = some w ∧ t.lookup.get w = .ok e ∧
        t.lookup.entries[i]? = some e ∧ e.mnemonic = w ∧
        t.keywords.index? w 0 none = some i) ∧
      (∀ w, (t.keywords.isMnemonic w = true ↔ t.lookup.contains w = true) ∧
        (t.lookup.contains w = true ↔
          ∃ i, i < n ∧ t.keywords.index? (Text.lower w) 0 none = some i)) ∧
      t.lookup.variantCount = is.length := by
  obtain ⟨haccepted, rfl⟩ := build_eq_ok.mp h
  have hgroups : (ofAccepted is).groups.map Group.mnemonic = Groups.roots is :=
    Groups.keys_partition is
  have hlookup : (ofAccepted is).lookup.mnemonics = Groups.roots is :=
    Lookup.mnemonics_ofInstructions Variant.resolve is
  refine ⟨(Groups.roots is).length, rfl, ?_, ?_, ?_, ?_, ?_, ?_, ?_⟩
  · rw [hgroups]
    show (Keywords.ofRooted is).words.take _ = _
    rw [Keywords.words_ofRooted, List.take_left]
  · rw [hgroups, hlookup]
  · rw [hlookup, mnemonics_listing]
  · exact (Lookup.size_ofInstructions Variant.resolve is).symm
  · intro i hi
    obtain ⟨w, e, hw, hget, he, hmnemonic⟩ := exists_entry hi
    have hword : (Keywords.ofRooted is).words[i]? = some w := by
      rw [Keywords.getElem?_words_ofRooted hi, hw]
    refine ⟨w, e, ?_, hget, he, hmnemonic, Keywords.index?_ofRooted.mpr hword⟩
    rw [Keywords.get?_eq_getElem?]
    exact hword
  · intro w
    rw [contains_ofAccepted]
    exact ⟨Keywords.isMnemonic_ofRooted is w, Keywords.exists_index?_ofRooted.symm⟩
  · exact Lookup.variantCount_ofInstructions haccepted.exists_root haccepted

/-- Mnemonics that stand as operands before they stand as mnemonics, in mixed case and
with a sigma at the end. -/
def crossing : List Instruction :=
  [{ pattern := "ΣΑΣ A", opcode := 0, widths := [] },
    { pattern := "Inc X", opcode := 1, widths := [] },
    { pattern := "x A", opcode := 2, widths := [] },
    { pattern := "INC [%]", opcode := 3, widths := [16] }]

theorem numbering_agrees_crossing :
    build crossing = .ok (ofAccepted crossing) ∧
      (ofAccepted crossing).keywords.mnemonicCount = 3 ∧
        ∀ i : Nat, i < 3 → ∃ w e, (ofAccepted crossing).keywords.get? i = some w ∧
          (ofAccepted crossing).lookup.get w = .ok e ∧
          (ofAccepted crossing).lookup.entries[i]? = some e ∧ e.mnemonic = w ∧
          (ofAccepted crossing).keywords.index? w 0 none = some i := by
  have hbuild : build crossing = .ok (ofAccepted crossing) :=
    rfl
  have hcount : (ofAccepted crossing).keywords.mnemonicCount = 3 := rfl
  obtain ⟨n, hn, -, -, -, -, hplaces, -⟩ := numbering_agrees hbuild
  have hthree : n = 3 := by omega
  subst hthree
  exact ⟨hbuild, hcount, hplaces⟩

end Tables
end AssemblerTables
