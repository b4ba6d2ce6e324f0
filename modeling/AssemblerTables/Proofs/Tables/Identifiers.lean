/-
When the identifiers of the keywords are distinct.

Keywords are told apart in lower case and named in upper case, and upper case is not one to
one.  So the generated source declares an identifier twice exactly if two of the keywords
are spelled out alike, such as `ß` and `ss`.  This does not depend on what the identifiers
start with, and it does not happen among keywords without a respelled character.
-/
import AssemblerTables.Proofs.Tables
import AssemblerTables.Proofs.Text.Spelling
import Mathlib.Data.List.Nodup

namespace AssemblerTables

namespace Keywords

/-- Keywords are in lower case throughout. -/
theorem isLowered_of_mem_words {is : List Instruction} {w : String}
    (hw : w ∈ (ofRooted is).words) : ∀ c ∈ w.toList, Text.IsLowered c := by
  rw [ofRooted, List.mem_eraseDups, List.mem_append, List.mem_flatMap] at hw
  rcases hw with hm | ⟨i, -, hw⟩
  · obtain ⟨i, -, hi⟩ := Groups.mem_roots.mp hm
    exact Pattern.isLowered_mnemonic hi
  · exact Pattern.isLowered_of_mem_words hw

/-- Two words in lower case have one identifier exactly if they are spelled out alike. -/
theorem identifier_eq_iff {w w' : String} (hw : ∀ c ∈ w.toList, Text.IsLowered c)
    (hw' : ∀ c ∈ w'.toList, Text.IsLowered c) (start : String) :
    start ++ Text.upper w = start ++ Text.upper w' ↔
      Text.spelledOut w.toList = Text.spelledOut w'.toList := by
  rw [← Text.upperChars_eq_iff hw hw', ← Text.toList_upper, ← Text.toList_upper,
    String.toList_inj]
  constructor
  · intro h
    have hlists := congrArg String.toList h
    rw [String.toList_append, String.toList_append, List.append_cancel_left_eq] at hlists
    exact String.toList_inj.mp hlists
  · intro h
    rw [h]

end Keywords

namespace Tables

/-- The identifiers of the keywords are distinct exactly if no two different keywords are
spelled out alike, whatever the identifiers start with.  In particular they are distinct
where no keyword has a respelled character. -/
theorem identifiers_nodup_iff {is : List Instruction} {t : Tables} (h : build is = .ok t)
    (start : String) :
    ((t.keywords.identifiers start).Nodup ↔
        ∀ w ∈ t.keywords.words, ∀ w' ∈ t.keywords.words,
          Text.spelledOut w.toList = Text.spelledOut w'.toList → w = w') ∧
      ((∀ w ∈ t.keywords.words, ∀ c ∈ w.toList, Text.respelled.contains c = false) →
        (t.keywords.identifiers start).Nodup) := by
  obtain ⟨-, rfl⟩ := build_eq_ok.mp h
  have hlower : ∀ w ∈ (ofAccepted is).keywords.words, ∀ c ∈ w.toList, Text.IsLowered c :=
    fun _ hw => Keywords.isLowered_of_mem_words hw
  have hwords : (ofAccepted is).keywords.words.Nodup := Keywords.nodup_words_ofRooted is
  have hiff : ((ofAccepted is).keywords.identifiers start).Nodup ↔
      ∀ w ∈ (ofAccepted is).keywords.words, ∀ w' ∈ (ofAccepted is).keywords.words,
        Text.spelledOut w.toList = Text.spelledOut w'.toList → w = w' := by
    rw [Keywords.identifiers, List.nodup_map_iff_inj_on hwords]
    constructor
    · intro hinj w hw w' hw' hspelled
      exact hinj w hw w' hw'
        ((Keywords.identifier_eq_iff (hlower w hw) (hlower w' hw') start).mpr hspelled)
    · intro hinj w hw w' hw' hsame
      exact hinj w hw w' hw'
        ((Keywords.identifier_eq_iff (hlower w hw) (hlower w' hw') start).mp hsame)
  refine ⟨hiff, fun hplain => hiff.mpr fun w hw w' hw' hspelled => ?_⟩
  rw [Text.spelledOut_eq_self (hlower w hw) (hplain w hw),
    Text.spelledOut_eq_self (hlower w' hw') (hplain w' hw')] at hspelled
  exact String.toList_inj.mp hspelled

/-- Keywords that are respelled, each with a spelling of its own. -/
def respelledApart : List Instruction :=
  [{ pattern := "Straße A", opcode := 0, widths := [] },
    { pattern := "ΣΑΣ X", opcode := 1, widths := [] }]

theorem identifiers_nodup_iff_respelledApart :
    build respelledApart = .ok (ofAccepted respelledApart) ∧
      ((ofAccepted respelledApart).keywords.identifiers "R3_KEYW_").Nodup := by
  have hbuild : build respelledApart = .ok (ofAccepted respelledApart) :=
    rfl
  have hspelled : ∀ w ∈ (ofAccepted respelledApart).keywords.words,
      ∀ w' ∈ (ofAccepted respelledApart).keywords.words,
        Text.spelledOut w.toList = Text.spelledOut w'.toList → w = w' := by
    decide +kernel
  exact ⟨hbuild, (identifiers_nodup_iff hbuild "R3_KEYW_").1.mpr hspelled⟩

/-- Two mnemonics that are spelled alike. -/
def sharp : List Instruction :=
  [{ pattern := "ß", opcode := 0, widths := [] },
    { pattern := "ss", opcode := 1, widths := [] }]

/-- The identifiers of different keywords need not be distinct. -/
theorem identifiers_repeated_sharp :
    build sharp = .ok (ofAccepted sharp) ∧
      (ofAccepted sharp).keywords.words = ["ß", "ss"] ∧
      (ofAccepted sharp).keywords.identifiers Keywords.defaultStart = ["KEYW_SS", "KEYW_SS"] ∧
      ¬ ((ofAccepted sharp).keywords.identifiers Keywords.defaultStart).Nodup := by
  have hidentifiers : (ofAccepted sharp).keywords.identifiers Keywords.defaultStart =
      ["KEYW_SS", "KEYW_SS"] :=
    rfl
  refine ⟨rfl, rfl, hidentifiers, ?_⟩
  rw [hidentifiers]
  decide

end Tables
end AssemblerTables
