/-
Instructions added at the end disturb nothing that was there.

A generated assembler keeps working when its instruction set grows: a mnemonic keeps its
token, the variants of a mnemonic keep their places and new ones come behind them, and so
a search that found a variant finds it again.  The operand words keep their order as well,
except for those that have become mnemonics and moved to the front.

Each table of the longer set is that of the shorter with something behind it, so all of
this is read off the closed forms for two lists of instructions in a row.
-/
import AssemblerTables.Proofs.Tables

namespace AssemblerTables

/-! ## Groups -/

namespace Groups

/-- Mnemonics that are new come behind those that were there. -/
theorem roots_append (is js : List Instruction) :
    roots (is ++ js) = roots is ++
      ((js.filterMap Instruction.root?).removeAll (is.filterMap Instruction.root?)).eraseDups := by
  rw [roots, List.filterMap_append, List.eraseDups_append, ← roots]

theorem roots_prefix (is js : List Instruction) : roots is <+: roots (is ++ js) := by
  rw [roots_append]
  exact List.prefix_append _ _

theorem membersOf_append (is js : List Instruction) (m : String) :
    membersOf (is ++ js) m = membersOf is m ++ membersOf js m :=
  List.filter_append _ _

end Groups

/-! ## Variants -/

namespace Lookup

variable (resolve : Instruction → Except BuildFault Variant)

theorem variantsOf_prefix (is js : List Instruction) (m : String) :
    variantsOf resolve is m <+: variantsOf resolve (is ++ js) m := by
  rw [variantsOf, variantsOf, Groups.membersOf_append, List.filterMap_append]
  exact List.prefix_append _ _

/-- An entry that is found is found again, and no variant in it has moved. -/
theorem get_append {is : List Instruction} {m : String} {e : LookupEntry}
    (h : (ofInstructions resolve is).get m = .ok e) (js : List Instruction) :
    ∃ e', (ofInstructions resolve (is ++ js)).get m = .ok e' ∧ e.variants <+: e'.variants := by
  rw [get, get?_ofInstructions] at h
  by_cases hm : Text.lower m ∈ Groups.roots is
  · rw [if_pos hm] at h
    cases h
    have hm' : Text.lower m ∈ Groups.roots (is ++ js) := (Groups.roots_prefix is js).subset hm
    refine ⟨{ mnemonic := Text.lower m,
              variants := variantsOf resolve (is ++ js) (Text.lower m) }, ?_,
      variantsOf_prefix resolve is js _⟩
    rw [get, get?_ofInstructions, if_pos hm']
  · rw [if_neg hm] at h
    cases h

/-- Mnemonics have entries. -/
theorem exists_get {is : List Instruction} {m : String} (hm : m ∈ Groups.roots is) :
    ∃ e, (ofInstructions resolve is).get m = .ok e := by
  obtain ⟨i, -, hi⟩ := Groups.mem_roots.mp hm
  have hlower : Text.lower m = m := Pattern.lower_mnemonic hi
  refine ⟨{ mnemonic := m, variants := variantsOf resolve is m }, ?_⟩
  rw [get, get?_ofInstructions, hlower, if_pos hm]

end Lookup

/-! ## Keywords -/

namespace Keywords

theorem index?_append {is : List Instruction} {m : String} (hm : m ∈ Groups.roots is)
    (js : List Instruction) :
    (ofRooted (is ++ js)).index? m 0 none = (ofRooted is).index? m 0 none := by
  obtain ⟨i, hi⟩ := List.mem_iff_getElem?.mp hm
  have hlt : i < (Groups.roots is).length := (List.getElem?_eq_some_iff.mp hi).1
  have hroots := Groups.roots_append is js
  have hi' : (Groups.roots (is ++ js))[i]? = some m := by
    rw [hroots, List.getElem?_append_left hlt, hi]
  have hlt' : i < (Groups.roots (is ++ js)).length := (List.getElem?_eq_some_iff.mp hi').1
  have hbefore : (ofRooted is).index? m 0 none = some i :=
    index?_ofRooted.mpr (by rw [getElem?_words_ofRooted hlt, hi])
  have hafter : (ofRooted (is ++ js)).index? m 0 none = some i :=
    index?_ofRooted.mpr (by rw [getElem?_words_ofRooted hlt', hi'])
  rw [hbefore, hafter]

/-- The words that only the added instructions have, and that are no mnemonics. -/
def newWords (is js : List Instruction) : List String :=
  (((js.flatMap fun i => Pattern.words i.pattern).removeAll (Groups.roots (is ++ js))).removeAll
    ((is.flatMap fun i => Pattern.words i.pattern).removeAll (Groups.roots (is ++ js)))).eraseDups

theorem mem_newWords {is js : List Instruction} {w : String} (h : w ∈ newWords is js) :
    (∃ j ∈ js, w ∈ Pattern.words j.pattern) ∧ ∀ i ∈ is, w ∉ Pattern.words i.pattern := by
  rw [newWords, List.mem_eraseDups, Distinct.mem_removeAll, Distinct.mem_removeAll,
    Distinct.mem_removeAll] at h
  obtain ⟨⟨hjs, hroots⟩, his⟩ := h
  refine ⟨List.mem_flatMap.mp hjs, fun i hi hw => his ⟨?_, hroots⟩⟩
  exact List.mem_flatMap.mpr ⟨i, hi, hw⟩

/-- The operand words of the longer set: those of the shorter, less the ones that are
mnemonics now, and then the new ones. -/
theorem others_append (is js : List Instruction) :
    others (is ++ js) =
      (others is).filter (fun w => w ∉ Groups.roots (is ++ js)) ++ newWords is js := by
  have hkept : ∀ words : List String,
      (words.removeAll (Groups.roots is)).filter (fun w => w ∉ Groups.roots (is ++ js)) =
        words.removeAll (Groups.roots (is ++ js)) := by
    intro words
    rw [List.removeAll, List.removeAll, List.filter_filter]
    refine List.filter_congr fun w _ => ?_
    have hsub : w ∈ Groups.roots is → w ∈ Groups.roots (is ++ js) :=
      fun hw => (Groups.roots_prefix is js).subset hw
    by_cases hw : w ∈ Groups.roots (is ++ js)
    · simp [hw]
    · simp [hw, mt hsub hw]
  rw [others, List.flatMap_append, Distinct.removeAll_append, List.eraseDups_append, others,
    ← Distinct.eraseDups_filter, hkept]
  rfl

end Keywords

/-! ## All tables -/

namespace Tables

/-- Adding instructions at the end.  If the tables of the longer set can be built, so can
those of the shorter.  The mnemonics of the shorter set are the first ones of the longer, in
the same order and with the same places among the keywords.  The variants of each of them
are the first variants it has in the longer set, and whatever a search finds in the shorter
table it finds in the longer.  The operand words of the shorter set that have not become
mnemonics come first and in the same order, and behind them only words that none of its
instructions has. -/
theorem extension_undisturbed {is js : List Instruction} {t' : Tables}
    (h : build (is ++ js) = .ok t') :
    ∃ t, build is = .ok t ∧
      t.keywords.mnemonics <+: t'.keywords.mnemonics ∧
      (∀ m ∈ t.keywords.mnemonics,
        t'.keywords.index? m 0 none = t.keywords.index? m 0 none) ∧
      (∀ m ∈ t.keywords.mnemonics, ∃ e e', t.lookup.get m = .ok e ∧ t'.lookup.get m = .ok e' ∧
        e.variants <+: e'.variants) ∧
      (∀ m modes e v, t.lookup.get m = .ok e → e.find? modes = some v →
        ∃ e', t'.lookup.get m = .ok e' ∧ e'.find? modes = some v) ∧
      ∃ new, t'.keywords.operandWords =
          t.keywords.operandWords.filter (fun w => w ∉ t'.keywords.mnemonics) ++ new ∧
        ∀ w ∈ new, (∃ j ∈ js, w ∈ Pattern.words j.pattern) ∧
          ∀ i ∈ is, w ∉ Pattern.words i.pattern := by
  obtain ⟨haccepted, rfl⟩ := build_eq_ok.mp h
  have hshorter : Accepted is := fun i hi => haccepted i (List.mem_append_left _ hi)
  have hmnemonics (is : List Instruction) : (ofAccepted is).keywords.mnemonics = Groups.roots is :=
    Keywords.mnemonics_ofRooted is
  have hoperands (is : List Instruction) :
      (ofAccepted is).keywords.operandWords = Keywords.others is :=
    Keywords.operandWords_ofRooted is
  refine ⟨ofAccepted is, build_eq_ok.mpr ⟨hshorter, rfl⟩, ?_, ?_, ?_, ?_,
    Keywords.newWords is js, ?_, fun w hw => Keywords.mem_newWords hw⟩
  · rw [hmnemonics, hmnemonics]
    exact Groups.roots_prefix is js
  · intro m hm
    rw [hmnemonics] at hm
    exact Keywords.index?_append hm js
  · intro m hm
    rw [hmnemonics] at hm
    obtain ⟨e, he⟩ := Lookup.exists_get Variant.resolve hm
    obtain ⟨e', he', hprefix⟩ := Lookup.get_append Variant.resolve he js
    exact ⟨e, e', he, he', hprefix⟩
  · intro m modes e v he hv
    obtain ⟨e', he', hprefix⟩ := Lookup.get_append Variant.resolve he js
    exact ⟨e', he', hprefix.find?_eq_some hv⟩
  · rw [hoperands, hoperands, hmnemonics]
    exact Keywords.others_append is js

/-- Instructions with an operand `X`. -/
def small : List Instruction :=
  [{ pattern := "PSH X", opcode := 0, widths := [] },
    { pattern := "MOV A, X", opcode := 1, widths := [] }]

/-- Instructions that repeat a mnemonic with its modes and make a mnemonic of `X`. -/
def added : List Instruction :=
  [{ pattern := "mov A, X", opcode := 2, widths := [] },
    { pattern := "x Y", opcode := 3, widths := [] }]

theorem extension_undisturbed_small :
    build (small ++ added) = .ok (ofAccepted (small ++ added)) ∧
      (ofAccepted (small ++ added)).keywords.operandWords = ["a", "y"] ∧
      ∃ t, build small = .ok t ∧ t.keywords.mnemonics <+: ["psh", "mov", "x"] ∧
        t.keywords.operandWords.filter (fun w => w ∉ ["psh", "mov", "x"]) <+: ["a", "y"] ∧
        ∃ e', (ofAccepted (small ++ added)).lookup.get "Mov" = .ok e' ∧
          e'.find? [.regA, .regX] =
            some { opcode := 1, operandCount := 2, wordCount := 0, modes := [.regA, .regX],
                   pattern := "MOV A, X" } := by
  have hbuild : build (small ++ added) = .ok (ofAccepted (small ++ added)) :=
    rfl
  have hmnemonics : (ofAccepted (small ++ added)).keywords.mnemonics = ["psh", "mov", "x"] :=
    rfl
  have hoperands : (ofAccepted (small ++ added)).keywords.operandWords = ["a", "y"] :=
    rfl
  obtain ⟨t, ht, hprefix, -, -, hfind, new, hnew, -⟩ := extension_undisturbed hbuild
  have hsmall : build small = .ok (ofAccepted small) := rfl
  rw [hmnemonics] at hprefix hnew
  rw [hoperands] at hnew
  refine ⟨hbuild, hoperands, t, ht, hprefix, ⟨new, hnew.symm⟩, ?_⟩
  rw [hsmall] at ht
  cases ht
  exact hfind "Mov" [.regA, .regX] _ _ rfl rfl

end Tables
end AssemblerTables
