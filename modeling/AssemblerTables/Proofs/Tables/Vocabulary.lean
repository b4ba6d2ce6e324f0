/-
The operand words of an instruction set are the names of registers.

A keyword behind the mnemonics is a word of some pattern, and not its first.  The patterns
of resolved instructions have no other words there than those of the surface forms, and in
these the only words are the registers.  So however many instructions there are, six
keywords at most stand behind the mnemonics.
-/
import AssemblerTables.Proofs.Tables
import Mathlib.Data.List.Perm.Subperm

namespace AssemblerTables

/-! ## Words of surface forms -/

/-- The registers in lower case, which is how keywords are written. -/
def registerWords : List String :=
  ["a", "x", "y", "f", "stl", "sth"]

theorem Mode.words_surface (m : Mode) : ∀ w ∈ Pattern.words m.surface, w ∈ registerWords := by
  cases m <;> decide

namespace Keywords

theorem mem_others {is : List Instruction} {w : String} :
    w ∈ others is ↔ (∃ i ∈ is, w ∈ Pattern.words i.pattern) ∧ w ∉ Groups.roots is := by
  rw [others, List.mem_eraseDups, Distinct.mem_removeAll, List.mem_flatMap]

theorem nodup_others (is : List Instruction) : (others is).Nodup :=
  Distinct.nodup_eraseDups _

/-- A word of a resolved instruction that is no mnemonic is a register. -/
theorem others_subset {is : List Instruction} (h : Tables.Accepted is) :
    others is ⊆ registerWords := by
  intro w hw
  obtain ⟨⟨i, hi, hword⟩, hroot⟩ := mem_others.mp hw
  obtain ⟨v, hv⟩ := h i hi
  obtain ⟨m, hm, hwords⟩ := Variant.words_of_resolve hv
  rw [hwords, List.mem_cons, List.mem_flatMap] at hword
  rcases hword with rfl | ⟨mode, -, hsurface⟩
  · exact absurd (Groups.mem_roots.mpr ⟨i, hi, hm⟩) hroot
  · exact mode.words_surface w hsurface

theorem length_others_le {is : List Instruction} (h : Tables.Accepted is) :
    (others is).length ≤ registerWords.length :=
  ((nodup_others is).subperm (others_subset h)).length_le

/-- What stands at a place behind the mnemonics. -/
theorem mem_others_of_get? {is : List Instruction} {place : Int} {w : String}
    (hplace : (ofRooted is).mnemonicCount ≤ place) (h : (ofRooted is).get? place = some w) :
    w ∈ others is := by
  have hcount : (ofRooted is).mnemonicCount = ((Groups.roots is).length : Int) := rfl
  obtain ⟨n, rfl⟩ : ∃ n : Nat, place = n := Int.eq_ofNat_of_zero_le (by omega)
  have hn : (Groups.roots is).length ≤ n := by omega
  rw [get?_eq_getElem?, words_ofRooted, List.getElem?_append_right hn] at h
  exact List.mem_of_getElem? h

end Keywords

namespace Tables

/-- Every keyword at or behind the place of the mnemonic count is a register, so there are at
most six more keywords than mnemonics, whatever the instruction set. -/
theorem operand_words_closed {is : List Instruction} {t : Tables} (h : build is = .ok t) :
    (∀ (place : Int) (w : String), t.keywords.mnemonicCount ≤ place →
        t.keywords.get? place = some w → w ∈ ["a", "x", "y", "f", "stl", "sth"]) ∧
      (t.keywords.size : Int) ≤ t.keywords.mnemonicCount + 6 := by
  obtain ⟨haccepted, rfl⟩ := build_eq_ok.mp h
  constructor
  · intro place w hplace hw
    exact Keywords.others_subset haccepted (Keywords.mem_others_of_get? hplace hw)
  · have hothers := Keywords.length_others_le haccepted
    have hlength : registerWords.length = 6 := rfl
    have hcount : (ofAccepted is).keywords.mnemonicCount = ((Groups.roots is).length : Int) := rfl
    have hsize : (ofAccepted is).keywords.size =
        (Groups.roots is).length + (Keywords.others is).length := by
      show (Keywords.ofRooted is).words.length = _
      rw [Keywords.words_ofRooted, List.length_append]
    omega

/-- All registers, with blanks of other kinds around them and with none. -/
def registers : List Instruction :=
  [{ pattern := "MOV[%]\u3000,\tX(%)Y", opcode := 0, widths := [] },
    { pattern := "swp STL,STH ", opcode := 1, widths := [] },
    { pattern := "mov F , A", opcode := 2, widths := [] }]

theorem operand_words_closed_registers :
    build registers = .ok (ofAccepted registers) ∧
      (ofAccepted registers).keywords.mnemonicCount = 2 ∧
      (ofAccepted registers).keywords.size = 8 ∧
      (∀ (place : Int) (w : String), 2 ≤ place →
        (ofAccepted registers).keywords.get? place = some w →
          w ∈ ["a", "x", "y", "f", "stl", "sth"]) ∧
      ((ofAccepted registers).keywords.size : Int) ≤ 2 + 6 := by
  have hbuild : build registers = .ok (ofAccepted registers) :=
    rfl
  have hcount : (ofAccepted registers).keywords.mnemonicCount = 2 := by decide +kernel
  have hsize : (ofAccepted registers).keywords.size = 8 := by decide +kernel
  obtain ⟨hwords, hmost⟩ := operand_words_closed hbuild
  rw [hcount] at hwords hmost
  exact ⟨hbuild, hcount, hsize, hwords, hmost⟩

end Tables
end AssemblerTables
