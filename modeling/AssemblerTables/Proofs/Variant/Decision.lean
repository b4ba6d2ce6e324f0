/-
Resolving decides its rules in a fixed order.

Whether an instruction has a variant, and for which fault it has none, can be told from its
pattern and its widths alone.  Each fault is told exactly under a condition on these, among
the instructions that the rules before it let through.  The instructions that are left have
a variant.
-/
import AssemblerTables.Proofs.Variant.Stages

namespace AssemblerTables
namespace Variant

variable {i : Instruction}

/-- What is wrong with an instruction that starts with a word. -/
theorem resolve_eq_error_iff {e : BuildFault} (h : Pattern.firstWord i.pattern ≠ []) :
    resolve i = .error e ↔
      (2 < Pattern.arity i.pattern ∧
          e = .arity i.pattern (Pattern.root i.pattern) (Pattern.arity i.pattern) "") ∨
        (Pattern.arity i.pattern ≤ 2 ∧
          (2 < i.widths.length ∨ Pattern.arity i.pattern < i.widths.length) ∧
          e = .arity i.pattern (Pattern.root i.pattern) i.widths.length
            (surplus i.widths.length (Pattern.arity i.pattern))) ∨
        ((Pattern.arity i.pattern ≤ 2 ∧ i.widths.length ≤ 2 ∧
            i.widths.length ≤ Pattern.arity i.pattern) ∧
          ((∃ operand,
              (Pattern.written i.pattern).find? (· ∉ Mode.surfaceForms) = some operand ∧
              e = .unknownForm i.pattern (Pattern.root i.pattern) operand Mode.surfaceForms) ∨
            (∀ operand ∈ Pattern.written i.pattern, operand ∈ Mode.surfaceForms) ∧
              ∃ bits, i.widths = [bits] ∧ ¬ FillsWords bits ∧
                e = .width i.pattern (Pattern.root i.pattern) bits)) := by
  have htrim : ∀ o ∈ Pattern.written i.pattern, Text.trim o.toList = o.toList :=
    fun _ ho => Pattern.trim_written ho
  have hknown : (∃ modes,
      modesOf i.pattern (Pattern.root i.pattern) (Pattern.written i.pattern) = .ok modes) ↔
        ∀ operand ∈ Pattern.written i.pattern, operand ∈ Mode.surfaceForms := by
    simp only [modesOf_eq_ok htrim]
    constructor
    · intro ⟨modes, hmodes⟩ operand hoperand
      rw [← hmodes] at hoperand
      obtain ⟨mode, -, rfl⟩ := List.mem_map.mp hoperand
      exact Mode.mem_surfaceForms.mpr ⟨mode, rfl⟩
    · exact exists_modes
  rw [resolve_eq_error h, checkArity_eq_error, checkArity_eq_ok, modesOf_eq_error htrim, hknown,
    wordsOf_eq_error, or_assoc]

/-! ## One fault after the other -/

theorem resolve_eq_noMnemonic :
    resolve i = .error (.noMnemonic i.pattern) ↔ Pattern.firstWord i.pattern = [] := by
  constructor
  · intro h
    by_contra hword
    rw [resolve_eq_error_iff hword] at h
    rcases h with ⟨-, h⟩ | ⟨-, -, h⟩ | ⟨-, ⟨operand, -, h⟩ | ⟨-, bits, -, -, h⟩⟩
    · cases h
    · cases h
    · cases h
    · cases h
  · intro h
    rw [resolve, Pattern.split?_eq_none.mpr h]

theorem resolve_eq_operands (hword : Pattern.firstWord i.pattern ≠ []) :
    resolve i = .error
        (.arity i.pattern (Pattern.root i.pattern) (Pattern.arity i.pattern) "") ↔
      2 < Pattern.arity i.pattern := by
  rw [resolve_eq_error_iff hword]
  constructor
  · intro h
    rcases h with ⟨h, -⟩ | ⟨hk, hvalues, h⟩ | ⟨-, ⟨operand, -, h⟩ | ⟨-, bits, -, -, h⟩⟩
    · exact h
    · -- The fault of the values has the same form, but tells of more values than operands.
      injection h with _ _ hcount
      omega
    · cases h
    · cases h
  · intro h
    exact .inl ⟨h, rfl⟩

theorem resolve_eq_values (hword : Pattern.firstWord i.pattern ≠ [])
    (hk : Pattern.arity i.pattern ≤ 2) :
    resolve i = .error (.arity i.pattern (Pattern.root i.pattern) i.widths.length
        (surplus i.widths.length (Pattern.arity i.pattern))) ↔
      2 < i.widths.length ∨ Pattern.arity i.pattern < i.widths.length := by
  rw [resolve_eq_error_iff hword]
  constructor
  · intro h
    rcases h with ⟨h, -⟩ | ⟨-, hvalues, -⟩ | ⟨-, ⟨operand, -, h⟩ | ⟨-, bits, -, -, h⟩⟩
    · omega
    · exact hvalues
    · cases h
    · cases h
  · intro h
    exact .inr (.inl ⟨hk, h, rfl⟩)

section Counted

variable (hword : Pattern.firstWord i.pattern ≠ [])
  (hcounts : Pattern.arity i.pattern ≤ 2 ∧ i.widths.length ≤ 2 ∧
    i.widths.length ≤ Pattern.arity i.pattern)
include hword hcounts

theorem resolve_eq_unknownForm {operand : String} :
    resolve i = .error
        (.unknownForm i.pattern (Pattern.root i.pattern) operand Mode.surfaceForms) ↔
      (Pattern.written i.pattern).find? (· ∉ Mode.surfaceForms) = some operand := by
  rw [resolve_eq_error_iff hword]
  constructor
  · intro h
    rcases h with ⟨-, h⟩ | ⟨-, -, h⟩ | ⟨-, ⟨first, hfirst, h⟩ | ⟨-, bits, -, -, h⟩⟩
    · cases h
    · cases h
    · cases h
      exact hfirst
    · cases h
  · intro h
    exact .inr (.inr ⟨hcounts, .inl ⟨operand, h, rfl⟩⟩)

theorem resolve_eq_width (hforms : ∀ operand ∈ Pattern.written i.pattern,
      operand ∈ Mode.surfaceForms) {bits : Int} :
    resolve i = .error (.width i.pattern (Pattern.root i.pattern) bits) ↔
      i.widths = [bits] ∧ ¬ FillsWords bits := by
  rw [resolve_eq_error_iff hword]
  constructor
  · intro h
    rcases h with ⟨-, h⟩ | ⟨-, -, h⟩ | ⟨-, ⟨operand, -, h⟩ | ⟨-, bits', hbits, hfills, h⟩⟩
    · cases h
    · cases h
    · cases h
    · cases h
      exact ⟨hbits, hfills⟩
  · intro ⟨hbits, hfills⟩
    exact .inr (.inr ⟨hcounts, .inr ⟨hforms, bits, hbits, hfills, rfl⟩⟩)

/-- Nothing else is asked for. -/
theorem exists_fits (hforms : ∀ operand ∈ Pattern.written i.pattern, operand ∈ Mode.surfaceForms)
    (hfills : ∀ bits, i.widths = [bits] → FillsWords bits) : ∃ v, Fits i v := by
  obtain ⟨modes, hmodes⟩ := exists_modes hforms
  have hlength : modes.length = Pattern.arity i.pattern := by
    rw [← Pattern.length_written, ← hmodes, List.length_map]
  obtain ⟨words, hwords⟩ := exists_hasWords hfills
  have hmost : modes.length ≤ 2 := by omega
  have hvalues : i.widths.length ≤ modes.length := by omega
  refine ⟨{ opcode := i.opcode, operandCount := modes.length, wordCount := words,
            modes := modes, pattern := i.pattern }, ?_⟩
  exact {
    firstWord := hword, operands := hmodes, most := hmost, values := hvalues,
    words := hwords, opcode := rfl, operandCount := rfl, pattern := rfl }

end Counted

/-! ## All rules -/

/-- The rules in order, each for the instructions that those before it let through.  With
`k` operands written and `a` values declared: an instruction is refused if it starts with no
word, if `k` is more than two, if `a` is more than two or more than `k`, for the leftmost
operand that is no surface form, and if its single value does not fill whole words.  All
others have a variant, with a mode for every operand and the words of the single value. -/
theorem resolve_decides (i : Instruction) :
    let m := Pattern.root i.pattern
    let k := Pattern.arity i.pattern
    let a := i.widths.length
    (resolve i = .error (.noMnemonic i.pattern) ↔ Pattern.firstWord i.pattern = []) ∧
    (Pattern.firstWord i.pattern ≠ [] →
      (resolve i = .error (.arity i.pattern m k "") ↔ 2 < k) ∧
      (k ≤ 2 →
        (resolve i = .error (.arity i.pattern m a (surplus a k)) ↔ 2 < a ∨ k < a) ∧
        (a ≤ 2 → a ≤ k →
          (∀ operand, resolve i = .error (.unknownForm i.pattern m operand Mode.surfaceForms) ↔
            (Pattern.written i.pattern).find? (· ∉ Mode.surfaceForms) = some operand) ∧
          ((∀ operand ∈ Pattern.written i.pattern, operand ∈ Mode.surfaceForms) →
            (∀ bits, resolve i = .error (.width i.pattern m bits) ↔
              i.widths = [bits] ∧ ¬ (0 < bits ∧ 8 ∣ bits)) ∧
            ((∀ bits, i.widths = [bits] → 0 < bits ∧ 8 ∣ bits) →
              ∃ v, resolve i = .ok v ∧ v.opcode = i.opcode ∧ v.pattern = i.pattern ∧
                v.operandCount = k ∧ v.modes.length = k ∧
                v.modes.map Mode.surface = Pattern.written i.pattern ∧
                (∀ bits, i.widths = [bits] → 8 * v.wordCount = bits) ∧
                (a ≠ 1 → v.wordCount = 0) ∧ (k = 0 → v.wordCount = 0)))))) := by
  intro m k a
  refine ⟨resolve_eq_noMnemonic, fun hword => ⟨resolve_eq_operands hword, fun hk =>
    ⟨resolve_eq_values hword hk, fun ha hak => ?_⟩⟩⟩
  have hcounts : k ≤ 2 ∧ a ≤ 2 ∧ a ≤ k := ⟨hk, ha, hak⟩
  refine ⟨fun operand => resolve_eq_unknownForm hword hcounts, fun hforms =>
    ⟨fun bits => resolve_eq_width hword hcounts hforms, fun hfills => ?_⟩⟩
  obtain ⟨v, hv⟩ := exists_fits hword hcounts hforms hfills
  have hlength : v.modes.length = k := by
    show _ = Pattern.arity i.pattern
    rw [← Pattern.length_written, ← hv.operands, List.length_map]
  refine ⟨v, resolve_eq_ok_iff_fits.mpr hv, hv.opcode, hv.pattern, ?_, hlength, hv.operands,
    fun bits hbits => (hv.words.1 bits hbits).2, hv.words.2, fun hnone => hv.words.2 ?_⟩
  · rw [hv.operandCount, hlength]
  · omega

/-- Operands in brackets with blanks of other kinds around them, and one value. -/
def indexed : Instruction :=
  { pattern := "MOV\u3000Y , X(%)Y\t", opcode := 7, widths := [24] }

theorem resolve_decides_indexed :
    Pattern.firstWord indexed.pattern ≠ [] ∧ Pattern.arity indexed.pattern = 2 ∧
      Pattern.written indexed.pattern = ["Y", "X(%)Y"] ∧
      ∃ v, resolve indexed = .ok v ∧ v.operandCount = 2 ∧
        v.modes.map Mode.surface = ["Y", "X(%)Y"] ∧ 8 * v.wordCount = 24 := by
  have hword : Pattern.firstWord indexed.pattern ≠ [] := by decide +kernel
  have harity : Pattern.arity indexed.pattern = 2 := by decide +kernel
  have hwritten : Pattern.written indexed.pattern = ["Y", "X(%)Y"] := by decide +kernel
  have hforms : ∀ operand ∈ Pattern.written indexed.pattern, operand ∈ Mode.surfaceForms := by
    rw [hwritten]
    decide
  have hfills : ∀ bits, indexed.widths = [bits] → 0 < bits ∧ 8 ∣ bits := by
    intro bits hbits
    cases hbits
    decide
  obtain ⟨-, h⟩ := resolve_decides indexed
  obtain ⟨-, h⟩ := h hword
  rw [harity] at h
  obtain ⟨-, h⟩ := h (by decide)
  obtain ⟨-, h⟩ := h (by decide) (by decide)
  obtain ⟨-, h⟩ := h hforms
  obtain ⟨v, hv, -, -, hcount, -, hmodes, hwords, -⟩ := h hfills
  rw [hwritten] at hmodes
  exact ⟨hword, harity, hwritten, v, hv, hcount, hmodes, hwords 24 rfl⟩

end Variant
end AssemblerTables
