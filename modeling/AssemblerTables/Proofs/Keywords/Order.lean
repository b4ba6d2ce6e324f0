/-
What stands in the keyword table, and in which order.

The table has two parts, and each lists words in the order in which they first occur: the
mnemonics among the first words of the patterns, and the others among all words from left to
right.  A word goes to the first part if any pattern starts with it, also one that comes
after the word has been an operand.  Since the first word of a pattern is one of its words,
both parts together are all words of all patterns.
-/
import AssemblerTables.Proofs.Keywords

namespace AssemblerTables
namespace Keywords

variable {is : List Instruction}

/-- The first word of a pattern is one of its words. -/
theorem root_mem_words {pattern : String} (h : Pattern.firstWord pattern ≠ []) :
    Pattern.root pattern ∈ Pattern.words pattern := by
  rw [Pattern.words_of_split? (Pattern.split?_eq_some h)]
  exact List.mem_cons_self

section Words

variable (h : ∀ i ∈ is, Pattern.firstWord i.pattern ≠ [])
include h

theorem firstSeen_others :
    Distinct.FirstSeen
      ((is.flatMap fun i => Pattern.words i.pattern).filter
        (· ∉ is.map fun i => Pattern.root i.pattern))
      (others is) := by
  have hother : (is.flatMap fun i => Pattern.words i.pattern).removeAll (Groups.roots is) =
      (is.flatMap fun i => Pattern.words i.pattern).filter
        (· ∉ is.map fun i => Pattern.root i.pattern) := by
    refine List.filter_congr fun w _ => ?_
    rw [Bool.eq_iff_iff, decide_eq_true_iff, ← (Groups.firstSeen_roots h).mem_iff w]
    simp
  rw [others, hother]
  exact Distinct.firstSeen_eraseDups _

theorem mem_words_ofRooted (w : String) :
    w ∈ (ofRooted is).words ↔ ∃ i ∈ is, w ∈ Pattern.words i.pattern := by
  rw [ofRooted, List.mem_eraseDups, List.mem_append, List.mem_flatMap,
    (Groups.firstSeen_roots h).mem_iff w, List.mem_map]
  constructor
  · rintro (⟨i, hi, rfl⟩ | hw)
    · exact ⟨i, hi, root_mem_words (h i hi)⟩
    · exact hw
  · exact .inr

end Words

theorem ofInstructions_eq_error {i : Instruction}
    (h : is.find? (fun j => (Pattern.firstWord j.pattern).isEmpty) = some i) :
    ofInstructions is = .error (.noMnemonic i.pattern) := by
  rw [ofInstructions, Instruction.mapM_mnemonic_of_find? h]
  rfl

/-- The keyword table of patterns that all start with a word has the distinct first words,
as many as are counted, and then the distinct words that no pattern starts with, both in
the order in which they first occur.  No keyword stands in it twice, and the keywords are
the words of the patterns.  Where a pattern does not start with a word there is no table,
and the first such pattern is to blame. -/
theorem words_in_order (is : List Instruction) :
    ((∀ i ∈ is, Pattern.firstWord i.pattern ≠ []) →
      ∃ (k : Keywords) (mnemonics others : List String),
        ofInstructions is = .ok k ∧
          k.words = mnemonics ++ others ∧
          k.mnemonicCount = mnemonics.length ∧
          Distinct.FirstSeen (is.map fun i => Pattern.root i.pattern) mnemonics ∧
          Distinct.FirstSeen
            ((is.flatMap fun i => Pattern.words i.pattern).filter
              (· ∉ is.map fun i => Pattern.root i.pattern))
            others ∧
          k.words.Nodup ∧
          ∀ w, w ∈ k.words ↔ ∃ i ∈ is, w ∈ Pattern.words i.pattern) ∧
    ((∃ i ∈ is, Pattern.firstWord i.pattern = []) →
      ∃ i, is.find? (fun j => (Pattern.firstWord j.pattern).isEmpty) = some i ∧
        ofInstructions is = .error (.noMnemonic i.pattern)) := by
  constructor
  · intro h
    exact ⟨ofRooted is, Groups.roots is, others is, ofInstructions_eq (Groups.exists_root? h),
      words_ofRooted is, rfl, Groups.firstSeen_roots h, firstSeen_others h,
      nodup_words_ofRooted is, mem_words_ofRooted h⟩
  · intro h
    obtain ⟨i, hi⟩ := Instruction.exists_find?_wordless h
    exact ⟨i, hi, ofInstructions_eq_error hi⟩

/-- `INC` is an operand before it is a mnemonic, and `Mov` comes back in other letters. -/
def returning : List Instruction :=
  [{ pattern := "Mov Inc, Y", opcode := 0, widths := [] },
    { pattern := "INC x, y", opcode := 1, widths := [] },
    { pattern := "mov X, mov", opcode := 2, widths := [] }]

/-- Two patterns start with no word. -/
def wordless : List Instruction :=
  returning ++ [{ pattern := " mov", opcode := 3, widths := [] },
    { pattern := "", opcode := 4, widths := [] }]

theorem words_in_order_returning :
    ofInstructions returning = .ok { words := ["mov", "inc", "y", "x"], mnemonicCount := 2 } ∧
      (∃ k, ofInstructions returning = .ok k ∧ k.words.Nodup ∧
        ∀ w, w ∈ k.words ↔ ∃ i ∈ returning, w ∈ Pattern.words i.pattern) ∧
      ofInstructions wordless = .error (.noMnemonic " mov") := by
  have hreturning : ∀ i ∈ returning, Pattern.firstWord i.pattern ≠ [] := by decide +kernel
  obtain ⟨k, -, -, hk, -, -, -, -, hnodup, hwords⟩ := (words_in_order returning).1 hreturning
  have hwordless : ∃ i ∈ wordless, Pattern.firstWord i.pattern = [] := by decide +kernel
  obtain ⟨i, hi, herror⟩ := (words_in_order wordless).2 hwordless
  have hfirst : wordless.find? (fun j => (Pattern.firstWord j.pattern).isEmpty) =
      some { pattern := " mov", opcode := 3, widths := [] } := by
    decide +kernel
  rw [hfirst] at hi
  cases hi
  exact ⟨by decide +kernel, ⟨k, hk, hnodup, hwords⟩, herror⟩

end Keywords
end AssemblerTables
