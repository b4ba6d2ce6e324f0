/-
How a pattern is cut after its mnemonic.

The mnemonic is the longest run of word characters at the start, in lower case, and the text
of the operands is what stands behind that run, without the blanks around it.  The cut is
made in the pattern as it is written, since a run and its lower case need not have the same
length.  A text of operands is a text of its own: it has the words of the pattern behind the
first one, and no word is cut in two or loses its last sigma.
-/
import AssemblerTables.Keywords
import AssemblerTables.Pattern.Split
import AssemblerTables.Proofs.Pattern.Written
import AssemblerTables.Proofs.Result
import AssemblerTables.Proofs.Text.Trimmed

namespace AssemblerTables
namespace Pattern

/-- Does `s` start with the run `word` of word characters, with none longer, and go on with
`rest`? -/
structure StartsWith (s word rest : List Char) : Prop where
  append : s = word ++ rest
  isWord : ∀ c ∈ word, Text.isWord c = true
  longest : ∀ run, run <+: s → (∀ c ∈ run, Text.isWord c = true) → run.length ≤ word.length

/-- Is a text empty, or does it start with another character than those of words? -/
def IsWordless (s : List Char) : Prop :=
  s = [] ∨ ∃ c, s.head? = some c ∧ Text.isWord c = false

variable {pattern : String}

theorem startsWith_firstWord (pattern : String) :
    StartsWith pattern.toList (firstWord pattern) (behind pattern) := by
  refine { append := toList_eq_append pattern, isWord := ?_, longest := ?_ }
  · exact List.all_eq_true.mp List.all_takeWhile
  · intro run hstart hrun
    obtain ⟨others, hothers⟩ := hstart
    rw [firstWord, ← hothers, List.takeWhile_append_of_pos hrun, List.length_append]
    exact Nat.le_add_right _ _

theorem firstWord_eq_nil : firstWord pattern = [] ↔ IsWordless pattern.toList := by
  rw [firstWord, IsWordless]
  cases pattern.toList with
  | nil => simp
  | cons c rest => cases hc : Text.isWord c <;> simp [hc]

/-! ## The two readings of a pattern -/

theorem split_eq_error {e : BuildFault} :
    split pattern = .error e ↔ IsWordless pattern.toList ∧ e = .noMnemonic pattern := by
  rw [← firstWord_eq_nil, split]
  by_cases hword : firstWord pattern = []
  · rw [split?_eq_none.mpr hword]
    simp [hword, eq_comm]
  · rw [split?_eq_some hword]
    simp [hword]

theorem split_eq_ok (h : firstWord pattern ≠ []) :
    split pattern =
      .ok (root pattern, String.ofList (Text.trim (behind pattern))) := by
  rw [split, split?_eq_some h]

theorem mnemonic_eq_error {e : BuildFault} :
    mnemonic pattern = .error e ↔ split pattern = .error e := by
  rw [mnemonic, Result.bind_eq_error]
  refine or_iff_left ?_
  intro h
  obtain ⟨_, _, h⟩ := h
  cases h

theorem mnemonic_eq_ok (h : firstWord pattern ≠ []) : mnemonic pattern = .ok (root pattern) := by
  rw [mnemonic, split_eq_ok h]
  rfl

/-- An instruction has the mnemonic of its pattern, and fails with the pattern. -/
theorem instruction_mnemonic (i : Instruction) : i.mnemonic = mnemonic i.pattern := by
  rw [Instruction.mnemonic, mnemonic, split, mnemonic?]
  cases split? i.pattern with
  | none => rfl
  | some parts => rfl

/-- The words behind the first are those of the text of the operands. -/
theorem words_eq_cons (h : firstWord pattern ≠ []) :
    words pattern =
      root pattern :: words (String.ofList (Text.trim (behind pattern))) := by
  rw [words_of_split? (split?_eq_some h), ← words_operands]

/-- A pattern is split where its first word ends, and not at all if it starts with none.  Its
mnemonic is that word in lower case, the text of its operands is what stands behind the word
without the blanks around it, and its words are the mnemonic and the words of that text. -/
theorem split_after_first_word (pattern : String) :
    (∀ i : Instruction, i.pattern = pattern → i.mnemonic = mnemonic pattern) ∧
      (∀ e, mnemonic pattern = .error e ↔
          IsWordless pattern.toList ∧ e = .noMnemonic pattern) ∧
      (∀ e, split pattern = .error e ↔
          IsWordless pattern.toList ∧ e = .noMnemonic pattern) ∧
      (¬ IsWordless pattern.toList →
        ∃ word rest text,
          StartsWith pattern.toList word rest ∧ Text.IsTrimmed Text.isBlank rest text ∧
            mnemonic pattern = .ok (Text.lower (String.ofList word)) ∧
            split pattern = .ok (Text.lower (String.ofList word), String.ofList text) ∧
            words pattern = Text.lower (String.ofList word) :: words (String.ofList text)) := by
  refine ⟨fun i hi => hi ▸ instruction_mnemonic i,
    fun e => mnemonic_eq_error.trans split_eq_error, fun e => split_eq_error, ?_⟩
  intro hstart
  have hword : firstWord pattern ≠ [] := fun hnil => hstart (firstWord_eq_nil.mp hnil)
  refine ⟨firstWord pattern, behind pattern, Text.trim (behind pattern), ?_, ?_, ?_, ?_, ?_⟩
  · exact startsWith_firstWord pattern
  · exact Text.isTrimmed_isBlank_iff.mpr rfl
  · exact mnemonic_eq_ok hword
  · exact split_eq_ok hword
  · exact words_eq_cons hword

/-- The first word is longer in lower case and ends in a sigma, and other blanks than spaces
stand around the operands. -/
def accented : String := "İΣΣ\u001c , A Σ\u3000"

theorem split_after_first_word_accented :
    ¬ IsWordless accented.toList ∧ split accented = .ok ("i\u0307σς", ", A Σ") ∧
      ∃ word rest text,
        StartsWith accented.toList word rest ∧ Text.IsTrimmed Text.isBlank rest text ∧
          split accented = .ok (Text.lower (String.ofList word), String.ofList text) ∧
          words accented = Text.lower (String.ofList word) :: words (String.ofList text) := by
  have hstart : ¬ IsWordless accented.toList := by
    rw [← firstWord_eq_nil]
    decide +kernel
  obtain ⟨-, -, -, h⟩ := split_after_first_word accented
  obtain ⟨word, rest, text, hword, htext, -, hsplit, hwords⟩ := h hstart
  exact ⟨hstart, by decide +kernel, word, rest, text, hword, htext, hsplit, hwords⟩

end Pattern
end AssemblerTables
