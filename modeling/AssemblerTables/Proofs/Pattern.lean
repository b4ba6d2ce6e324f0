/-
What the words and the mnemonic of a pattern are made of.

Both are runs of word characters in lower case.  So they have no marks in them, and
putting them into lower case again changes nothing.
-/
import AssemblerTables.Pattern
import AssemblerTables.Proofs.Text.Case

namespace AssemblerTables
namespace Pattern

/-- The runs of a text are made of word characters, the one at its start too. -/
theorem isWord_of_mem_runs (s : List Char) :
    (∀ c ∈ (runs s).1, Text.isWord c = true) ∧
      ∀ w ∈ (runs s).2, ∀ c ∈ w, Text.isWord c = true := by
  induction s with
  | nil => simp [runs]
  | cons c rest ih =>
      obtain ⟨hfirst, hothers⟩ := ih
      simp only [runs]
      by_cases hc : Text.isWord c = true
      · rw [if_pos hc]
        refine ⟨fun d hd => ?_, hothers⟩
        rcases List.mem_cons.mp hd with rfl | hd
        · exact hc
        · exact hfirst d hd
      · rw [if_neg hc]
        refine ⟨by simp, fun w hw => ?_⟩
        by_cases hempty : (runs rest).1.isEmpty = true
        · rw [if_pos hempty] at hw
          exact hothers w hw
        · rw [if_neg hempty] at hw
          rcases List.mem_cons.mp hw with rfl | hw
          · exact hfirst
          · exact hothers w hw

theorem isWord_of_mem_wordRuns {s w : List Char} (hw : w ∈ wordRuns s) :
    ∀ c ∈ w, Text.isWord c = true := by
  obtain ⟨hfirst, hothers⟩ := isWord_of_mem_runs s
  simp only [wordRuns] at hw
  by_cases hempty : (runs s).1.isEmpty = true
  · rw [if_pos hempty] at hw
    exact hothers w hw
  · rw [if_neg hempty] at hw
    rcases List.mem_cons.mp hw with rfl | hw
    · exact hfirst
    · exact hothers w hw

/-- A run of word characters in lower case has no marks. -/
theorem unmarked_lowerChars_of_isWord {s : List Char} (hs : ∀ c ∈ s, Text.isWord c = true) :
    Text.Unmarked (Text.lowerChars s) :=
  Text.unmarked_lowerChars fun c hc => Text.isMark_of_isWord (hs c hc)

theorem isLowered_of_mem_words {pattern w : String} (hw : w ∈ words pattern) :
    ∀ c ∈ w.toList, Text.IsLowered c := by
  obtain ⟨run, -, rfl⟩ := List.mem_map.mp hw
  rw [String.toList_ofList]
  exact fun _ hc => Text.isLowered_of_mem_lowerAfter hc

theorem unmarked_of_mem_words {pattern w : String} (hw : w ∈ words pattern) :
    Text.Unmarked w.toList := by
  obtain ⟨run, hrun, rfl⟩ := List.mem_map.mp hw
  rw [String.toList_ofList]
  exact unmarked_lowerChars_of_isWord (isWord_of_mem_wordRuns hrun)

/-! ## Mnemonics -/

theorem eq_lower_of_mnemonic? {pattern m : String} (h : mnemonic? pattern = some m) :
    m = Text.lower (String.ofList (pattern.toList.takeWhile Text.isWord)) := by
  rw [Text.lower, String.toList_ofList]
  rw [mnemonic?, split?] at h
  split at h
  · simp at h
  · simpa using h.symm

theorem lower_mnemonic {pattern m : String} (h : mnemonic? pattern = some m) :
    Text.lower m = m := by
  rw [eq_lower_of_mnemonic? h, Text.lower_lower]

theorem isLowered_mnemonic {pattern m : String} (h : mnemonic? pattern = some m) :
    ∀ c ∈ m.toList, Text.IsLowered c := by
  rw [eq_lower_of_mnemonic? h, Text.lower, String.toList_ofList]
  exact fun _ hc => Text.isLowered_of_mem_lowerAfter hc

theorem unmarked_mnemonic {pattern m : String} (h : mnemonic? pattern = some m) :
    Text.Unmarked m.toList := by
  rw [eq_lower_of_mnemonic? h, Text.lower, String.toList_ofList, String.toList_ofList]
  exact unmarked_lowerChars_of_isWord (List.all_eq_true.mp List.all_takeWhile)

end Pattern
end AssemblerTables
