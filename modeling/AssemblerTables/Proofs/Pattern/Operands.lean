/-
The operands of a pattern hold all that stands behind the mnemonic.

The words of a pattern are found by running over its characters, and the operands by
cutting at commas and leaving out blanks.  Commas and blanks are no word characters, so
no word is cut, none is made longer, and none is lost between the operands.
-/
import AssemblerTables.Proofs.Pattern
import AssemblerTables.Proofs.Text.Pieces

namespace AssemblerTables
namespace Pattern

/-! ## Runs of word characters -/

variable {c : Char} {s t : List Char}

theorem wordRuns_cons (hc : Text.isWord c = false) (s : List Char) :
    wordRuns (c :: s) = wordRuns s := by
  simp [wordRuns, runs, hc]

/-- The run at the start is the mnemonic, if there is one, and the other runs are those of
the text behind it. -/
theorem runs_eq (s : List Char) :
    runs s = (s.takeWhile Text.isWord, wordRuns (s.dropWhile Text.isWord)) := by
  induction s with
  | nil => rfl
  | cons c rest ih =>
      cases hc : Text.isWord c with
      | true => simp only [runs, ih, hc, List.takeWhile_cons, List.dropWhile_cons, if_true]
      | false =>
          rw [List.takeWhile_cons_of_neg (by rw [hc]; exact Bool.false_ne_true),
            List.dropWhile_cons_of_neg (by rw [hc]; exact Bool.false_ne_true), wordRuns_cons hc]
          simp [runs, wordRuns, hc]

theorem wordRuns_eq (h : s.takeWhile Text.isWord ≠ []) :
    wordRuns s = s.takeWhile Text.isWord :: wordRuns (s.dropWhile Text.isWord) := by
  have hempty : (s.takeWhile Text.isWord).isEmpty = false := by simpa using h
  rw [wordRuns, runs_eq]
  simp [hempty]

/-- A character between words keeps the words before it and behind it apart. -/
theorem runs_append_cons (hc : Text.isWord c = false) (s t : List Char) :
    runs (s ++ c :: t) = ((runs s).1, (runs s).2 ++ wordRuns t) := by
  induction s with
  | nil => simp [runs, wordRuns, hc]
  | cons d rest ih =>
      rw [List.cons_append]
      cases hd : Text.isWord d with
      | true => simp [runs, ih, hd]
      | false =>
          cases hfirst : (runs rest).1 <;> simp [runs, ih, hd, hfirst]

theorem wordRuns_append_cons (hc : Text.isWord c = false) (s t : List Char) :
    wordRuns (s ++ c :: t) = wordRuns s ++ wordRuns t := by
  cases hfirst : (runs s).1 <;>
    simp [wordRuns, runs_append_cons hc, hfirst]

theorem wordRuns_eq_nil (h : ∀ c ∈ s, Text.isWord c = false) : wordRuns s = [] := by
  induction s with
  | nil => rfl
  | cons c rest ih =>
      rw [wordRuns_cons (h c List.mem_cons_self), ih fun d hd => h d (List.mem_cons_of_mem _ hd)]

theorem wordRuns_append_left (h : ∀ c ∈ s, Text.isWord c = false) (t : List Char) :
    wordRuns (s ++ t) = wordRuns t := by
  induction s with
  | nil => rfl
  | cons c rest ih =>
      rw [List.cons_append, wordRuns_cons (h c List.mem_cons_self),
        ih fun d hd => h d (List.mem_cons_of_mem _ hd)]

theorem wordRuns_append_right (h : ∀ c ∈ t, Text.isWord c = false) (s : List Char) :
    wordRuns (s ++ t) = wordRuns s := by
  cases t with
  | nil => rw [List.append_nil]
  | cons c rest =>
      rw [wordRuns_append_cons (h c List.mem_cons_self),
        wordRuns_eq_nil fun d hd => h d (List.mem_cons_of_mem _ hd), List.append_nil]

theorem wordRuns_trim (s : List Char) : wordRuns (Text.trim s) = wordRuns s := by
  obtain ⟨before, after, hbefore, hafter, hs⟩ := Text.exists_trim_append s
  have hblank {b : List Char} (hb : ∀ c ∈ b, Text.isBlank c = true) :
      ∀ c ∈ b, Text.isWord c = false :=
    fun c hc => Text.isWord_of_isMark (Text.isMark_of_isBlank (hb c hc))
  rw [← hs, wordRuns_append_left (hblank hbefore), wordRuns_append_right (hblank hafter), hs]

/-! ## Words of operands -/

theorem wordRuns_pieces {separator : Char} (h : Text.isWord separator = false) (s : List Char) :
    wordRuns s = (Text.pieces separator s).flatMap wordRuns := by
  induction s using Text.pieces_induction with
  | last s hs =>
      rw [Text.pieces_eq_singleton hs, List.flatMap_cons, List.flatMap_nil, List.append_nil]
  | cut first rest hfirst ih =>
      rw [Text.pieces_append hfirst, wordRuns_append_cons h, List.flatMap_cons, ih]

/-- The words of operands are those of their text. -/
theorem words_operands (text : String) : words text = (operands text).flatMap words := by
  have hcomma : Text.isWord ',' = false := by decide
  cases hblank : Text.isBlankText text.toList with
  | true =>
      have hnone : ∀ c ∈ text.toList, Text.isWord c = false := fun c hc =>
        Text.isWord_of_isMark (Text.isMark_of_isBlank (List.all_eq_true.mp hblank c hc))
      rw [operands, if_pos hblank, words, wordRuns_eq_nil hnone]
      rfl
  | false =>
      rw [operands, if_neg (by rw [hblank]; exact Bool.false_ne_true), words,
        wordRuns_pieces hcomma, List.flatMap_map, List.map_flatMap]
      refine congrArg (Text.pieces ',' text.toList).flatMap (funext fun piece => ?_)
      rw [words, String.toList_ofList, wordRuns_trim]

/-- The first word of a pattern is its mnemonic, and the others are those of its operands. -/
theorem words_of_split? {pattern m text : String} (h : split? pattern = some (m, text)) :
    words pattern = m :: (operands text).flatMap words := by
  rw [split?] at h
  split at h
  · cases h
  · rename_i hword
    cases h
    have hne : pattern.toList.takeWhile Text.isWord ≠ [] := by simpa using hword
    rw [← words_operands, words, wordRuns_eq hne, List.map_cons, words, String.toList_ofList,
      wordRuns_trim]

/-! ## Characters of operands -/

/-- Operands have no blanks around them. -/
theorem trim_operand {text operand : String} (h : operand ∈ operands text) :
    Text.trim operand.toList = operand.toList := by
  rw [operands] at h
  split at h
  · exact absurd h List.not_mem_nil
  · obtain ⟨piece, -, rfl⟩ := List.mem_map.mp h
    rw [String.toList_ofList, Text.trim_trim]

theorem mem_operands {text : String} (hc : c ∈ text.toList) :
    Text.isBlank c = true ∨ c = ',' ∨ ∃ operand ∈ operands text, c ∈ operand.toList := by
  cases hblank : Text.isBlankText text.toList with
  | true => exact .inl (List.all_eq_true.mp hblank c hc)
  | false =>
      rcases Text.mem_pieces hc with hcomma | ⟨piece, hpiece, hmem⟩
      · exact .inr (.inl hcomma)
      · rcases Text.mem_trim hmem with hb | htrim
        · exact .inl hb
        · refine .inr (.inr ⟨String.ofList (Text.trim piece), ?_, ?_⟩)
          · rw [operands, if_neg (by rw [hblank]; exact Bool.false_ne_true)]
            exact List.mem_map_of_mem hpiece
          · rw [String.toList_ofList]
            exact htrim

/-- A pattern is made of its mnemonic, its operands, blanks and commas. -/
theorem mem_of_split? {pattern m text : String} (h : split? pattern = some (m, text))
    (hc : c ∈ pattern.toList) :
    Text.isWord c = true ∨ Text.isBlank c = true ∨ c = ',' ∨
      ∃ operand ∈ operands text, c ∈ operand.toList := by
  rw [split?] at h
  split at h
  · cases h
  · cases h
    rw [← List.takeWhile_append_dropWhile (p := Text.isWord) (l := pattern.toList),
      List.mem_append] at hc
    rcases hc with hc | hc
    · exact .inl (List.all_eq_true.mp List.all_takeWhile c hc)
    · rcases Text.mem_trim hc with hb | htrim
      · exact .inr (.inl hb)
      · refine .inr (mem_operands ?_)
        rw [String.toList_ofList]
        exact htrim

end Pattern
end AssemblerTables
