/-
Texts taken apart: blanks left out at the ends, and cuts at a separator.

What was written with blanks around it and separators behind it is found again if it has
no separator in it and no blank at its own ends.
-/
import AssemblerTables.Proofs.Text.Marks
import AssemblerTables.Text.Pieces
import Mathlib.Data.List.DropRight

namespace AssemblerTables
namespace Text

/-! ## Ends -/

section Ends

variable {p : Char → Bool} {s t : List Char}

theorem dropStart_append (h : ∀ c ∈ s, p c = true) : dropStart p (s ++ t) = dropStart p t :=
  List.dropWhile_append_of_pos h

theorem dropStart_eq_self (h : ∀ c ∈ s, p c = false) : dropStart p s = s := by
  cases s with
  | nil => rfl
  | cons c rest =>
      have hc := h c List.mem_cons_self
      rw [dropStart, List.dropWhile_cons_of_neg (by rw [hc]; exact Bool.false_ne_true)]

/-- Nothing is left out before a character that stays. -/
theorem dropEnd_append_cons {c : Char} (hc : p c = false) (s t : List Char) :
    dropEnd p (s ++ c :: t) = s ++ c :: dropEnd p t := by
  have hreverse : (s ++ c :: t).reverse = t.reverse ++ c :: s.reverse := by
    rw [List.reverse_append, List.reverse_cons, List.append_assoc]
    rfl
  have hstay : (c :: s.reverse).dropWhile p = c :: s.reverse :=
    List.dropWhile_cons_of_neg (by rw [hc]; exact Bool.false_ne_true)
  rw [dropEnd, dropEnd, hreverse, List.dropWhile_append, hstay]
  cases hrest : t.reverse.dropWhile p with
  | nil =>
      show (c :: s.reverse).reverse = _
      rw [List.reverse_cons, List.reverse_reverse]
      rfl
  | cons d others =>
      show (d :: others ++ c :: s.reverse).reverse = _
      rw [List.reverse_append, List.reverse_cons, List.reverse_reverse, List.append_assoc]
      rfl

theorem dropEnd_eq_nil (h : ∀ c ∈ s, p c = true) : dropEnd p s = [] := by
  have hreverse : ∀ c ∈ s.reverse, p c = true := fun c hc => h c (List.mem_reverse.mp hc)
  rw [dropEnd, ← List.append_nil s.reverse, List.dropWhile_append_of_pos hreverse]
  rfl

theorem dropEnd_eq_self (h : ∀ c ∈ s, p c = false) : dropEnd p s = s := by
  have hstart : dropStart p s.reverse = s.reverse :=
    dropStart_eq_self fun c hc => h c (List.mem_reverse.mp hc)
  rw [dropStart] at hstart
  rw [dropEnd, hstart, List.reverse_reverse]

theorem dropEnd_append (h : ∀ c ∈ t, p c = true) : dropEnd p (s ++ t) = dropEnd p s := by
  have hreverse : ∀ c ∈ t.reverse, p c = true := fun c hc => h c (List.mem_reverse.mp hc)
  rw [dropEnd, List.reverse_append, List.dropWhile_append_of_pos hreverse, dropEnd]

theorem exists_dropEnd_append (p : Char → Bool) (s : List Char) :
    ∃ after, (∀ c ∈ after, p c = true) ∧ dropEnd p s ++ after = s := by
  refine ⟨(s.reverse.takeWhile p).reverse, fun c hc => ?_, ?_⟩
  · exact List.all_eq_true.mp List.all_takeWhile c (List.mem_reverse.mp hc)
  · rw [dropEnd, ← List.reverse_append, List.takeWhile_append_dropWhile, List.reverse_reverse]

end Ends

/-! ## Blanks around a text -/

/-- What is left out of a text are blanks. -/
theorem exists_trim_append (s : List Char) :
    ∃ before after, (∀ c ∈ before, isBlank c = true) ∧ (∀ c ∈ after, isBlank c = true) ∧
      before ++ (trim s ++ after) = s := by
  obtain ⟨after, hafter, hend⟩ := exists_dropEnd_append isBlank (dropStart isBlank s)
  refine ⟨s.takeWhile isBlank, after, List.all_eq_true.mp List.all_takeWhile, hafter, ?_⟩
  rw [trim, hend, dropStart, List.takeWhile_append_dropWhile]

theorem mem_trim {s : List Char} {c : Char} (hc : c ∈ s) : isBlank c = true ∨ c ∈ trim s := by
  obtain ⟨before, after, hbefore, hafter, hs⟩ := exists_trim_append s
  rw [← hs, List.mem_append, List.mem_append] at hc
  rcases hc with hc | hc | hc
  · exact .inl (hbefore c hc)
  · exact .inr hc
  · exact .inl (hafter c hc)

theorem trim_append {s t : List Char} (h : ∀ c ∈ s, isBlank c = true) :
    trim (s ++ t) = trim t := by
  rw [trim, dropStart_append h, ← trim]

theorem trim_append_right {s t : List Char} (h : ∀ c ∈ t, isBlank c = true) :
    trim (s ++ t) = trim s := by
  have hnone : t.dropWhile isBlank = [] := by simpa using h
  rw [trim, dropStart, List.dropWhile_append, hnone]
  by_cases hs : (s.dropWhile isBlank).isEmpty = true
  · rw [if_pos hs, trim, dropStart, List.isEmpty_iff.mp hs]
  · rw [if_neg hs, dropEnd_append h, trim, dropStart]

/-- Blanks on both sides of a text are left out, and no others. -/
theorem trim_padded {before after s : List Char} (hbefore : ∀ c ∈ before, isBlank c = true)
    (hafter : ∀ c ∈ after, isBlank c = true) : trim (before ++ s ++ after) = trim s := by
  rw [trim_append_right hafter, trim_append hbefore]

theorem isBlankText_trim (s : List Char) : isBlankText (trim s) = isBlankText s := by
  obtain ⟨before, after, hbefore, hafter, hs⟩ := exists_trim_append s
  have hsides : before.all isBlank = true ∧ after.all isBlank = true :=
    ⟨List.all_eq_true.mpr hbefore, List.all_eq_true.mpr hafter⟩
  conv_rhs => rw [← hs]
  simp [isBlankText, hsides]

theorem trim_eq_nil {s : List Char} (h : ∀ c ∈ s, isBlank c = true) : trim s = [] := by
  rw [← List.append_nil s, trim_append h]
  rfl

theorem trim_of_unmarked {s : List Char} (h : Unmarked s) : trim s = s := by
  have hblank : ∀ c ∈ s, isBlank c = false := fun c hc => isBlank_of_unmarked h hc
  rw [trim, dropStart_eq_self hblank, dropEnd_eq_self hblank]

theorem trim_trim (s : List Char) : trim (trim s) = trim s := by
  rw [trim, trim]
  cases hs : dropStart isBlank s with
  | nil => rfl
  | cons c rest =>
      have hc : isBlank c = false := by
        have hhead := List.head_dropWhile_not isBlank (l := s) (by
          rw [dropStart] at hs
          simp [hs])
        rw [dropStart] at hs
        simpa [hs] using hhead
      have hend : dropEnd isBlank (c :: rest) = c :: dropEnd isBlank rest :=
        dropEnd_append_cons hc [] rest
      have hstart : dropStart isBlank (c :: dropEnd isBlank rest) = c :: dropEnd isBlank rest := by
        rw [dropStart, List.dropWhile_cons_of_neg (by rw [hc]; exact Bool.false_ne_true)]
      rw [hend, hstart, ← hend, dropEnd, dropEnd, List.reverse_reverse,
        List.dropWhile_idempotent]

/-- Blanks inside a text stay. -/
theorem trim_between {c : Char} {s t : List Char} (hc : isBlank c = false)
    (hblank : ∀ d ∈ t, isBlank d = false) (hne : t ≠ []) : trim (c :: s ++ t) = c :: s ++ t := by
  have hstart : dropStart isBlank (c :: s ++ t) = c :: s ++ t := by
    rw [dropStart, List.cons_append,
      List.dropWhile_cons_of_neg (by rw [hc]; exact Bool.false_ne_true)]
  rcases List.eq_nil_or_concat t with rfl | ⟨init, d, rfl⟩
  · exact absurd rfl hne
  · rw [trim, hstart, List.concat_eq_append, ← List.append_assoc,
      dropEnd_append_cons (hblank d (by simp))]
    rfl

/-! ## Pieces -/

section Pieces

variable {separator : Char} {s : List Char}

theorem pieces_eq_singleton (h : separator ∉ s) : pieces separator s = [s] := by
  induction s with
  | nil => rfl
  | cons c rest ih =>
      rw [List.mem_cons, not_or] at h
      rw [pieces, if_neg (Ne.symm h.1), ih h.2]

theorem pieces_append (h : separator ∉ s) (t : List Char) :
    pieces separator (s ++ separator :: t) = s :: pieces separator t := by
  induction s with
  | nil => rw [List.nil_append, pieces, if_pos rfl]
  | cons c rest ih =>
      rw [List.mem_cons, not_or] at h
      rw [List.cons_append, pieces, if_neg (Ne.symm h.1), ih h.2]

/-- A text has no separator, or a first one with a shorter text behind it. -/
theorem pieces_induction {motive : List Char → Prop}
    (last : ∀ s, separator ∉ s → motive s)
    (cut : ∀ first rest, separator ∉ first → motive rest → motive (first ++ separator :: rest))
    (s : List Char) : motive s := by
  generalize hn : s.length = n
  induction n using Nat.strongRecOn generalizing s with
  | ind n ih =>
      by_cases hs : separator ∈ s
      · obtain ⟨first, rest, rfl, hfirst⟩ := List.eq_append_cons_of_mem hs
        have hshort : rest.length < n := by
          rw [← hn, List.length_append, List.length_cons]
          omega
        exact cut first rest hfirst (ih _ hshort rest rfl)
      · exact last s hs

/-- Every character but the separators is in a piece. -/
theorem mem_pieces {c : Char} (hc : c ∈ s) :
    c = separator ∨ ∃ piece ∈ pieces separator s, c ∈ piece := by
  induction s using pieces_induction with
  | last s hs =>
      rw [pieces_eq_singleton hs]
      exact .inr ⟨s, List.mem_cons_self, hc⟩
  | cut first rest hfirst ih =>
      rw [pieces_append hfirst]
      rw [List.mem_append, List.mem_cons] at hc
      rcases hc with hc | hc | hc
      · exact .inr ⟨first, List.mem_cons_self, hc⟩
      · exact .inl hc
      · rcases ih hc with hsame | ⟨piece, hpiece, hmem⟩
        · exact .inl hsame
        · exact .inr ⟨piece, List.mem_cons_of_mem _ hpiece, hmem⟩

theorem mem_of_mem_pieces {piece : List Char} {c : Char} (h : piece ∈ pieces separator s)
    (hc : c ∈ piece) : c ∈ s := by
  induction s using pieces_induction with
  | last s hs =>
      rw [pieces_eq_singleton hs] at h
      rw [← List.mem_singleton.mp h]
      exact hc
  | cut first rest hfirst ih =>
      rw [pieces_append hfirst] at h
      rw [List.mem_append, List.mem_cons]
      rcases List.mem_cons.mp h with rfl | h
      · exact .inl hc
      · exact .inr (.inr (ih h))

/-- No piece has a separator. -/
theorem not_mem_of_mem_pieces {piece : List Char} (h : piece ∈ pieces separator s) :
    separator ∉ piece := by
  induction s using pieces_induction with
  | last s hs =>
      rw [pieces_eq_singleton hs] at h
      rw [List.mem_singleton.mp h]
      exact hs
  | cut first rest hfirst ih =>
      rw [pieces_append hfirst] at h
      rcases List.mem_cons.mp h with rfl | h
      · exact hfirst
      · exact ih h

theorem length_pieces (separator : Char) (s : List Char) :
    (pieces separator s).length = s.count separator + 1 := by
  induction s using pieces_induction with
  | last s hs =>
      rw [pieces_eq_singleton hs, List.count_eq_zero_of_not_mem hs]
      rfl
  | cut first rest hfirst ih =>
      rw [pieces_append hfirst, List.length_cons, ih]
      simp [List.count_eq_zero_of_not_mem hfirst]

/-- Pieces are the same up to blanks if the text is padded with blanks, or not. -/
theorem map_trim_pieces (hseparator : isBlank separator = false) {before after : List Char}
    (hbefore : ∀ c ∈ before, isBlank c = true) (hafter : ∀ c ∈ after, isBlank c = true) :
    (pieces separator (before ++ (s ++ after))).map trim = (pieces separator s).map trim := by
  have hmem {b : List Char} (hb : ∀ c ∈ b, isBlank c = true) : separator ∉ b := by
    intro h
    rw [hb separator h] at hseparator
    cases hseparator
  induction s using pieces_induction generalizing before with
  | last s hs =>
      rw [pieces_eq_singleton hs]
      have hpadded : separator ∉ before ++ (s ++ after) := by
        simp [hmem hbefore, hs, hmem hafter]
      rw [pieces_eq_singleton hpadded, ← List.append_assoc,
        List.map_singleton, trim_padded hbefore hafter, List.map_singleton]
  | cut first rest hfirst ih =>
      rw [pieces_append hfirst]
      have hpadded : separator ∉ before ++ first := by simp [hmem hbefore, hfirst]
      have htext : before ++ (first ++ separator :: rest ++ after) =
          before ++ first ++ separator :: ([] ++ (rest ++ after)) := by simp
      rw [htext, pieces_append hpadded, List.map_cons, List.map_cons, ih (by simp),
        trim_append hbefore]

theorem pieces_eq_splitOn (separator : Char) (s : List Char) :
    pieces separator s = s.splitOn separator := by
  induction s with
  | nil => rfl
  | cons c rest ih =>
      rw [pieces, ih, List.splitOn, List.splitOn, List.splitOnP_cons_eq_if_modifyHead]
      by_cases hc : c = separator
      · rw [if_pos hc, if_pos (beq_iff_eq.mpr hc)]
      · have hother : ¬ (c == separator) = true := fun h => hc (beq_iff_eq.mp h)
        rw [if_neg hc, if_neg hother]
        cases hpieces : rest.splitOnP (· == separator) with
        | nil => exact absurd hpieces (List.splitOnP_ne_nil _ _)
        | cons piece others => rfl

/-- Texts that were joined at a separator are the pieces at it. -/
theorem pieces_joined {between : String} {parts : List String}
    (hbetween : between.toList = [separator]) (hne : parts ≠ [])
    (h : ∀ part ∈ parts, separator ∉ part.toList) :
    pieces separator (String.intercalate between parts).toList = parts.map String.toList := by
  have hparts : ∀ chars ∈ parts.map String.toList, separator ∉ chars := by
    intro chars hchars
    obtain ⟨part, hpart, rfl⟩ := List.mem_map.mp hchars
    exact h part hpart
  rw [pieces_eq_splitOn, String.toList_intercalate, hbetween]
  exact List.splitOn_intercalate separator hparts (mt List.map_eq_nil_iff.mp hne)

theorem map_ofList_map_toList (parts : List String) :
    (parts.map String.toList).map String.ofList = parts := by
  rw [List.map_map]
  exact (List.map_congr_left fun part _ => String.ofList_toList).trans (List.map_id parts)

end Pieces

end Text
end AssemblerTables
