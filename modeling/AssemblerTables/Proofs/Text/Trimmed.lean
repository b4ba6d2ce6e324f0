/-
Texts without the characters of a kind at their ends.

A text is cut from both sides, one after the other.  What comes of it can be said without
the two steps: characters of the kind stand all around it, and it neither starts nor ends
with one.  There is only one such part of a text.
-/
import AssemblerTables.Proofs.Text.Pieces

namespace AssemblerTables
namespace Text

/-- Is `t` the text `s` without the characters of the kind at its ends? -/
structure IsTrimmed (kind : Char → Bool) (s t : List Char) : Prop where
  around : ∃ before after,
    (∀ c ∈ before, kind c = true) ∧ (∀ c ∈ after, kind c = true) ∧ s = before ++ t ++ after
  starts : ∀ c, t.head? = some c → kind c = false
  ends : ∀ c, t.getLast? = some c → kind c = false

variable {kind : Char → Bool} {s t : List Char}

theorem dropEnd_eq_self_of_getLast? (h : ∀ c, t.getLast? = some c → kind c = false) :
    dropEnd kind t = t := by
  refine List.rdropWhile_eq_self_iff.mpr fun hne => ?_
  simp [h _ (List.getLast?_eq_some_getLast hne)]

/-- Nothing is left out of a text before one with a character that stays. -/
theorem dropEnd_append_of_mem {c : Char} (hmem : c ∈ t) (hc : kind c = false) (s : List Char) :
    dropEnd kind (s ++ t) = s ++ dropEnd kind t := by
  obtain ⟨before, after, rfl⟩ := List.append_of_mem hmem
  rw [← List.append_assoc, dropEnd_append_cons hc, dropEnd_append_cons hc, List.append_assoc]

theorem getLast?_dropEnd (c : Char) (h : (dropEnd kind s).getLast? = some c) : kind c = false := by
  have hne : dropEnd kind s ≠ [] := by
    intro hnil
    simp [hnil] at h
  have hlast := List.rdropWhile_last_not kind s hne
  rw [List.getLast?_eq_some_getLast hne] at h
  rw [← Option.some.inj h]
  exact Bool.eq_false_iff.mpr hlast

/-- The character at which the start is cut off stays when the end is. -/
theorem head?_dropEnd_dropStart (c : Char)
    (h : (dropEnd kind (dropStart kind s)).head? = some c) : kind c = false := by
  cases hstart : dropStart kind s with
  | nil => simp [hstart, dropEnd] at h
  | cons d rest =>
      have hd : kind d = false := by
        have hhead := List.head?_dropWhile_not kind s
        rw [← dropStart, hstart] at hhead
        exact hhead
      have hend : dropEnd kind (d :: rest) = d :: dropEnd kind rest :=
        dropEnd_append_cons hd [] rest
      rw [hstart, hend] at h
      rw [← Option.some.inj h]
      exact hd

theorem isTrimmed_dropEnd_dropStart (kind : Char → Bool) (s : List Char) :
    IsTrimmed kind s (dropEnd kind (dropStart kind s)) := by
  obtain ⟨after, hafter, hend⟩ := exists_dropEnd_append kind (dropStart kind s)
  refine { around := ⟨s.takeWhile kind, after, ?_, hafter, ?_⟩,
           starts := head?_dropEnd_dropStart, ends := getLast?_dropEnd }
  · exact List.all_eq_true.mp List.all_takeWhile
  · rw [List.append_assoc, hend, dropStart, List.takeWhile_append_dropWhile]

theorem IsTrimmed.eq_dropEnd (h : IsTrimmed kind s t) : t = dropEnd kind (dropStart kind s) := by
  obtain ⟨before, after, hbefore, hafter, hs⟩ := h.around
  rw [hs, List.append_assoc, dropStart_append hbefore]
  cases t with
  | nil =>
      have hnone : dropStart kind after = [] := by simpa [dropStart] using hafter
      rw [List.nil_append, hnone]
      rfl
  | cons c rest =>
      have hc : kind c = false := h.starts c rfl
      have hstart : dropStart kind (c :: rest ++ after) = c :: rest ++ after := by
        simp [dropStart, hc]
      rw [hstart, dropEnd_append hafter, dropEnd_eq_self_of_getLast? h.ends]

theorem isTrimmed_iff : IsTrimmed kind s t ↔ t = dropEnd kind (dropStart kind s) := by
  constructor
  · exact IsTrimmed.eq_dropEnd
  · intro h
    rw [h]
    exact isTrimmed_dropEnd_dropStart kind s

theorem isTrimmed_isBlank_iff : IsTrimmed isBlank s t ↔ t = trim s :=
  isTrimmed_iff

end Text
end AssemblerTables
