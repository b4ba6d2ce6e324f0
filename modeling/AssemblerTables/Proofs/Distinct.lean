/-
Lists with their repetitions left out.

`List.eraseDups` keeps each element where it first appears.  An element at the end is
therefore left out if it is there already, and kept at the end if it is not.
-/
import Mathlib.Data.List.Basic
import Mathlib.Data.List.Induction

namespace AssemblerTables
namespace Distinct

variable {α : Type} [DecidableEq α]

theorem nodup_eraseDups (l : List α) : l.eraseDups.Nodup := by
  -- The recursion goes through a filter, so the induction is on the length.
  generalize hn : l.length = n
  induction n using Nat.strongRecOn generalizing l with
  | ind n ih =>
      cases l with
      | nil => exact List.nodup_nil
      | cons a rest =>
          rw [List.eraseDups_cons, List.nodup_cons]
          refine ⟨fun hmem => ?_, ih _ ?_ _ rfl⟩
          · rw [List.mem_eraseDups] at hmem
            simp at hmem
          · rw [← hn, List.length_cons]
            exact Nat.lt_succ_of_le (List.length_filter_le _ _)

theorem eraseDups_eq_self {l : List α} (h : l.Nodup) : l.eraseDups = l := by
  induction l with
  | nil => rfl
  | cons a rest ih =>
      obtain ⟨ha, hrest⟩ := List.nodup_cons.mp h
      have hkeep : (rest.filter fun b => !b == a) = rest := by
        refine List.filter_eq_self.mpr fun b hb => ?_
        have hne : b ≠ a := fun e => ha (e ▸ hb)
        simp [hne]
      rw [List.eraseDups_cons, hkeep, ih hrest]

theorem eraseDups_concat (l : List α) (a : α) :
    (l ++ [a]).eraseDups = if a ∈ l then l.eraseDups else l.eraseDups ++ [a] := by
  rw [List.eraseDups_append]
  by_cases ha : a ∈ l
  · rw [if_pos ha]
    simp [List.removeAll, ha]
  · rw [if_neg ha]
    simp [List.removeAll, ha, List.eraseDups_cons]

/-! ## Order of first occurrence -/

/-- Has `d` the elements of `l`, each once and in the order in which they first occur? -/
structure FirstSeen (l d : List α) : Prop where
  mem_iff : ∀ a, a ∈ d ↔ a ∈ l
  ordered : d.Pairwise fun a b => l.idxOf a < l.idxOf b

theorem FirstSeen.nodup {l d : List α} (h : FirstSeen l d) : d.Nodup := by
  refine h.ordered.imp fun hlt heq => ?_
  rw [heq] at hlt
  exact Nat.lt_irrefl _ hlt

theorem ordered_eraseDups (l : List α) :
    l.eraseDups.Pairwise fun a b => l.idxOf a < l.idxOf b := by
  induction l using List.reverseRecOn with
  | nil => exact List.Pairwise.nil
  | append_singleton l c ih =>
      -- What follows does not change where the elements of `l` first occur.
      have hkeep : l.eraseDups.Pairwise fun a b => (l ++ [c]).idxOf a < (l ++ [c]).idxOf b := by
        refine ih.imp_of_mem fun {a b} ha hb hlt => ?_
        rwa [List.idxOf_append_of_mem (List.mem_eraseDups.mp ha),
          List.idxOf_append_of_mem (List.mem_eraseDups.mp hb)]
      rw [eraseDups_concat]
      by_cases hc : c ∈ l
      · rwa [if_pos hc]
      · rw [if_neg hc, List.pairwise_append]
        refine ⟨hkeep, List.pairwise_singleton _ c, fun a ha b hb => ?_⟩
        have ha := List.mem_eraseDups.mp ha
        rw [List.mem_singleton.mp hb, List.idxOf_append_of_mem ha, List.idxOf_append_of_notMem hc]
        exact Nat.lt_add_right _ (List.idxOf_lt_length_of_mem ha)

theorem firstSeen_eraseDups (l : List α) : FirstSeen l l.eraseDups where
  mem_iff _ := List.mem_eraseDups
  ordered := ordered_eraseDups l

/-! ## Parts of a list -/

/-- Leaving out repetitions and leaving out elements of a kind can change places. -/
theorem eraseDups_filter (p : α → Bool) (l : List α) :
    (l.filter p).eraseDups = l.eraseDups.filter p := by
  generalize hn : l.length = n
  induction n using Nat.strongRecOn generalizing l with
  | ind n ih =>
      cases l with
      | nil => rfl
      | cons a rest =>
          have hshort : (rest.filter fun b => !b == a).length < n := by
            rw [← hn, List.length_cons]
            exact Nat.lt_succ_of_le (List.length_filter_le _ _)
          have hrest := ih _ hshort (rest.filter fun b => !b == a) rfl
          rw [List.eraseDups_cons]
          by_cases ha : p a = true
          · rw [List.filter_cons_of_pos ha, List.filter_cons_of_pos ha, List.eraseDups_cons,
              ← hrest, List.filter_filter, List.filter_filter]
            simp only [Bool.and_comm]
          · -- The first element goes, and with it all that repeat it.
            have hsame : (rest.filter fun b => !b == a).filter p = rest.filter p := by
              rw [List.filter_filter]
              refine List.filter_congr fun b _ => ?_
              by_cases hb : b = a
              · simp [hb, ha]
              · simp [hb]
            rw [List.filter_cons_of_neg ha, List.filter_cons_of_neg ha, ← hrest, hsame]

theorem mem_removeAll {l m : List α} {a : α} : a ∈ l.removeAll m ↔ a ∈ l ∧ a ∉ m := by
  simp [List.removeAll]

theorem removeAll_append (l l' m : List α) :
    (l ++ l').removeAll m = l.removeAll m ++ l'.removeAll m :=
  List.filter_append _ _

/-- What follows a list without repetitions adds only what is new. -/
theorem eraseDups_append_of_nodup {l : List α} (h : l.Nodup) (m : List α) :
    (l ++ m).eraseDups = l ++ (m.removeAll l).eraseDups := by
  rw [List.eraseDups_append, eraseDups_eq_self h]

end Distinct
end AssemblerTables
