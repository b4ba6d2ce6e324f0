/-
Texts without escape characters.

Such a text is printed as it is, since an escape sequence starts with an escape character.
It can be joined and padded, and neither numerals nor texts without marks bring an escape
character into it.
-/
import AssemblerTables.Number.Numeral
import AssemblerTables.Proofs.Number.Numeral
import AssemblerTables.Proofs.Text.Lines
import AssemblerTables.Text.Escapes

namespace AssemblerTables
namespace Text

/-- No escape character stands in the text. -/
def Plain (s : String) : Prop :=
  escape ∉ s.toList

instance (s : String) : Decidable (Plain s) :=
  inferInstanceAs (Decidable (escape ∉ s.toList))

/-! ## Printing -/

theorem plainAfter_eq_self {s : List Char} (h : escape ∉ s) : plainAfter 0 s = s := by
  induction s with
  | nil => rfl
  | cons c rest ih =>
      rw [List.mem_cons, not_or] at h
      have hlength : sequenceLength (c :: rest) = 0 := by
        rw [sequenceLength.eq_def]
        split
        · rename_i hshape
          cases hshape
          rw [if_neg (Ne.symm h.1)]
        · rfl
      rw [plainAfter, hlength]
      exact congrArg (c :: ·) (ih h.2)

theorem withoutEscapes_eq_self {s : String} (h : Plain s) : withoutEscapes s = s := by
  rw [withoutEscapes, plainAfter_eq_self h, String.ofList_toList]

/-! ## Texts put together -/

section Joining

variable {s t : String} {l : List String}

theorem plain_append : Plain (s ++ t) ↔ Plain s ∧ Plain t := by
  rw [Plain, String.toList_append, List.mem_append, not_or]
  rfl

theorem plain_join (h : ∀ s ∈ l, Plain s) : Plain (String.join l) := by
  induction l with
  | nil => exact List.not_mem_nil
  | cons s rest ih =>
      rw [String.join_cons, plain_append]
      exact ⟨h s List.mem_cons_self, ih fun t ht => h t (List.mem_cons_of_mem _ ht)⟩

theorem plain_intercalate (hs : Plain s) (h : ∀ t ∈ l, Plain t) :
    Plain (String.intercalate s l) := by
  have hne {t : String} (ht : Plain t) : ∀ c ∈ t.toList, c ≠ escape :=
    fun c hc hsame => ht (hsame ▸ hc)
  exact fun hmem => forall_mem_intercalate (hne hs) (fun t ht => hne (h t ht)) escape hmem rfl

theorem plain_unlines (h : ∀ s ∈ l, Plain s) : Plain (unlines l) := by
  have hfeed : Plain "\n" := by decide
  rw [unlines, plain_append]
  exact ⟨plain_intercalate hfeed h, hfeed⟩

theorem plain_blanks (n : Nat) : Plain (String.ofList (List.replicate n ' ')) := by
  intro hmem
  rw [String.toList_ofList] at hmem
  exact absurd (List.eq_of_mem_replicate hmem) (by decide)

theorem plain_padRight (n : Nat) (h : Plain s) : Plain (padRight n s) := by
  rw [padRight, plain_append]
  exact ⟨h, plain_blanks _⟩

theorem plain_padLeft (n : Nat) (h : Plain s) : Plain (padLeft n s) := by
  rw [padLeft, plain_append]
  exact ⟨plain_blanks _, h⟩

end Joining

/-! ## Words and numerals -/

theorem plain_of_unmarked {s : String} (h : Unmarked s.toList) : Plain s :=
  not_mem_of_isMark h (by decide)

theorem plain_toString_nat (n : Nat) : Plain (toString n) := by
  intro hmem
  change escape ∈ n.repr.toList at hmem
  rw [Nat.toList_repr] at hmem
  have hdigit : escape.isDigit = true := Nat.isDigit_of_mem_toDigits (by decide) (by decide) hmem
  cases hdigit

theorem plain_toString_int {n : Int} (h : 0 ≤ n) : Plain (toString n) := by
  obtain ⟨m, rfl⟩ := Int.eq_ofNat_of_zero_le h
  exact plain_toString_nat m

theorem plain_hex (n : Int) : Plain (Numeral.hex n) := by
  intro hmem
  have hdigit := Numeral.mem_hex hmem
  revert hdigit
  decide

end Text
end AssemblerTables
