/-
A description and a root tell the pattern.

Describing is not one to one: `MOV%` and `MOVimm` have one description.  It is among the
patterns of one mnemonic that can be resolved.  Behind the first word they have none of the
letters that names start with, so every name there can be taken back for a placeholder.  And
the first word cannot end in two places: both words would start the description, and the
longer would be longer in lower case too.
-/
import AssemblerTables.Proofs.Pattern.Description
import AssemblerTables.Proofs.Variant.Stages

namespace AssemblerTables
namespace Pattern

/-! ## Names taken back -/

/-- Does every name have one of the letters first, and then `more` characters? -/
def Naming.StartsWith (naming : Naming) (letters : List Char) (more : Nat) : Prop :=
  ∀ before after, ∃ c rest, naming before after = c :: rest ∧ c ∈ letters ∧ rest.length = more

/-- Puts a placeholder for every name.  A name is known by its first letter.  The second
number is how many characters of a name are still to be passed over. -/
def restore (letters : List Char) (more : Nat) : Nat → List Char → List Char
  | _, [] => []
  | skip + 1, _ :: rest => restore letters more skip rest
  | 0, c :: rest =>
    if c ∈ letters then '%' :: restore letters more more rest
    else c :: restore letters more 0 rest

variable {naming : Naming} {letters : List Char} {more : Nat}

theorem restore_append (name s : List Char) :
    restore letters more name.length (name ++ s) = restore letters more 0 s := by
  induction name with
  | nil => rfl
  | cons c rest ih => exact ih

/-- A text without the letters is restored from what a pass makes of it, whatever stands
before the text. -/
theorem restore_pass (hnaming : naming.StartsWith letters more) {s : List Char}
    (hs : ∀ c ∈ s, c ∉ letters) (before : Option Char) :
    restore letters more 0 (pass naming before s) = s := by
  induction s generalizing before with
  | nil => rfl
  | cons c rest ih =>
      have hrest := ih (fun d hd => hs d (List.mem_cons_of_mem _ hd)) (some c)
      by_cases hc : c = '%'
      · obtain ⟨d, others, hname, hd, rfl⟩ := hnaming before rest.head?
        rw [pass, if_pos hc, hname, List.cons_append, restore, if_pos hd, restore_append, hrest,
          hc]
      · rw [pass_cons_of_ne hc, restore, if_neg (hs c List.mem_cons_self), hrest]

/-- The letters that the names in descriptions start with. -/
def initials : List Char := ['a', 'p', 'i']

theorem described_startsWith : described.StartsWith initials 2 := by
  intro before after
  unfold described between
  split
  · exact ⟨'a', ['d', 'r'], rfl, by decide, rfl⟩
  · split
    · exact ⟨'p', ['t', 'r'], rfl, by decide, rfl⟩
    · exact ⟨'i', ['m', 'm'], rfl, by decide, rfl⟩

/-! ## First words -/

/-- A text without placeholders passes as it is. -/
theorem exists_pass_append {s : List Char} (h : '%' ∉ s) (before : Option Char) (t : List Char) :
    ∃ before', pass naming before (s ++ t) = s ++ pass naming before' t := by
  induction s generalizing before with
  | nil => exact ⟨before, rfl⟩
  | cons c rest ih =>
      rw [List.mem_cons, not_or] at h
      obtain ⟨before', hrest⟩ := ih h.2 (some c)
      refine ⟨before', ?_⟩
      rw [List.cons_append, pass_cons_of_ne (Ne.symm h.1), hrest, List.cons_append]

/-- A description starts with the first word of the pattern. -/
theorem exists_toList_describe (pattern : String) :
    ∃ before, (describe pattern).toList =
      firstWord pattern ++ pass described before (behind pattern) := by
  have hword : '%' ∉ firstWord pattern := fun hmem => by
    have hplaceholder := List.all_eq_true.mp List.all_takeWhile _ hmem
    revert hplaceholder
    decide
  rw [describe, String.toList_ofList, describeChars_eq_pass, toList_eq_append]
  exact exists_pass_append hword none (behind pattern)

theorem eq_of_describe_eq {p q : String} (hroot : root p = root q)
    (hp : ∀ c ∈ behind p, c ∉ initials) (hq : ∀ c ∈ behind q, c ∉ initials)
    (h : describe p = describe q) : p = q := by
  obtain ⟨before, hdescribe⟩ := exists_toList_describe p
  obtain ⟨before', hdescribe'⟩ := exists_toList_describe q
  rw [h, hdescribe'] at hdescribe
  have hlower : Text.lowerChars (firstWord p) = Text.lowerChars (firstWord q) := by
    have hlists := congrArg String.toList hroot
    simpa only [root, Text.lower, String.toList_ofList] using hlists
  -- Both first words start one text, so one of them starts the other.
  have hword : firstWord p = firstWord q := by
    have hstart : firstWord p <+: firstWord q ++ pass described before' (behind q) :=
      ⟨_, hdescribe.symm⟩
    rcases List.prefix_or_prefix_of_prefix hstart (List.prefix_append _ _) with hshort | hlong
    · exact Text.eq_of_lowerChars_of_startsWith hshort hlower
    · exact (Text.eq_of_lowerChars_of_startsWith hlong hlower.symm).symm
  rw [hword, List.append_cancel_left_eq] at hdescribe
  have hbehind : behind p = behind q := by
    rw [← restore_pass described_startsWith hp before, ← hdescribe,
      restore_pass described_startsWith hq before']
  rw [← String.toList_inj, toList_eq_append, toList_eq_append q, hword, hbehind]

/-- Without the roots a description does not tell the pattern. -/
example : describe "MOV%" = describe "MOVimm" := by
  decide +kernel

end Pattern

/-! ## Resolved instructions -/

theorem Mode.not_mem_initials (m : Mode) : ∀ c ∈ m.surface.toList, c ∉ Pattern.initials := by
  cases m <;> decide

namespace Variant

/-- Behind the first word of a resolved instruction there are surface forms, blanks and
commas. -/
theorem not_mem_initials {i : Instruction} {v : Variant} (h : resolve i = .ok v) :
    ∀ c ∈ Pattern.behind i.pattern, c ∉ Pattern.initials := by
  have hblank {c : Char} (hc : Text.isBlank c = true) : c ∉ Pattern.initials := by
    have hletters : ∀ c ∈ Pattern.initials, Text.isBlank c = false := by decide
    intro hmem
    rw [hletters c hmem] at hc
    cases hc
  intro c hc
  rcases Text.mem_trim hc with hb | htrim
  · exact hblank hb
  · rw [← String.toList_ofList (l := Text.trim (Pattern.behind i.pattern))] at htrim
    rcases Pattern.mem_operands htrim with hb | rfl | ⟨operand, hoperand, hmem⟩
    · exact hblank hb
    · decide
    · rw [Pattern.operands_behind, ← (resolve_eq_ok_iff_fits.mp h).operands] at hoperand
      obtain ⟨mode, -, rfl⟩ := List.mem_map.mp hoperand
      exact mode.not_mem_initials c hmem

/-- Resolved instructions of one mnemonic that are described alike are written alike. -/
theorem pattern_eq_of_describe_eq {i j : Instruction} {v w : Variant} (hi : resolve i = .ok v)
    (hj : resolve j = .ok w) (hroot : i.root? = j.root?)
    (h : Pattern.describe i.pattern = Pattern.describe j.pattern) : i.pattern = j.pattern := by
  rw [Instruction.root?_eq_some (resolve_eq_ok_iff_fits.mp hi).firstWord,
    Instruction.root?_eq_some (resolve_eq_ok_iff_fits.mp hj).firstWord, Option.some.injEq] at hroot
  exact Pattern.eq_of_describe_eq hroot (not_mem_initials hi) (not_mem_initials hj) h

end Variant
end AssemblerTables
