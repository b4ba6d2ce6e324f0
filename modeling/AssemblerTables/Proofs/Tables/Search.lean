/-
What the built look-up table finds.

A question for a mnemonic and modes goes through grouping, resolving, a table under
lower case keys and a scan for the first match.  Altogether it finds the earliest
instruction of the set that has the mnemonic and resolves to the modes, and nothing
only if no instruction does.
-/
import AssemblerTables.Proofs.Tables

namespace AssemblerTables
namespace Tables

/-- Does the instruction have the mnemonic, and resolve to exactly these modes? -/
def Answers (root : String) (modes : List Mode) (i : Instruction) : Prop :=
  i.mnemonic = .ok root ∧ ∃ v, Variant.resolve i = .ok v ∧ v.modes = modes

theorem answers_iff {root : String} {modes : List Mode} {i : Instruction} :
    (i.root? == some root && (Variant.resolve i).toOption.any fun v => v.modes == modes) = true ↔
      Answers root modes i := by
  rw [Answers, Instruction.mnemonic_eq_ok, Bool.and_eq_true, beq_iff_eq, Option.any_eq_true]
  simp only [Result.toOption_eq_some, beq_iff_eq]

instance (root : String) (modes : List Mode) (i : Instruction) : Decidable (Answers root modes i) :=
  decidable_of_iff _ answers_iff

/-- A scan of the variants of a mnemonic is a scan of all instructions. -/
theorem find?_eq_bind (is : List Instruction) (root : String) (modes : List Mode) :
    (Lookup.variantsOf Variant.resolve is root).find? (fun v => v.modes == modes) =
      (is.find? fun i => decide (Answers root modes i)).bind
        fun i => (Variant.resolve i).toOption := by
  rw [Lookup.find?_variantsOf]
  congr 2
  funext i
  rw [Bool.eq_iff_iff, answers_iff, decide_eq_true_iff]

theorem find?_eq_some_iff {is : List Instruction} {root : String} {modes : List Mode}
    {v : Variant} :
    (Lookup.variantsOf Variant.resolve is root).find? (fun v => v.modes == modes) = some v ↔
      ∃ before i after, is = before ++ i :: after ∧ Answers root modes i ∧
        Variant.resolve i = .ok v ∧ ∀ j ∈ before, ¬ Answers root modes j := by
  rw [find?_eq_bind, Option.bind_eq_some_iff]
  simp only [List.find?_eq_some_iff_append, Result.toOption_eq_some, decide_eq_true_eq,
    Bool.not_eq_true', decide_eq_false_iff_not]
  constructor
  · rintro ⟨i, ⟨hi, before, after, his, hbefore⟩, hv⟩
    exact ⟨before, i, after, his, hi, hv, hbefore⟩
  · rintro ⟨before, i, after, his, hi, hv, hbefore⟩
    exact ⟨i, ⟨hi, before, after, his, hbefore⟩, hv⟩

theorem find?_eq_none_iff {is : List Instruction} {root : String} {modes : List Mode} :
    (Lookup.variantsOf Variant.resolve is root).find? (fun v => v.modes == modes) = none ↔
      ∀ i ∈ is, ¬ Answers root modes i := by
  rw [find?_eq_bind, Option.bind_eq_none_iff]
  constructor
  · intro h i hi hanswers
    -- The first to answer is resolved, so its variant would have been found.
    cases hfind : is.find? fun i => decide (Answers root modes i) with
    | none => exact absurd (decide_eq_true hanswers) (List.find?_eq_none.mp hfind i hi)
    | some j =>
        have hj := List.find?_some hfind
        obtain ⟨-, v, hv, -⟩ := of_decide_eq_true hj
        have hnone := h j hfind
        rw [Result.toOption_eq_some.mpr hv] at hnone
        cases hnone
  · intro h i hfind
    have hanswers := List.find?_some hfind
    exact absurd (of_decide_eq_true hanswers) (h i (List.mem_of_find?_eq_some hfind))

/-- Every question to a built table.  A mnemonic is missing, under its lower case form,
exactly if no instruction has it.  Otherwise its entry gives the variant of the earliest
instruction with the mnemonic and the modes, and none exactly if there is no such
instruction; and what it gives takes as many operands as modes were asked for. -/
theorem finds_earliest {is : List Instruction} {t : Tables} (h : build is = .ok t) (m : String)
    (modes : List Mode) :
    (t.lookup.get m = .error { mnemonic := Text.lower m } ↔
        ∀ i ∈ is, i.mnemonic ≠ .ok (Text.lower m)) ∧
      ((∃ i ∈ is, i.mnemonic = .ok (Text.lower m)) →
        ∃ e, t.lookup.get m = .ok e ∧
          (∀ v, e.find? modes = some v ↔
            ∃ before i after, is = before ++ i :: after ∧ Answers (Text.lower m) modes i ∧
              Variant.resolve i = .ok v ∧ ∀ j ∈ before, ¬ Answers (Text.lower m) modes j) ∧
          (e.find? modes = none ↔ ∀ i ∈ is, ¬ Answers (Text.lower m) modes i) ∧
          ∀ v, e.find? modes = some v → v.operandCount = modes.length) := by
  obtain ⟨haccepted, rfl⟩ := build_eq_ok.mp h
  have hget := Lookup.get?_ofInstructions Variant.resolve is m
  have hroots : Text.lower m ∈ Groups.roots is ↔
      ∃ i ∈ is, i.mnemonic = .ok (Text.lower m) := by
    simp only [Groups.mem_roots, Instruction.mnemonic_eq_ok]
  constructor
  · rw [ofAccepted, Lookup.get, hget]
    by_cases hm : Text.lower m ∈ Groups.roots is
    · obtain ⟨i, hi, hroot⟩ := hroots.mp hm
      rw [if_pos hm]
      exact iff_of_false (by simp) fun hnone => hnone i hi hroot
    · rw [if_neg hm]
      exact iff_of_true rfl fun i hi hroot => hm (hroots.mpr ⟨i, hi, hroot⟩)
  · intro hm
    refine ⟨{ mnemonic := Text.lower m,
              variants := Lookup.variantsOf Variant.resolve is (Text.lower m) }, ?_,
      fun v => find?_eq_some_iff, find?_eq_none_iff, ?_⟩
    · rw [ofAccepted, Lookup.get, hget, if_pos (hroots.mpr hm)]
    intro v hv
    obtain ⟨before, i, after, -, ⟨-, w, hw, hmodes⟩, hi, -⟩ := find?_eq_some_iff.mp hv
    rw [hi] at hw
    cases hw
    rw [Variant.operandCount_eq hi, hmodes]

def earlier : Instruction :=
  { pattern := "MOV A, X(%)Y", opcode := 1, widths := [16] }

/-- Another instruction shares mnemonic and modes with `earlier`, written in lower case. -/
def repeated : List Instruction :=
  [{ pattern := "nop", opcode := 0, widths := [] },
    earlier,
    { pattern := "inc A", opcode := 2, widths := [] },
    { pattern := "mov A ,X(%)Y", opcode := 3, widths := [] }]

theorem finds_earliest_repeated :
    build repeated = .ok (ofAccepted repeated) ∧
      ∃ e, (ofAccepted repeated).lookup.get "Mov" = .ok e ∧
        e.find? [.regA, .ptrXY] =
          some { opcode := 1, operandCount := 2, wordCount := 2, modes := [.regA, .ptrXY],
                 pattern := "MOV A, X(%)Y" } := by
  have hbuild : build repeated = .ok (ofAccepted repeated) :=
    rfl
  have hmnemonic : earlier.mnemonic = .ok (Text.lower "Mov") :=
    rfl
  have hresolve : Variant.resolve earlier =
      .ok { opcode := 1, operandCount := 2, wordCount := 2, modes := [.regA, .ptrXY],
            pattern := "MOV A, X(%)Y" } :=
    rfl
  have hmov : ∃ i ∈ repeated, i.mnemonic = .ok (Text.lower "Mov") :=
    ⟨earlier, by decide, hmnemonic⟩
  have hbefore : ∀ j ∈ repeated.take 1, ¬ Answers (Text.lower "Mov") [.regA, .ptrXY] j := by
    decide
  obtain ⟨e, he, hfind, -⟩ := (finds_earliest hbuild "Mov" [.regA, .ptrXY]).2 hmov
  have hfirst := (hfind _).mpr ⟨repeated.take 1, earlier, repeated.drop 2, rfl,
    ⟨hmnemonic, _, hresolve, rfl⟩, hresolve, hbefore⟩
  exact ⟨hbuild, e, he, hfirst⟩

end Tables
end AssemblerTables
