/-
What is known of a resolved instruction.

Its counts are those of its operands, and its operands are the surface forms of its modes,
one for one.  So besides the mnemonic, blanks and commas there is nothing in the pattern
but surface forms: they have all its other characters and all its other words.
-/
import AssemblerTables.Proofs.Groups
import AssemblerTables.Proofs.Mode
import AssemblerTables.Proofs.Pattern.Operands
import AssemblerTables.Variant

namespace AssemblerTables
namespace Variant

/-- What a resolved instruction has been through. -/
theorem resolve_eq_ok {i : Instruction} {v : Variant} :
    resolve i = .ok v ↔ ∃ m text modes words,
      Pattern.split? i.pattern = some (m, text) ∧
      checkArity m i (Pattern.operands text).length = .ok () ∧
      modesOf i.pattern m (Pattern.operands text) = .ok modes ∧
      wordsOf m i = .ok words ∧
      v = { opcode := i.opcode, operandCount := (Pattern.operands text).length,
            wordCount := words, modes := modes, pattern := i.pattern } := by
  rw [resolve]
  cases hsplit : Pattern.split? i.pattern with
  | none => simp
  | some s =>
      obtain ⟨m, text⟩ := s
      simp only [Result.bind_eq_ok, Option.some.injEq, Prod.mk.injEq]
      constructor
      · rintro ⟨_, harity, modes, hmodes, words, hwords, hv⟩
        exact ⟨m, text, modes, words, ⟨rfl, rfl⟩, harity, hmodes, hwords,
          (Except.ok.inj hv).symm⟩
      · rintro ⟨_, _, modes, words, ⟨rfl, rfl⟩, harity, hmodes, hwords, rfl⟩
        exact ⟨(), harity, modes, hmodes, words, hwords, rfl⟩

theorem modesOf_eq_mapM (pattern m : String) (operands : List String) :
    modesOf pattern m operands = operands.mapM (Mode.resolve pattern m) := by
  induction operands with
  | nil => rfl
  | cons operand rest ih => rw [modesOf, List.mapM_cons, ih]

theorem length_modesOf {pattern m : String} {operands : List String} {modes : List Mode}
    (h : modesOf pattern m operands = .ok modes) : modes.length = operands.length := by
  rw [modesOf_eq_mapM, Result.mapM_eq_ok] at h
  exact h.length_eq.symm

theorem operandCount_eq {i : Instruction} {v : Variant} (h : resolve i = .ok v) :
    v.operandCount = v.modes.length := by
  obtain ⟨m, text, modes, words, -, -, hmodes, -, rfl⟩ := resolve_eq_ok.mp h
  rw [length_modesOf hmodes]

theorem opcode_eq {i : Instruction} {v : Variant} (h : resolve i = .ok v) :
    v.opcode = i.opcode := by
  obtain ⟨m, text, modes, words, -, -, -, -, rfl⟩ := resolve_eq_ok.mp h
  rfl

theorem wordsOf_nonneg {m : String} {i : Instruction} {words : Int}
    (h : wordsOf m i = .ok words) : 0 ≤ words := by
  rw [wordsOf] at h
  split at h
  · rename_i bits _
    by_cases hbits : bits ≤ 0 ∨ bits % wordBits ≠ 0
    · rw [if_pos hbits] at h
      cases h
    · rw [if_neg hbits] at h
      cases h
      have hpos : 0 ≤ bits := by omega
      exact Int.ediv_nonneg hpos (by decide)
  · cases h
    exact Int.le_refl 0

/-- The counts of a resolved instruction are natural numbers. -/
theorem counts_nonneg {i : Instruction} {v : Variant} (h : resolve i = .ok v) :
    0 ≤ v.operandCount ∧ 0 ≤ v.wordCount := by
  constructor
  · rw [operandCount_eq h]
    exact Int.natCast_nonneg _
  · obtain ⟨m, text, modes, words, -, -, -, hwords, rfl⟩ := resolve_eq_ok.mp h
    exact wordsOf_nonneg hwords

theorem root?_of_resolve {i : Instruction} {v : Variant} (h : resolve i = .ok v) :
    ∃ m, i.root? = some m := by
  obtain ⟨m, text, modes, words, hsplit, -⟩ := resolve_eq_ok.mp h
  exact ⟨m, by rw [Instruction.root?, Pattern.mnemonic?, hsplit]; rfl⟩

/-! ## Surface forms -/

theorem map_surface_of_modesOf {pattern m : String} {operands : List String} {modes : List Mode}
    (htrim : ∀ operand ∈ operands, Text.trim operand.toList = operand.toList)
    (h : modesOf pattern m operands = .ok modes) : modes.map Mode.surface = operands := by
  rw [modesOf_eq_mapM, Result.mapM_eq_ok] at h
  induction h with
  | nil => rfl
  | cons hmode _ ih =>
      have hsurface := Mode.surface_of_ofOperand? (htrim _ List.mem_cons_self)
        (Mode.resolve_eq_ok.mp hmode)
      rw [List.map_cons, hsurface, ih fun o ho => htrim o (List.mem_cons_of_mem _ ho)]

/-- The operands of a resolved instruction are written in its modes. -/
theorem exists_split?_of_resolve {i : Instruction} {v : Variant} (h : resolve i = .ok v) :
    ∃ m text, Pattern.split? i.pattern = some (m, text) ∧
      Pattern.operands text = v.modes.map Mode.surface := by
  obtain ⟨m, text, modes, words, hsplit, -, hmodes, -, rfl⟩ := resolve_eq_ok.mp h
  exact ⟨m, text, hsplit,
    (map_surface_of_modesOf (fun _ ho => Pattern.trim_operand ho) hmodes).symm⟩

/-- The words of a resolved instruction: its mnemonic, and then the words of its modes. -/
theorem words_of_resolve {i : Instruction} {v : Variant} (h : resolve i = .ok v) :
    ∃ m, i.root? = some m ∧
      Pattern.words i.pattern = m :: v.modes.flatMap fun mode => Pattern.words mode.surface := by
  obtain ⟨m, text, hsplit, hoperands⟩ := exists_split?_of_resolve h
  refine ⟨m, ?_, ?_⟩
  · rw [Instruction.root?, Pattern.mnemonic?, hsplit]
    rfl
  · rw [Pattern.words_of_split? hsplit, hoperands, List.flatMap_map]

end Variant
end AssemblerTables
