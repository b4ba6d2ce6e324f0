/-
What each stage of resolving an instruction accepts, and what it refuses.

Three stages follow on the mnemonic: the numbers of operands and of values, the operands
from left to right, and the width of a single value.  Each has a condition of its own and
faults of its own kind, so a fault of the whole tells which stage it comes from, and that
the stages before it have passed.
-/
import AssemblerTables.Proofs.Pattern.Written
import AssemblerTables.Proofs.Variant

namespace AssemblerTables
namespace Variant

variable {i : Instruction} {m : String} {e : BuildFault}

/-! ## Numbers of operands and values -/

/-- What is said of values that are too many on their own, or for their operands. -/
def surplus (values operands : Nat) : String :=
  if 2 < values then "declared args" else s!"{values} args declared for {operands} operands"

theorem checkArity_eq_ok {operands : Nat} :
    checkArity m i operands = .ok () ↔
      operands ≤ 2 ∧ i.widths.length ≤ 2 ∧ i.widths.length ≤ operands := by
  have hmax : maxOperands = 2 := rfl
  unfold checkArity
  by_cases hoperands : maxOperands < operands
  · rw [if_pos hoperands]
    exact iff_of_false (fun h => by cases h) (by omega)
  · rw [if_neg hoperands]
    by_cases hvalues : maxOperands < i.widths.length
    · rw [if_pos hvalues]
      exact iff_of_false (fun h => by cases h) (by omega)
    · rw [if_neg hvalues]
      by_cases hfew : operands < i.widths.length
      · rw [if_pos hfew]
        exact iff_of_false (fun h => by cases h) (by omega)
      · rw [if_neg hfew]
        exact iff_of_true rfl (by omega)

/-- Operands are counted before values. -/
theorem checkArity_eq_error {operands : Nat} :
    checkArity m i operands = .error e ↔
      (2 < operands ∧ e = .arity i.pattern m operands "") ∨
        (operands ≤ 2 ∧ (2 < i.widths.length ∨ operands < i.widths.length) ∧
          e = .arity i.pattern m i.widths.length (surplus i.widths.length operands)) := by
  unfold checkArity surplus maxOperands
  by_cases hoperands : 2 < operands
  · have hmany : ¬ operands ≤ 2 := by omega
    simp [hoperands, hmany, eq_comm]
  · have hmost : operands ≤ 2 := by omega
    by_cases hvalues : 2 < i.widths.length
    · simp [hoperands, hmost, hvalues, eq_comm]
    · by_cases hfew : operands < i.widths.length
      · simp [hoperands, hmost, hvalues, hfew, eq_comm]
      · simp [hoperands, hvalues, hfew]

/-! ## Operands -/

section Operands

variable {pattern : String} {operands : List String}

theorem modesOf_surface (pattern m : String) (modes : List Mode) :
    modesOf pattern m (modes.map Mode.surface) = .ok modes := by
  rw [modesOf_eq_mapM, Result.mapM_eq_ok, List.forall₂_map_left_iff, List.forall₂_same]
  exact fun mode _ => Mode.resolve_surface pattern m mode

theorem modesOf_eq_ok (htrim : ∀ o ∈ operands, Text.trim o.toList = o.toList) {modes : List Mode} :
    modesOf pattern m operands = .ok modes ↔ modes.map Mode.surface = operands := by
  constructor
  · exact map_surface_of_modesOf htrim
  · intro h
    rw [← h, modesOf_surface]

theorem exists_modes (h : ∀ o ∈ operands, o ∈ Mode.surfaceForms) :
    ∃ modes : List Mode, modes.map Mode.surface = operands := by
  induction operands with
  | nil => exact ⟨[], rfl⟩
  | cons o rest ih =>
      obtain ⟨mode, hmode⟩ := Mode.mem_surfaceForms.mp (h o List.mem_cons_self)
      obtain ⟨modes, hmodes⟩ := ih fun p hp => h p (List.mem_cons_of_mem _ hp)
      exact ⟨mode :: modes, by rw [List.map_cons, hmode, hmodes]⟩

theorem modesOf_of_find? (htrim : ∀ o ∈ operands, Text.trim o.toList = o.toList)
    {operand : String} (h : operands.find? (· ∉ Mode.surfaceForms) = some operand) :
    modesOf pattern m operands = .error (.unknownForm pattern m operand Mode.surfaceForms) := by
  have hunknown : operand ∉ Mode.surfaceForms := by simpa using List.find?_some h
  have hoperand := htrim operand (List.mem_of_find?_eq_some h)
  rw [modesOf_eq_mapM]
  refine Result.mapM_of_find? (fun o _ hknown => ?_) h
    (Mode.resolve_of_not_mem hoperand hunknown _ _)
  obtain ⟨mode, rfl⟩ := Mode.mem_surfaceForms.mp (by simpa using hknown)
  exact ⟨mode, Mode.resolve_surface _ _ mode⟩

/-- Operands are refused for the leftmost of them that is no surface form. -/
theorem modesOf_eq_error (htrim : ∀ o ∈ operands, Text.trim o.toList = o.toList) :
    modesOf pattern m operands = .error e ↔
      ∃ operand, operands.find? (· ∉ Mode.surfaceForms) = some operand ∧
        e = .unknownForm pattern m operand Mode.surfaceForms := by
  cases hfind : operands.find? (· ∉ Mode.surfaceForms) with
  | none =>
      have hknown : ∀ o ∈ operands, o ∈ Mode.surfaceForms := by simpa using hfind
      obtain ⟨modes, hmodes⟩ := exists_modes hknown
      simp [(modesOf_eq_ok htrim).mpr hmodes]
  | some operand => simp [modesOf_of_find? htrim hfind, eq_comm]

end Operands

/-! ## The width of a value -/

/-- Does a value of this width fill whole words, at least one? -/
def FillsWords (bits : Int) : Prop :=
  0 < bits ∧ 8 ∣ bits

instance (bits : Int) : Decidable (FillsWords bits) :=
  inferInstanceAs (Decidable (_ ∧ _))

/-- The words behind the opcode: those of a single value, and none otherwise. -/
def HasWords (widths : List Int) (words : Int) : Prop :=
  (∀ bits, widths = [bits] → FillsWords bits ∧ 8 * words = bits) ∧
    (widths.length ≠ 1 → words = 0)

theorem hasWords_nil : HasWords [] 0 := by
  simp [HasWords]

theorem exists_hasWords {widths : List Int} (h : ∀ bits, widths = [bits] → FillsWords bits) :
    ∃ words, HasWords widths words := by
  by_cases hone : ∃ bits, widths = [bits]
  · obtain ⟨bits, rfl⟩ := hone
    obtain ⟨words, hwords⟩ := (h bits rfl).2
    refine ⟨words, fun bits' hbits => ?_, fun hlength => absurd rfl hlength⟩
    cases hbits
    exact ⟨h bits rfl, hwords.symm⟩
  · exact ⟨0, fun bits hbits => absurd ⟨bits, hbits⟩ hone, fun _ => rfl⟩

theorem not_fillsWords {bits : Int} : bits ≤ 0 ∨ bits % wordBits ≠ 0 ↔ ¬ FillsWords bits := by
  unfold FillsWords wordBits
  omega

theorem wordsOf_single {bits : Int} (h : i.widths = [bits]) :
    wordsOf m i =
      if FillsWords bits then .ok (bits / wordBits) else .error (.width i.pattern m bits) := by
  rw [wordsOf, h]
  show (if bits ≤ 0 ∨ bits % wordBits ≠ 0 then _ else _) = _
  by_cases hbits : FillsWords bits
  · rw [if_neg fun hwrong => not_fillsWords.mp hwrong hbits, if_pos hbits]
  · rw [if_pos (not_fillsWords.mpr hbits), if_neg hbits]

theorem wordsOf_other (h : i.widths.length ≠ 1) : wordsOf m i = .ok 0 := by
  unfold wordsOf
  match hwidths : i.widths with
  | [] => rfl
  | [_] =>
      rw [hwidths] at h
      exact absurd rfl h
  | _ :: _ :: _ => rfl

theorem wordsOf_eq_ok {words : Int} : wordsOf m i = .ok words ↔ HasWords i.widths words := by
  unfold HasWords
  by_cases hone : i.widths.length = 1
  · obtain ⟨bits, hbits⟩ := List.length_eq_one_iff.mp hone
    rw [wordsOf_single hbits, hbits]
    by_cases hfills : FillsWords bits
    · obtain ⟨count, rfl⟩ := hfills.2
      have hcount : 8 * count / wordBits = count := Int.mul_ediv_cancel_left _ (by decide)
      rw [if_pos hfills, hcount, Except.ok.injEq]
      constructor
      · intro h
        subst h
        refine ⟨fun bits hsame => ?_, fun hlength => absurd rfl hlength⟩
        cases hsame
        exact ⟨hfills, rfl⟩
      · intro ⟨h, _⟩
        have hwords := (h _ rfl).2
        omega
    · rw [if_neg hfills]
      exact iff_of_false (fun h => by cases h) fun h => hfills (h.1 bits rfl).1
  · have hnone : ∀ bits, i.widths ≠ [bits] := fun bits hbits => hone (by rw [hbits]; rfl)
    rw [wordsOf_other hone, Except.ok.injEq]
    exact ⟨fun h => ⟨fun bits hbits => absurd hbits (hnone bits), fun _ => h.symm⟩,
      fun h => (h.2 hone).symm⟩

theorem wordsOf_eq_error :
    wordsOf m i = .error e ↔
      ∃ bits, i.widths = [bits] ∧ ¬ FillsWords bits ∧ e = .width i.pattern m bits := by
  by_cases hone : i.widths.length = 1
  · obtain ⟨bits, hbits⟩ := List.length_eq_one_iff.mp hone
    rw [wordsOf_single hbits, hbits]
    by_cases hfills : FillsWords bits
    · rw [if_pos hfills]
      refine iff_of_false (fun h => by cases h) fun ⟨bits', hsame, hwrong, _⟩ => ?_
      cases hsame
      exact hwrong hfills
    · rw [if_neg hfills, Except.error.injEq]
      constructor
      · exact fun h => ⟨bits, rfl, hfills, h.symm⟩
      · intro ⟨bits', hsame, _, h⟩
        cases hsame
        exact h.symm
  · rw [wordsOf_other hone]
    refine iff_of_false (fun h => by cases h) fun ⟨bits, hbits, _⟩ => hone ?_
    rw [hbits]
    rfl

/-! ## All stages -/

theorem resolve_eq (h : Pattern.firstWord i.pattern ≠ []) :
    resolve i = do
      checkArity (Pattern.root i.pattern) i (Pattern.arity i.pattern)
      let modes ← modesOf i.pattern (Pattern.root i.pattern) (Pattern.written i.pattern)
      let words ← wordsOf (Pattern.root i.pattern) i
      return {
        opcode := i.opcode,
        operandCount := Pattern.arity i.pattern,
        wordCount := words,
        modes := modes,
        pattern := i.pattern } := by
  rw [resolve, Pattern.split?_eq_some h]
  show (do
    checkArity (Pattern.root i.pattern) i (Pattern.operands _).length
    _) = _
  rw [Pattern.operands_behind, Pattern.length_written]

/-- A fault comes from one of the stages, and the stages before it have passed. -/
theorem resolve_eq_error (h : Pattern.firstWord i.pattern ≠ []) :
    resolve i = .error e ↔
      checkArity (Pattern.root i.pattern) i (Pattern.arity i.pattern) = .error e ∨
        checkArity (Pattern.root i.pattern) i (Pattern.arity i.pattern) = .ok () ∧
          (modesOf i.pattern (Pattern.root i.pattern) (Pattern.written i.pattern) = .error e ∨
            (∃ modes,
              modesOf i.pattern (Pattern.root i.pattern) (Pattern.written i.pattern) = .ok modes) ∧
              wordsOf (Pattern.root i.pattern) i = .error e) := by
  rw [resolve_eq h, Result.bind_eq_error]
  refine or_congr_right ⟨fun ⟨_, hpass, h⟩ => ⟨hpass, ?_⟩, fun ⟨hpass, h⟩ => ⟨(), hpass, ?_⟩⟩
  · rcases Result.bind_eq_error.mp h with hmodes | ⟨modes, hmodes, h⟩
    · exact .inl hmodes
    · rcases Result.bind_eq_error.mp h with hwords | ⟨words, -, h⟩
      · exact .inr ⟨⟨modes, hmodes⟩, hwords⟩
      · cases h
  · rcases h with hmodes | ⟨⟨modes, hmodes⟩, hwords⟩
    · exact Result.bind_eq_error.mpr (.inl hmodes)
    · exact Result.bind_eq_error.mpr (.inr ⟨modes, hmodes, Result.bind_eq_error.mpr (.inl hwords)⟩)

/-- What a variant has of the instruction that it belongs to. -/
structure Fits (i : Instruction) (v : Variant) : Prop where
  firstWord : Pattern.firstWord i.pattern ≠ []
  operands : v.modes.map Mode.surface = Pattern.written i.pattern
  most : v.modes.length ≤ 2
  values : i.widths.length ≤ v.modes.length
  words : HasWords i.widths v.wordCount
  opcode : v.opcode = i.opcode
  operandCount : v.operandCount = v.modes.length
  pattern : v.pattern = i.pattern

theorem resolve_eq_ok_iff_fits {v : Variant} : resolve i = .ok v ↔ Fits i v := by
  by_cases hword : Pattern.firstWord i.pattern = []
  · have hnone : resolve i = .error (.noMnemonic i.pattern) := by
      rw [resolve, Pattern.split?_eq_none.mpr hword]
    rw [hnone]
    exact iff_of_false (fun h => by cases h) fun h => h.firstWord hword
  · have hlength (modes : List Mode) (h : modes.map Mode.surface = Pattern.written i.pattern) :
        Pattern.arity i.pattern = modes.length := by
      rw [← Pattern.length_written, ← h, List.length_map]
    have htrim : ∀ o ∈ Pattern.written i.pattern, Text.trim o.toList = o.toList :=
      fun _ ho => Pattern.trim_written ho
    rw [resolve_eq hword]
    constructor
    · intro h
      obtain ⟨_, harity, h⟩ := Result.bind_eq_ok.mp h
      obtain ⟨modes, hmodes, h⟩ := Result.bind_eq_ok.mp h
      obtain ⟨words, hwords, h⟩ := Result.bind_eq_ok.mp h
      cases h
      have hsurface := (modesOf_eq_ok htrim).mp hmodes
      obtain ⟨hmost, -, hvalues⟩ := checkArity_eq_ok.mp harity
      rw [hlength modes hsurface] at hmost hvalues
      exact {
        firstWord := hword, operands := hsurface, most := hmost, values := hvalues,
        words := wordsOf_eq_ok.mp hwords, opcode := rfl,
        operandCount := congrArg _ (hlength modes hsurface), pattern := rfl }
    · intro h
      have harity : checkArity (Pattern.root i.pattern) i (Pattern.arity i.pattern) = .ok () := by
        rw [hlength _ h.operands, checkArity_eq_ok]
        exact ⟨h.most, h.values.trans h.most, h.values⟩
      rw [harity, (modesOf_eq_ok htrim).mpr h.operands, wordsOf_eq_ok.mpr h.words,
        hlength _ h.operands, ← h.operandCount, ← h.opcode, ← h.pattern]
      rfl

end Variant
end AssemblerTables
