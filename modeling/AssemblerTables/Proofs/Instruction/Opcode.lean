/-
Opcodes as they may be written.

An opcode is a number or a text.  A text loses the blanks around it and one announcement,
and what is left is read as a hexadecimal numeral, which may have blanks around it again and
an announcement of its own.  So the order of the parts decides: a sign may stand before the
second announcement but not before the first, and a low line may stand behind the second only.

The blanks are not the same the second time.  Four of them, the information separators, may
not stand around a numeral.
-/
import AssemblerTables.Instruction.Record
import AssemblerTables.Proofs.Number.Hexadecimal
import AssemblerTables.Proofs.Text.Trimmed

namespace AssemblerTables
namespace Record

open Json (Value)

/-- Is `t` the text `s` without one announcement at its start, if there is one? -/
def IsUnannounced (s t : List Char) : Prop :=
  s = '0' :: 'x' :: t ∨ s = '0' :: 'X' :: t ∨
    (s = t ∧ ¬ ['0', 'x'] <+: s ∧ ¬ ['0', 'X'] <+: s)

/-- Does `s` stand for `n` as the text of an opcode?  The margin are the blanks that may stand
around the numeral once the announcement is gone. -/
def IsOpcodeText (margin : Char → Bool) (s : List Char) (n : Int) : Prop :=
  ∃ trimmed rest numeral,
    Text.IsTrimmed Text.isBlank s trimmed ∧ IsUnannounced trimmed rest ∧
      Text.IsTrimmed margin rest numeral ∧
      Numeral.IsHexadecimal (numeral.map Numeral.plainDigit) n

/-- Does a value stand for `n` where an opcode is asked for? -/
inductive Denotes : Value → Int → Prop where
  | number (n : Int) : Denotes (.int n) n
  | text {s : String} {n : Int} : IsOpcodeText Numeral.isMargin s.toList n → Denotes (.text s) n

/-- Is a value an opcode, and `n` the byte that it stands for? -/
def IsOpcode (v : Value) (n : Int) : Prop :=
  Denotes v n ∧ 0 ≤ n ∧ n ≤ 255

variable {s t : List Char} {n : Int} {v : Value}

theorem isUnannounced_trim : IsUnannounced (Text.trim s) t ↔ t = opcodeNumeral s := by
  unfold IsUnannounced opcodeNumeral
  split
  · rename_i x rest hs
    rw [hs]
    by_cases hx : x = 'x' ∨ x = 'X'
    · rcases hx with rfl | rfl <;> simp [eq_comm]
    · have hneither : x ≠ 'x' ∧ x ≠ 'X' := not_or.mp hx
      simp [hneither.1, hneither.2, hneither.1.symm, hneither.2.symm, eq_comm]
  · rename_i hnone
    have hbare (x : Char) : ¬ ['0', x] <+: Text.trim s := by
      intro h
      obtain ⟨rest, hs⟩ := h
      exact hnone x rest hs.symm
    have hsplit (x : Char) : Text.trim s ≠ '0' :: x :: t := fun hs => hnone x t hs
    simp [hbare, hsplit, eq_comm]

/-- A text of an opcode is read as the number that it stands for. -/
theorem isOpcodeText_iff :
    IsOpcodeText Numeral.isMargin s n ↔
      Numeral.readChars? .hexadecimal (opcodeNumeral s) = some n := by
  unfold IsOpcodeText
  simp only [Text.isTrimmed_iff]
  rw [Numeral.readChars?_eq_some, Numeral.plain]
  constructor
  · intro h
    obtain ⟨trimmed, rest, numeral, htrimmed, hrest, hnumeral, hn⟩ := h
    rw [htrimmed] at hrest
    rw [← isUnannounced_trim.mp hrest, ← hnumeral]
    exact hn
  · intro hn
    exact ⟨_, opcodeNumeral s, _, rfl, isUnannounced_trim.mpr rfl, rfl, hn⟩

/-! ## Opcodes -/

theorem denotes_text {s : String} :
    Denotes (.text s) n ↔ IsOpcodeText Numeral.isMargin s.toList n := by
  constructor
  · intro h
    cases h with
    | text h => exact h
  · exact .text

theorem opcodeNumber?_eq_some : opcodeNumber? v = some n ↔ Denotes v n := by
  cases v with
  | int k =>
      rw [opcodeNumber?, Option.some.injEq]
      constructor
      · intro h
        rw [h]
        exact .number n
      · intro h
        cases h
        rfl
  | text s => rw [opcodeNumber?, denotes_text, isOpcodeText_iff]
  | _ => exact iff_of_false (fun h => by cases h) (fun h => by cases h)

theorem opcode_eq_ok : opcode v = .ok n ↔ IsOpcode v n := by
  have hmax : maxOpcode = 255 := rfl
  rw [IsOpcode, ← opcodeNumber?_eq_some, opcode, hmax]
  cases opcodeNumber? v with
  | none => exact iff_of_false (fun h => by cases h) (fun h => by cases h.1)
  | some k =>
      by_cases hk : 0 ≤ k ∧ k ≤ 255
      · simp only [if_pos hk, Except.ok.injEq, Option.some.injEq]
        exact ⟨fun h => h ▸ ⟨rfl, hk⟩, fun h => h.1⟩
      · simp only [if_neg hk, Option.some.injEq]
        exact iff_of_false (fun h => by cases h) (fun h => hk (h.1 ▸ h.2))

/-- A number that is no byte is told apart from what is no number. -/
theorem opcode_eq_error {e : RecordFault} :
    opcode v = .error e ↔
      (∃ n, Denotes v n ∧ ¬ (0 ≤ n ∧ n ≤ 255) ∧ e = .opcodeRange v) ∨
        (∀ n, ¬ Denotes v n) ∧ e = .badOpcode v := by
  have hmax : maxOpcode = 255 := rfl
  simp only [← opcodeNumber?_eq_some]
  rw [opcode, hmax]
  cases opcodeNumber? v with
  | none => simp [eq_comm]
  | some k =>
      dsimp only
      by_cases hk : 0 ≤ k ∧ k ≤ 255
      · rw [if_pos hk]
        refine iff_of_false (fun h => by cases h) ?_
        intro h
        rcases h with ⟨n, hn, hout, -⟩ | ⟨hnone, -⟩
        · cases hn
          exact hout hk
        · exact hnone k rfl
      · rw [if_neg hk]
        constructor
        · intro h
          cases h
          exact .inl ⟨k, rfl, hk, rfl⟩
        · intro h
          rcases h with ⟨n, -, -, rfl⟩ | ⟨hnone, -⟩
          · rfl
          · exact absurd rfl (hnone k)

end Record
end AssemblerTables
