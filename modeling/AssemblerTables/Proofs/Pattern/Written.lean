/-
A pattern as it is written: its first word, and the operands behind it.

`split?` and `operands` take a pattern apart in two steps and leave blanks out after each.
What they come to can be read off the characters of the pattern.  The first word is the
longest run of word characters at the start.  Behind it stands nothing but blanks, or an
operand before, between and behind the commas.
-/
import AssemblerTables.Proofs.Pattern.Operands

namespace AssemblerTables
namespace Pattern

/-- The longest run of word characters at the start of a pattern, empty if it starts with
another character. -/
def firstWord (pattern : String) : List Char :=
  pattern.toList.takeWhile Text.isWord

/-- What stands behind the first word. -/
def behind (pattern : String) : List Char :=
  pattern.toList.dropWhile Text.isWord

/-- The first word in lower case. -/
def root (pattern : String) : String :=
  Text.lower (String.ofList (firstWord pattern))

/-- One operand more than there are commas, and none where all is blank. -/
def arity (pattern : String) : Nat :=
  if Text.isBlankText (behind pattern) then 0 else (behind pattern).count ',' + 1

/-- The operands between the commas, without the blanks around them. -/
def written (pattern : String) : List String :=
  if Text.isBlankText (behind pattern) then []
  else ((behind pattern).splitOn ',').map fun piece => String.ofList (Text.trim piece)

variable {pattern : String}

theorem toList_eq_append (pattern : String) :
    pattern.toList = firstWord pattern ++ behind pattern :=
  List.takeWhile_append_dropWhile.symm

/-- What stands behind the first word does not make it longer. -/
theorem head?_behind_any (pattern : String) : (behind pattern).head?.any Text.isWord = false := by
  have hhead := List.head?_dropWhile_not Text.isWord pattern.toList
  rw [behind]
  cases hbehind : (pattern.toList.dropWhile Text.isWord).head? with
  | none => rfl
  | some c =>
      rw [hbehind] at hhead
      exact hhead

theorem split?_eq (pattern : String) :
    split? pattern =
      if firstWord pattern = [] then none
      else some (root pattern, String.ofList (Text.trim (behind pattern))) := by
  show (if (firstWord pattern).isEmpty then none
    else some (String.ofList (Text.lowerChars (firstWord pattern)), _)) = _
  simp only [List.isEmpty_iff, root, Text.lower, String.toList_ofList]
  rfl

theorem split?_eq_none : split? pattern = none ↔ firstWord pattern = [] := by
  by_cases h : firstWord pattern = []
  · simp [split?_eq, h]
  · simp [split?_eq, h]

theorem split?_eq_some (h : firstWord pattern ≠ []) :
    split? pattern = some (root pattern, String.ofList (Text.trim (behind pattern))) := by
  rw [split?_eq, if_neg h]

theorem mnemonic?_eq_none : mnemonic? pattern = none ↔ firstWord pattern = [] := by
  rw [mnemonic?, Option.map_eq_none_iff, split?_eq_none]

theorem mnemonic?_eq_some (h : firstWord pattern ≠ []) :
    mnemonic? pattern = some (root pattern) := by
  rw [mnemonic?, split?_eq_some h, Option.map_some]

/-- Blanks left out around all operands make no difference to any of them. -/
theorem operands_behind (pattern : String) :
    operands (String.ofList (Text.trim (behind pattern))) = written pattern := by
  rw [operands, String.toList_ofList, Text.isBlankText_trim, written]
  by_cases hblank : Text.isBlankText (behind pattern) = true
  · rw [if_pos hblank, if_pos hblank]
  · obtain ⟨before, after, hbefore, hafter, hbehind⟩ := Text.exists_trim_append (behind pattern)
    have hcomma : Text.isBlank ',' = false := by decide
    have hpieces := Text.map_trim_pieces hcomma (s := Text.trim (behind pattern)) hbefore hafter
    rw [hbehind] at hpieces
    rw [if_neg hblank, if_neg hblank, ← Text.pieces_eq_splitOn]
    have hmap (pieces : List (List Char)) :
        (pieces.map fun piece => String.ofList (Text.trim piece)) =
          (pieces.map Text.trim).map String.ofList := by
      rw [List.map_map]
      rfl
    rw [hmap, hmap, hpieces]

theorem length_written (pattern : String) : (written pattern).length = arity pattern := by
  rw [written, arity]
  by_cases hblank : Text.isBlankText (behind pattern) = true
  · rw [if_pos hblank, if_pos hblank, List.length_nil]
  · rw [if_neg hblank, if_neg hblank, List.length_map, ← Text.pieces_eq_splitOn,
      Text.length_pieces]

theorem trim_written {operand : String} (h : operand ∈ written pattern) :
    Text.trim operand.toList = operand.toList := by
  rw [← operands_behind] at h
  exact trim_operand h

end Pattern
end AssemblerTables
