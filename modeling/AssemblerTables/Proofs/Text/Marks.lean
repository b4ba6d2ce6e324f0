/-
Marks, and texts without them.

A mark is a blank, or an ASCII character that is no letter, no digit and not the low
line: what separates words, quotes them or encloses them.  Word characters are no
marks, and neither lower nor upper case makes a mark of a character that is none, so
text written around words can be cut at marks again.

The character tables are compared interval by interval: one walk along the sorted
ranges decides a whole interval of code points.
-/
import AssemblerTables.Text.Blank
import AssemblerTables.Text.Case
import AssemblerTables.Text.Word

namespace AssemblerTables
namespace Text

/-! ## Intervals of code points -/

namespace CharSet

/-- Do sorted ranges leave out all of `a`, …, `b`?  The first range that does not end
before `a` decides. -/
def avoids : List (Nat × Nat) → Nat → Nat → Bool
  | [], _, _ => true
  | (first, last) :: rest, a, b =>
    bif Nat.blt last a then avoids rest a b else Nat.blt b first && Nat.ble b last

/-- Do sorted ranges hold all of `a`, …, `b`, in one of them? -/
def spans : List (Nat × Nat) → Nat → Nat → Bool
  | [], _, _ => false
  | (first, last) :: rest, a, b =>
    bif Nat.blt last a then spans rest a b else Nat.ble first a && Nat.ble b last

theorem covers_of_avoids {ranges : List (Nat × Nat)} {a b n : Nat}
    (h : avoids ranges a b = true) (ha : a ≤ n) (hb : n ≤ b) : covers ranges n = false := by
  induction ranges with
  | nil => rfl
  | cons r rest ih =>
      obtain ⟨first, last⟩ := r
      cases hend : Nat.blt last a with
      | true =>
          have hlast : last < a := Nat.blt_eq.mp hend
          simp only [avoids, hend, cond_true] at h
          rw [covers, if_pos (by omega)]
          exact ih h
      | false =>
          simp only [avoids, hend, cond_false, Bool.and_eq_true, Nat.blt_eq, Nat.ble_eq] at h
          rw [covers, if_neg (by omega), decide_eq_false_iff_not]
          omega

theorem covers_of_spans {ranges : List (Nat × Nat)} {a b n : Nat}
    (h : spans ranges a b = true) (ha : a ≤ n) (hb : n ≤ b) : covers ranges n = true := by
  induction ranges with
  | nil => simp [spans] at h
  | cons r rest ih =>
      obtain ⟨first, last⟩ := r
      cases hend : Nat.blt last a with
      | true =>
          have hlast : last < a := Nat.blt_eq.mp hend
          simp only [spans, hend, cond_true] at h
          rw [covers, if_pos (by omega)]
          exact ih h
      | false =>
          simp only [spans, hend, cond_false, Bool.and_eq_true, Nat.ble_eq] at h
          rw [covers, if_neg (by omega), decide_eq_true_eq]
          omega

/-- A set that avoids every range of another shares no character with it. -/
theorem contains_eq_false_of_avoids {s t : CharSet}
    (h : (s.ranges.all fun r => avoids t.ranges r.1 r.2) = true) {c : Char}
    (hc : s.contains c = true) : t.contains c = false := by
  obtain ⟨r, hr, hlow, hhigh⟩ := exists_range_of_covers hc
  exact covers_of_avoids (List.all_eq_true.mp h r hr) hlow hhigh

theorem contains_of_spans {s t : CharSet}
    (h : (s.ranges.all fun r => spans t.ranges r.1 r.2) = true) {c : Char}
    (hc : s.contains c = true) : t.contains c = true := by
  obtain ⟨r, hr, hlow, hhigh⟩ := exists_range_of_covers hc
  exact covers_of_spans (List.all_eq_true.mp h r hr) hlow hhigh

end CharSet

/-- The letters of ASCII stand in two intervals. -/
theorem interval_of_isAlpha {c : Char} (h : c.isAlpha = true) :
    (65 ≤ c.toNat ∧ c.toNat ≤ 90) ∨ (97 ≤ c.toNat ∧ c.toNat ≤ 122) := by
  change (decide ('A'.val ≤ c.val ∧ c.val ≤ 'Z'.val) ||
    (decide ('a'.val ≤ c.val) && decide (c.val ≤ 'z'.val))) = true at h
  simp only [Bool.or_eq_true, Bool.and_eq_true, decide_eq_true_eq, UInt32.le_iff_toNat_le] at h
  exact h

/-! ## Marks -/

def markCharacters : CharSet :=
  ⟨[
    (0, 47), (58, 64), (91, 94), (96, 96), (123, 127), (133, 133), (160, 160), (5760, 5760),
    (8192, 8202), (8232, 8233), (8239, 8239), (8287, 8287), (12288, 12288)
  ]⟩

def isMark (c : Char) : Bool :=
  markCharacters.contains c

/-- The characters of a text are tried one by one, and never all that there are. -/
instance decidableForallMem (p : Char → Prop) [DecidablePred p] (s : List Char) :
    Decidable (∀ c, c ∈ s → p c) :=
  List.decidableBAll p s

/-- A text with no mark in it. -/
def Unmarked (s : List Char) : Prop :=
  ∀ c ∈ s, isMark c = false

instance (s : List Char) : Decidable (Unmarked s) :=
  List.decidableBAll (fun c => isMark c = false) s

/-- Blanks are marks, and marks are no word characters. -/
theorem markCharacters_checked :
    ((blankCharacters.ranges.all fun r => CharSet.spans markCharacters.ranges r.1 r.2) &&
      markCharacters.ranges.all fun r => CharSet.avoids wordCharacters.ranges r.1 r.2) = true := by
  decide +kernel

theorem isMark_of_isBlank {c : Char} (h : isBlank c = true) : isMark c = true :=
  CharSet.contains_of_spans (Bool.and_eq_true_iff.mp markCharacters_checked).1 h

theorem isMark_of_isWord {c : Char} (h : isWord c = true) : isMark c = false := by
  cases hm : isMark c with
  | false => rfl
  | true =>
      have hw : wordCharacters.contains c = false :=
        CharSet.contains_eq_false_of_avoids (Bool.and_eq_true_iff.mp markCharacters_checked).2 hm
      rw [isWord, hw] at h
      exact Bool.noConfusion h

theorem isWord_of_isMark {c : Char} (h : isMark c = true) : isWord c = false := by
  cases hw : isWord c with
  | false => rfl
  | true =>
      rw [isMark_of_isWord hw] at h
      cases h

theorem ne_of_isMark {c d : Char} (hc : isMark c = false) (hd : isMark d = true) : c ≠ d := by
  intro h
  rw [h, hd] at hc
  exact Bool.noConfusion hc

theorem not_mem_of_isMark {s : List Char} {d : Char} (hs : Unmarked s) (hd : isMark d = true) :
    d ∉ s :=
  fun h => ne_of_isMark (hs d h) hd rfl

theorem isBlank_of_unmarked {s : List Char} (hs : Unmarked s) {c : Char} (hc : c ∈ s) :
    isBlank c = false := by
  cases hb : isBlank c with
  | false => rfl
  | true => exact absurd hc (not_mem_of_isMark hs (isMark_of_isBlank hb))

end Text
end AssemblerTables
