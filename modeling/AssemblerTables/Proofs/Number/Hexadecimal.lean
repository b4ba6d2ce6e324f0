/-
Which texts are hexadecimal numerals, and for which number each of them stands.

A numeral is read with a value so far, digit by digit.  Its form can be told without reading
it: a sign or none, an announcement or none, and a row of digits in which every low line
stands between two digits.  Its value is that of its digits in positional notation.  The
announcement takes nothing from the digits, since an x is none, and a row of digits cannot
be taken for a sign or an announcement.
-/
import AssemblerTables.Proofs.Number.Numeral
import AssemblerTables.Proofs.Result
import Mathlib.Data.Nat.Digits.Defs

namespace AssemblerTables
namespace Numeral

/-! ## Digits -/

def lowerDigits : List Char :=
  "0123456789abcdef".toList

/-- Is `c` the digit `d`?  Letters count in either case. -/
def IsDigit (r : Radix) (c : Char) (d : Nat) : Prop :=
  d < r.size ∧ (lowerDigits[d]? = some c ∨ upperDigits[d]? = some c)

section Digits

variable {r : Radix} {c : Char} {d : Nat}

theorem size_le (r : Radix) : r.size ≤ 16 := by
  cases r <;> decide

/-- Each of the three ranges of digits has them in a row. -/
theorem digit_of_asciiValue? (h : asciiValue? c = some d) :
    lowerDigits[d]? = some c ∨ upperDigits[d]? = some c := by
  have hlast : ∀ j, j < 10 → lowerDigits[j]? = some (Char.ofNat (j + 48)) := by decide
  have hlower : ∀ j, j < 6 → lowerDigits[j + 10]? = some (Char.ofNat (j + 97)) := by decide
  have hupper : ∀ j, j < 6 → upperDigits[j + 10]? = some (Char.ofNat (j + 65)) := by decide
  unfold asciiValue? at h
  split at h
  · rename_i hrange
    obtain ⟨j, hj⟩ := Nat.exists_eq_add_of_le' (show 48 ≤ c.toNat from hrange.1)
    have hmost : c.toNat ≤ 57 := hrange.2
    have hd : d = j := by rw [← Option.some.inj h]; omega
    rw [hd, ← Char.ofNat_toNat c, hj]
    exact .inl (hlast j (by omega))
  · split at h
    · rename_i hrange
      obtain ⟨j, hj⟩ := Nat.exists_eq_add_of_le' (show 97 ≤ c.toNat from hrange.1)
      have hmost : c.toNat ≤ 102 := hrange.2
      have hd : d = j + 10 := by rw [← Option.some.inj h]; omega
      rw [hd, ← Char.ofNat_toNat c, hj]
      exact .inl (hlower j (by omega))
    · split at h
      · rename_i hrange
        obtain ⟨j, hj⟩ := Nat.exists_eq_add_of_le' (show 65 ≤ c.toNat from hrange.1)
        have hmost : c.toNat ≤ 70 := hrange.2
        have hd : d = j + 10 := by rw [← Option.some.inj h]; omega
        rw [hd, ← Char.ofNat_toNat c, hj]
        exact .inr (hupper j (by omega))
      · cases h

theorem digitValue?_eq_some : digitValue? r c = some d ↔ IsDigit r c d := by
  have hvalues : ∀ d, d < 16 → lowerDigits[d]?.bind asciiValue? = some d ∧
      upperDigits[d]?.bind asciiValue? = some d := by decide
  rw [digitValue?, Option.filter_eq_some_iff, decide_eq_true_iff, IsDigit, and_comm]
  refine and_congr_right fun hd => ⟨digit_of_asciiValue?, fun h => ?_⟩
  obtain ⟨hlower, hupper⟩ := hvalues d (Nat.lt_of_lt_of_le hd (size_le r))
  rcases h with h | h
  · rw [h] at hlower
    exact hlower
  · rw [h] at hupper
    exact hupper

theorem not_isDigit_lowLine : ¬ IsDigit r '_' d := by
  rw [← digitValue?_eq_some, digitValue?_lowLine]
  exact fun h => by cases h

theorem IsDigit.ne_lowLine (h : IsDigit r c d) : c ≠ '_' := by
  intro hc
  rw [hc] at h
  exact not_isDigit_lowLine h

end Digits

/-! ## Rows of digits -/

/-- Does every low line of a text stand between two digits? -/
def LinesBetween (r : Radix) (s : List Char) : Prop :=
  ∀ before after, s = before ++ '_' :: after →
    (∃ c d, before.getLast? = some c ∧ IsDigit r c d) ∧
      ∃ c d, after.head? = some c ∧ IsDigit r c d

/-- Is `s` a row of the digits `ds`, with low lines between some of them? -/
structure IsRow (r : Radix) (s : List Char) (ds : List Nat) : Prop where
  digits : List.Forall₂ (IsDigit r) (s.filter (· ≠ '_')) ds
  lines : LinesBetween r s

/-- What may follow on a digit: digits, each alone or behind one low line. -/
inductive Further (r : Radix) : List Char → List Nat → Prop where
  | nil : Further r [] []
  | digit {c : Char} {d : Nat} {s : List Char} {ds : List Nat} :
      IsDigit r c d → Further r s ds → Further r (c :: s) (d :: ds)
  | behindLine {c : Char} {d : Nat} {s : List Char} {ds : List Nat} :
      IsDigit r c d → Further r s ds → Further r ('_' :: c :: s) (d :: ds)

section Rows

variable {r : Radix} {c e : Char} {d k : Nat} {s : List Char} {ds : List Nat}

theorem linesBetween_nil (r : Radix) : LinesBetween r [] := by
  intro before after h
  simp at h

theorem LinesBetween.cons (hc : IsDigit r c d) (h : LinesBetween r s) :
    LinesBetween r (c :: s) := by
  intro before after hs
  cases before with
  | nil => exact absurd (List.cons.inj hs).1 hc.ne_lowLine
  | cons b rest =>
      obtain ⟨⟨a, j, ha, hdigit⟩, hafter⟩ := h rest after (List.cons.inj hs).2
      exact ⟨⟨a, j, by simp [List.getLast?_cons, ha], hdigit⟩, hafter⟩

theorem LinesBetween.cons_line (hc : IsDigit r c d) (he : IsDigit r e k)
    (h : LinesBetween r (e :: s)) : LinesBetween r (c :: '_' :: e :: s) := by
  intro before after hs
  match before with
  | [] => exact absurd (List.cons.inj hs).1 hc.ne_lowLine
  | [b] =>
      simp only [List.cons_append, List.nil_append, List.cons.injEq, true_and] at hs
      obtain ⟨rfl, rfl⟩ := hs
      exact ⟨⟨c, d, rfl, hc⟩, e, k, rfl, he⟩
  | b :: b' :: rest =>
      obtain ⟨⟨a, j, ha, hdigit⟩, hafter⟩ := h rest after (List.cons.inj (List.cons.inj hs).2).2
      exact ⟨⟨a, j, by simp [List.getLast?_cons, ha], hdigit⟩, hafter⟩

/-- The part behind any other character than a low line is cut off with all its digits. -/
theorem LinesBetween.of_append (first : List Char) (h : LinesBetween r (first ++ s))
    (hs : s.head? ≠ some '_') : LinesBetween r s := by
  intro before after hsplit
  have hne : before ≠ [] := by
    intro hnil
    rw [hsplit, hnil] at hs
    exact hs rfl
  have hwhole := h (first ++ before) after (by rw [hsplit, List.append_assoc])
  rwa [List.getLast?_append_of_ne_nil _ hne] at hwhole

theorem filter_cons_of_ne (hc : c ≠ '_') :
    (c :: s).filter (· ≠ '_') = c :: s.filter (· ≠ '_') :=
  List.filter_cons_of_pos (decide_eq_true hc)

theorem filter_cons_line : ('_' :: s).filter (· ≠ '_') = s.filter (· ≠ '_') :=
  List.filter_cons_of_neg (by decide)

theorem IsRow.cons (hc : IsDigit r c d) (h : IsRow r s ds) : IsRow r (c :: s) (d :: ds) where
  digits := by
    rw [filter_cons_of_ne hc.ne_lowLine]
    exact .cons hc h.digits
  lines := h.lines.cons hc

theorem IsRow.cons_line (hc : IsDigit r c d) (he : IsDigit r e k)
    (h : IsRow r (e :: s) ds) : IsRow r (c :: '_' :: e :: s) (d :: ds) where
  digits := by
    rw [filter_cons_of_ne hc.ne_lowLine, filter_cons_line]
    exact .cons hc h.digits
  lines := h.lines.cons_line hc he

theorem Further.isRow (hc : IsDigit r c d) (h : Further r s ds) : IsRow r (c :: s) (d :: ds) := by
  induction h generalizing c d with
  | nil => exact IsRow.cons hc { digits := .nil, lines := linesBetween_nil r }
  | digit he _ ih => exact (ih he).cons hc
  | behindLine he _ ih => exact (ih he).cons_line hc he

theorem IsRow.head_ne (h : IsRow r (c :: s) ds) : c ≠ '_' := by
  intro hc
  obtain ⟨⟨b, k, hb, -⟩, -⟩ := h.lines [] s (by rw [hc]; rfl)
  cases hb

/-- A row starts with its first digit. -/
theorem IsRow.exists_first (h : IsRow r (c :: s) ds) :
    ∃ d others, ds = d :: others ∧ IsDigit r c d := by
  have hdigits := h.digits
  rw [filter_cons_of_ne h.head_ne, List.forall₂_cons_left_iff] at hdigits
  obtain ⟨d, others, hdigit, -, rfl⟩ := hdigits
  exact ⟨d, others, rfl, hdigit⟩

/-- A row goes on behind its first digit as a row may. -/
theorem IsRow.further (hc : IsDigit r c d) (h : IsRow r (c :: s) (d :: ds)) : Further r s ds := by
  generalize hn : s.length = n
  induction n using Nat.strongRecOn generalizing c d s ds with
  | ind n ih =>
      subst hn
      have hdigits := h.digits
      rw [filter_cons_of_ne hc.ne_lowLine, List.forall₂_cons] at hdigits
      match s with
      | [] =>
          have hds : ds = [] := List.forall₂_nil_left_iff.mp hdigits.2
          rw [hds]
          exact .nil
      | e :: rest =>
          by_cases hline : e = '_'
          · -- The low line stands between the first digit and another one.
            subst hline
            obtain ⟨-, e, j, he, hdigit⟩ := h.lines [c] rest rfl
            obtain ⟨others, rfl⟩ : ∃ others, rest = e :: others := List.head?_eq_some_iff.mp he
            rw [filter_cons_line] at hdigits
            have hrest : IsRow r (e :: others) ds :=
              { digits := hdigits.2,
                lines := h.lines.of_append [c, '_'] (by simpa using hdigit.ne_lowLine) }
            obtain ⟨k, ks, rfl, hk⟩ := hrest.exists_first
            exact .behindLine hk (ih _ (by simp only [List.length_cons]; omega) hk hrest rfl)
          · have hrest : IsRow r (e :: rest) ds :=
              { digits := hdigits.2,
                lines := h.lines.of_append [c] (by simpa using hline) }
            obtain ⟨k, ks, rfl, hk⟩ := hrest.exists_first
            exact .digit hk (ih _ (by simp only [List.length_cons]; omega) hk hrest rfl)

end Rows

/-! ## Values -/

/-- The number that digits stand for, the most significant first. -/
def valueOf (r : Radix) (ds : List Nat) : Nat :=
  Nat.ofDigits r.size ds.reverse

section Values

variable {r : Radix} {c : Char} {d v n : Nat} {s : List Char} {ds : List Nat}

theorem valueOf_cons (r : Radix) (d : Nat) (ds : List Nat) :
    valueOf r (d :: ds) = d * r.size ^ ds.length + valueOf r ds := by
  rw [valueOf, Nat.ofDigits_reverse_cons, valueOf, Nat.add_comm, Nat.mul_comm]

/-- Digits read after a value move it up by as many places. -/
def valueAfter (r : Radix) (v : Nat) (ds : List Nat) : Nat :=
  v * r.size ^ ds.length + valueOf r ds

theorem valueAfter_cons (r : Radix) (v d : Nat) (ds : List Nat) :
    valueAfter r v (d :: ds) = valueAfter r (v * r.size + d) ds := by
  rw [valueAfter, valueAfter, valueOf_cons, List.length_cons, pow_succ, Nat.add_mul]
  ring

theorem digitsAfter?_of_further (h : Further r s ds) (v : Nat) :
    digitsAfter? r v s = some (valueAfter r v ds) := by
  induction h generalizing v with
  | nil => simp [digitsAfter?, valueAfter, valueOf]
  | digit hc _ ih =>
      rw [digitsAfter?_cons hc.ne_lowLine, digitValue?_eq_some.mpr hc, valueAfter_cons]
      exact ih _
  | behindLine hc _ ih =>
      rw [digitsAfter?, digitValue?_eq_some.mpr hc, valueAfter_cons]
      exact ih _

theorem exists_further_of_digitsAfter? (h : digitsAfter? r v s = some n) :
    ∃ ds, Further r s ds := by
  fun_induction digitsAfter? r v s with
  | case1 => exact ⟨[], .nil⟩
  | case2 v c rest d hd ih =>
      obtain ⟨ds, hds⟩ := ih h
      exact ⟨d :: ds, .behindLine (digitValue?_eq_some.mp hd) hds⟩
  | case3 => cases h
  | case4 v c rest _ d hd ih =>
      obtain ⟨ds, hds⟩ := ih h
      exact ⟨d :: ds, .digit (digitValue?_eq_some.mp hd) hds⟩
  | case5 => cases h

/-- Digits are read exactly from a row that is not empty, as their value. -/
theorem digits?_eq_some :
    digits? r s = some n ↔ ∃ ds, IsRow r s ds ∧ ds ≠ [] ∧ n = valueOf r ds := by
  constructor
  · intro h
    cases s with
    | nil => cases h
    | cons c rest =>
        rw [digits?] at h
        cases hd : digitValue? r c with
        | none => simp [hd] at h
        | some d =>
            simp only [hd] at h
            have hc := digitValue?_eq_some.mp hd
            obtain ⟨ds, hds⟩ := exists_further_of_digitsAfter? h
            rw [digitsAfter?_of_further hds] at h
            refine ⟨d :: ds, hds.isRow hc, List.cons_ne_nil d ds, ?_⟩
            rw [valueOf_cons, ← Option.some.inj h, valueAfter]
  · intro h
    obtain ⟨ds, hrow, hne, hn⟩ := h
    cases s with
    | nil => exact absurd (List.forall₂_nil_left_iff.mp hrow.digits) hne
    | cons c rest =>
        obtain ⟨d, others, rfl, hdigit⟩ := hrow.exists_first
        rw [digits?, digitValue?_eq_some.mpr hdigit, hn, valueOf_cons]
        exact digitsAfter?_of_further (hrow.further hdigit) d

end Values

/-! ## Hexadecimal numerals -/

/-- The signs, and what each makes of a number. -/
def signs : List (List Char × Int) :=
  [([], 1), (['+'], 1), (['-'], -1)]

/-- What may stand between the sign and the digits. -/
def announcements : List (List Char) :=
  [[], ['0', 'x'], ['0', 'X'], ['0', 'x', '_'], ['0', 'X', '_']]

/-- Is `s` a hexadecimal numeral for `n`? -/
def IsHexadecimal (s : List Char) (n : Int) : Prop :=
  ∃ sign ∈ signs, ∃ announcement ∈ announcements, ∃ row ds,
    s = sign.1 ++ announcement ++ row ∧ IsRow .hexadecimal row ds ∧ ds ≠ [] ∧
      n = sign.2 * valueOf .hexadecimal ds

section Hexadecimal

variable {s row : List Char} {ds : List Nat} {c d : Char}

/-- A row has no sign in it and no letter of an announcement. -/
theorem IsRow.not_mem (h : IsRow .hexadecimal row ds) (hc : c ∈ ['+', '-', 'x', 'X']) :
    c ∉ row := by
  have hnone : ∀ c ∈ ['+', '-', 'x', 'X'], c ≠ '_' ∧ digitValue? .hexadecimal c = none := by
    decide
  obtain ⟨hline, hvalue⟩ := hnone c hc
  intro hmem
  obtain ⟨d, hd⟩ := Result.exists_of_forall₂ h.digits c
    (List.mem_filter.mpr ⟨hmem, decide_eq_true hline⟩)
  rw [← digitValue?_eq_some, hvalue] at hd
  cases hd

/-- The announcement is found in front of a row, and in no row. -/
theorem announced_append (h : IsRow .hexadecimal row ds) {announcement : List Char}
    (ha : announcement ∈ announcements) :
    announced .hexadecimal (announcement ++ row) = row := by
  have hbare : announced .hexadecimal row = row := by
    unfold announced
    split
    · rename_i x rest _
      have hx : ¬ (x = 'x' ∨ x = 'X') := by
        intro hx
        have hmark : x ∈ ['+', '-', 'x', 'X'] := by
          rcases hx with rfl | rfl <;> decide
        exact h.not_mem hmark (by simp)
      rw [if_neg hx]
    · rfl
  have hline : ∀ rest, row ≠ '_' :: rest := by
    intro rest hrow
    rw [hrow] at h
    exact h.head_ne rfl
  simp only [announcements, List.mem_cons, List.not_mem_nil, or_false] at ha
  rcases ha with rfl | rfl | rfl | rfl | rfl
  · exact hbare
  · simp only [announced, List.cons_append, List.nil_append, true_or, if_true]
  · simp only [announced, List.cons_append, List.nil_append, or_true, if_true]
  · simp [announced]
  · simp [announced]

theorem exists_announced (s : List Char) :
    ∃ announcement ∈ announcements, s = announcement ++ announced .hexadecimal s := by
  unfold announced
  split
  · rename_i x rest _
    by_cases hx : x = 'x' ∨ x = 'X'
    · rw [if_pos hx]
      split
      · rcases hx with rfl | rfl
        · exact ⟨['0', 'x', '_'], by decide, rfl⟩
        · exact ⟨['0', 'X', '_'], by decide, rfl⟩
      · rcases hx with rfl | rfl
        · exact ⟨['0', 'x'], by decide, rfl⟩
        · exact ⟨['0', 'X'], by decide, rfl⟩
    · rw [if_neg hx]
      exact ⟨[], by decide, rfl⟩
  · exact ⟨[], by decide, rfl⟩

/-- A hexadecimal numeral without a sign may have any number of digits. -/
theorem magnitude?_eq_some {n : Nat} :
    magnitude? .hexadecimal s = some n ↔
      ∃ announcement ∈ announcements, ∃ row ds,
        s = announcement ++ row ∧ IsRow .hexadecimal row ds ∧ ds ≠ [] ∧
          n = valueOf .hexadecimal ds := by
  show digits? .hexadecimal (announced .hexadecimal s) = some n ↔ _
  constructor
  · intro h
    obtain ⟨ds, hrow, hne, hn⟩ := digits?_eq_some.mp h
    obtain ⟨announcement, ha, hs⟩ := exists_announced s
    exact ⟨announcement, ha, announced .hexadecimal s, ds, hs, hrow, hne, hn⟩
  · intro h
    obtain ⟨announcement, ha, row, ds, hs, hrow, hne, hn⟩ := h
    rw [hs, announced_append hrow ha]
    exact digits?_eq_some.mpr ⟨ds, hrow, hne, hn⟩

/-- A sign is no part of a numeral that goes without. -/
theorem magnitude?_signed (hc : c ∈ ['+', '-']) (rest : List Char) :
    magnitude? .hexadecimal (c :: rest) = none := by
  have hannouncement : ∀ c ∈ ['+', '-'], ∀ a ∈ announcements, c ∉ a := by decide
  have hmarks : ∀ c ∈ ['+', '-'], c ∈ ['+', '-', 'x', 'X'] := by decide
  refine Option.eq_none_iff_forall_ne_some.mpr fun n h => ?_
  obtain ⟨announcement, ha, row, ds, hs, hrow, -, -⟩ := magnitude?_eq_some.mp h
  have hmem : c ∈ announcement ++ row := by
    rw [← hs]
    exact List.mem_cons_self
  rcases List.mem_append.mp hmem with hmem | hmem
  · exact hannouncement c hc announcement ha hmem
  · exact hrow.not_mem (hmarks c hc) hmem

theorem isHexadecimal_iff {n : Int} :
    IsHexadecimal s n ↔
      ∃ sign ∈ signs, ∃ rest k,
        s = sign.1 ++ rest ∧ magnitude? .hexadecimal rest = some k ∧ sign.2 * k = n := by
  constructor
  · intro h
    obtain ⟨sign, hsign, announcement, ha, row, ds, hs, hrow, hne, hn⟩ := h
    rw [List.append_assoc] at hs
    exact ⟨sign, hsign, announcement ++ row, valueOf .hexadecimal ds, hs,
      magnitude?_eq_some.mpr ⟨announcement, ha, row, ds, rfl, hrow, hne, rfl⟩, hn.symm⟩
  · intro h
    obtain ⟨sign, hsign, rest, k, hs, hk, hn⟩ := h
    obtain ⟨announcement, ha, row, ds, rfl, hrow, hne, rfl⟩ := magnitude?_eq_some.mp hk
    rw [← List.append_assoc] at hs
    exact ⟨sign, hsign, announcement, ha, row, ds, hs, hrow, hne, hn.symm⟩

/-- A text is read as a number exactly if it is a numeral for it, up to blanks around it and
the scripts of its digits. -/
theorem readChars?_eq_some {n : Int} :
    readChars? .hexadecimal s = some n ↔ IsHexadecimal (plain s) n := by
  rw [isHexadecimal_iff]
  simp only [signs, List.exists_mem_cons_iff, List.not_mem_nil, false_and, exists_false, or_false,
    List.nil_append, List.cons_append, Int.one_mul]
  unfold readChars?
  split
  · rename_i rest hs
    rw [hs]
    cases hk : magnitude? .hexadecimal rest <;> simp [hk, magnitude?_signed]
  · rename_i rest hs
    rw [hs]
    cases hk : magnitude? .hexadecimal rest <;> simp [hk, magnitude?_signed]
  · rename_i hminus hplus
    have hplus' : ∀ rest, plain s ≠ '+' :: rest := hplus
    have hminus' : ∀ rest, plain s ≠ '-' :: rest := hminus
    cases hk : magnitude? .hexadecimal (plain s) <;> simp [hk, hminus', hplus']

end Hexadecimal

end Numeral
end AssemblerTables
