/-
Numerals read back.

The digits of a number, most significant first, are read as the number, in decimal and
in upper case hexadecimal, and a hexadecimal numeral in at least two places is read as
the integer that it was written for.  So different integers have different numerals.
A byte has exactly two hexadecimal digits.
-/
import AssemblerTables.Number.Numeral
import AssemblerTables.Proofs.Text.Pieces

namespace AssemblerTables
namespace Numeral

/-! ## Digit by digit -/

section Digits

variable {r : Radix}

theorem digitValue?_lowLine (r : Radix) : digitValue? r '_' = none := by
  cases r <;> rfl

theorem digitsAfter?_cons {value : Nat} {c : Char} (hc : c ≠ '_') (rest : List Char) :
    digitsAfter? r value (c :: rest) =
      (digitValue? r c).bind fun d => digitsAfter? r (value * r.size + d) rest := by
  rw [digitsAfter?.eq_3 r value c rest fun _ _ h _ => hc h]
  cases digitValue? r c with
  | none => rfl
  | some d => rfl

theorem digitsAfter?_append {value : Nat} {s : List Char} (hs : '_' ∉ s) (t : List Char) :
    digitsAfter? r value (s ++ t) =
      (digitsAfter? r value s).bind fun v => digitsAfter? r v t := by
  induction s generalizing value with
  | nil => rfl
  | cons c rest ih =>
      rw [List.mem_cons, not_or] at hs
      rw [List.cons_append, digitsAfter?_cons (Ne.symm hs.1), digitsAfter?_cons (Ne.symm hs.1)]
      cases digitValue? r c with
      | none => rfl
      | some d => exact ih hs.2

theorem digits?_append {s : List Char} (hs : '_' ∉ s) (hne : s ≠ []) (t : List Char) :
    digits? r (s ++ t) = (digits? r s).bind fun v => digitsAfter? r v t := by
  cases s with
  | nil => exact absurd rfl hne
  | cons c rest =>
      rw [List.mem_cons, not_or] at hs
      rw [List.cons_append, digits?, digits?]
      cases digitValue? r c with
      | none => rfl
      | some d => exact digitsAfter?_append hs.2 t

/-- A zero in front changes nothing. -/
theorem digits?_zero_cons {s : List Char} (hs : '_' ∉ s) (hne : s ≠ []) :
    digits? r ('0' :: s) = digits? r s := by
  have hzero : digitValue? r '0' = some 0 := by cases r <;> rfl
  cases s with
  | nil => exact absurd rfl hne
  | cons c rest =>
      rw [List.mem_cons, not_or] at hs
      rw [digits?, hzero, digits?]
      show digitsAfter? r 0 (c :: rest) = _
      rw [digitsAfter?_cons (Ne.symm hs.1), Nat.zero_mul]
      cases digitValue? r c with
      | none => rfl
      | some d =>
          show digitsAfter? r (0 + d) rest = _
          rw [Nat.zero_add]

theorem mem_toDigits {b n : Nat} (hb : 1 < b) {c : Char} (hc : c ∈ Nat.toDigits b n) :
    ∃ d, d < b ∧ c = Nat.digitChar d := by
  induction n using Nat.strongRecOn with
  | ind n ih =>
      by_cases hn : n < b
      · rw [Nat.toDigits_of_lt_base hn, List.mem_singleton] at hc
        exact ⟨n, hn, hc⟩
      · rw [Nat.toDigits_of_base_le hb (by omega), List.mem_append, List.mem_singleton] at hc
        rcases hc with hc | hc
        · exact ih (n / b) (Nat.div_lt_self (by omega) hb) hc
        · exact ⟨n % b, Nat.mod_lt n (by omega), hc⟩

/-- Digits are read as their number in every spelling in which each digit has its value. -/
theorem digits?_toDigits (spell : Char → Char)
    (hspell : ∀ d, d < r.size → digitValue? r (spell (Nat.digitChar d)) = some d) (n : Nat) :
    digits? r ((Nat.toDigits r.size n).map spell) = some n := by
  have hbase : 1 < r.size := by cases r <;> decide
  have hline (n : Nat) : '_' ∉ (Nat.toDigits r.size n).map spell := by
    intro hmem
    obtain ⟨c, hc, hspelled⟩ := List.mem_map.mp hmem
    obtain ⟨d, hd, rfl⟩ := mem_toDigits hbase hc
    have hvalue := hspell d hd
    rw [hspelled, digitValue?_lowLine] at hvalue
    cases hvalue
  induction n using Nat.strongRecOn with
  | ind n ih =>
      by_cases hn : n < r.size
      · rw [Nat.toDigits_of_lt_base hn, List.map_singleton, digits?, hspell n hn]
        rfl
      · have hlast : n % r.size < r.size := Nat.mod_lt n (by omega)
        have hne : (Nat.toDigits r.size (n / r.size)).map spell ≠ [] := by simp
        have hlow : spell (Nat.digitChar (n % r.size)) ≠ '_' := by
          intro h
          have hvalue := hspell _ hlast
          rw [h, digitValue?_lowLine] at hvalue
          cases hvalue
        rw [Nat.toDigits_of_base_le hbase (by omega), List.map_append,
          digits?_append (hline _) hne, ih (n / r.size) (Nat.div_lt_self (by omega) hbase)]
        show digitsAfter? r (n / r.size) [spell (Nat.digitChar (n % r.size))] = some n
        rw [digitsAfter?_cons hlow, hspell _ hlast]
        show some (n / r.size * r.size + n % r.size) = some n
        rw [Nat.div_add_mod']

end Digits

theorem digits?_repr (n : Nat) : digits? .decimal n.repr.toList = some n := by
  have hread := digits?_toDigits (r := .decimal) id (by decide) n
  rw [List.map_id] at hread
  rw [Nat.toList_repr]
  exact hread

/-! ## Hexadecimal -/

/-- The digits that hexadecimal numerals are written with. -/
def upperDigits : List Char :=
  "0123456789ABCDEF".toList

theorem mem_upperDigits {n : Nat} {c : Char} (hc : c ∈ (hexNat n).toList) :
    c ∈ upperDigits := by
  rw [hexNat, String.toList_ofList, List.mem_map] at hc
  obtain ⟨d, hd, rfl⟩ := hc
  obtain ⟨k, hk, rfl⟩ := mem_toDigits (by decide) hd
  have hall : ∀ k, k < 16 → (Nat.digitChar k).toUpper ∈ upperDigits := by decide
  exact hall k hk

theorem hexNat_ne_nil (n : Nat) : (hexNat n).toList ≠ [] := by
  rw [hexNat, String.toList_ofList]
  simp

theorem digits?_hexNat (n : Nat) : digits? .hexadecimal (hexNat n).toList = some n := by
  rw [hexNat, String.toList_ofList]
  exact digits?_toDigits (r := .hexadecimal) Char.toUpper (by decide) n

/-- A hexadecimal numeral has no sign, no announcement and nothing to make plain. -/
theorem magnitude?_of_upperDigits {s : List Char} (hs : ∀ c ∈ s, c ∈ upperDigits) :
    magnitude? .hexadecimal s = digits? .hexadecimal s := by
  have hannounced : announced .hexadecimal s = s := by
    unfold announced
    split
    · rename_i x _ _
      have hx : ∀ c ∈ upperDigits, ¬ (c = 'x' ∨ c = 'X') := by decide
      rw [if_neg (hx x (hs x (List.mem_cons_of_mem _ List.mem_cons_self)))]
    · rfl
  rw [magnitude?, hannounced]
  rfl

theorem plain_eq_self {s : List Char} (hs : ∀ c ∈ s, isMargin c = false ∧ plainDigit c = c) :
    plain s = s := by
  have hmargin : ∀ c ∈ s, isMargin c = false := fun c hc => (hs c hc).1
  rw [plain, Text.dropStart_eq_self hmargin, Text.dropEnd_eq_self hmargin]
  exact (List.map_congr_left fun c hc => (hs c hc).2).trans (List.map_id s)

/-- What hexadecimal numerals are written with stays as it is. -/
theorem plain_of_written : ∀ c ∈ '-' :: upperDigits, isMargin c = false ∧ plainDigit c = c := by
  decide

theorem readChars?_unsigned {s : List Char} (hs : ∀ c ∈ s, c ∈ upperDigits) :
    readChars? .hexadecimal s = (digits? .hexadecimal s).map fun n : Nat => (n : Int) := by
  have hsign : ∀ c ∈ upperDigits, c ≠ '-' ∧ c ≠ '+' := by decide
  rw [readChars?, plain_eq_self fun c hc => plain_of_written c (List.mem_cons_of_mem _ (hs c hc))]
  split
  · exact absurd rfl (hsign '-' (hs '-' List.mem_cons_self)).1
  · exact absurd rfl (hsign '+' (hs '+' List.mem_cons_self)).2
  · rw [magnitude?_of_upperDigits hs]
    cases digits? .hexadecimal s <;> rfl

theorem readChars?_negative {s : List Char} (hs : ∀ c ∈ s, c ∈ upperDigits) :
    readChars? .hexadecimal ('-' :: s) =
      (digits? .hexadecimal s).map fun n : Nat => -(n : Int) := by
  have hall : ∀ c ∈ '-' :: s, c ∈ '-' :: upperDigits := by
    intro c hc
    rcases List.mem_cons.mp hc with rfl | hc
    · exact List.mem_cons_self
    · exact List.mem_cons_of_mem _ (hs c hc)
  rw [readChars?, plain_eq_self fun c hc => plain_of_written c (hall c hc)]
  simp only [magnitude?_of_upperDigits hs]
  cases digits? .hexadecimal s <;> rfl

theorem hex_ofNat_mem {n : Nat} {c : Char} (hc : c ∈ (hex n).toList) : c ∈ upperDigits := by
  change c ∈ (if n < 16 then "0" ++ hexNat n else hexNat n).toList at hc
  split at hc
  · rw [String.toList_append, List.mem_append] at hc
    rcases hc with hc | hc
    · have hzero : ∀ c ∈ "0".toList, c ∈ upperDigits := by decide
      exact hzero c hc
    · exact mem_upperDigits hc
  · exact mem_upperDigits hc

theorem mem_hex {n : Int} {c : Char} (hc : c ∈ (hex n).toList) : c ∈ '-' :: upperDigits := by
  cases n with
  | ofNat n => exact List.mem_cons_of_mem _ (hex_ofNat_mem hc)
  | negSucc n =>
      rw [hex, String.toList_append, List.mem_append] at hc
      rcases hc with hc | hc
      · rw [List.mem_singleton.mp hc]
        exact List.mem_cons_self
      · exact List.mem_cons_of_mem _ (mem_upperDigits hc)

theorem digits?_hex_ofNat (n : Nat) : digits? .hexadecimal (hex n).toList = some n := by
  have hline : '_' ∉ (hexNat n).toList := by
    intro h
    have hnone : '_' ∉ upperDigits := by decide
    exact hnone (mem_upperDigits h)
  change digits? .hexadecimal (if n < 16 then "0" ++ hexNat n else hexNat n).toList = _
  split
  · rw [String.toList_append]
    show digits? .hexadecimal ('0' :: (hexNat n).toList) = _
    rw [digits?_zero_cons hline (hexNat_ne_nil n), digits?_hexNat]
  · exact digits?_hexNat n

/-- A hexadecimal numeral is read as the integer that it was written for. -/
theorem readChars?_hex (n : Int) : readChars? .hexadecimal (hex n).toList = some n := by
  cases n with
  | ofNat n =>
      have hread := readChars?_unsigned (s := (hex (n : Int)).toList) fun _ hc => hex_ofNat_mem hc
      rw [digits?_hex_ofNat] at hread
      exact hread
  | negSucc n =>
      have hminus : (hex (Int.negSucc n)).toList = '-' :: (hexNat (n + 1)).toList := by
        rw [hex, String.toList_append]
        rfl
      rw [hminus, readChars?_negative fun _ hc => mem_upperDigits hc, digits?_hexNat]
      rfl

theorem hex_injective {m n : Int} (h : hex m = hex n) : m = n := by
  have hread : some m = some n := by rw [← readChars?_hex m, h, readChars?_hex]
  exact Option.some.inj hread

/-- A byte has two digits. -/
theorem length_hex {n : Nat} (hn : n < 256) : (hex n).toList.length = 2 := by
  change (if n < 16 then "0" ++ hexNat n else hexNat n).toList.length = 2
  split
  · rename_i hsmall
    have hdigit : (hexNat n).toList = [(Nat.digitChar n).toUpper] := by
      rw [hexNat, String.toList_ofList, Nat.toDigits_of_lt_base hsmall]
      rfl
    rw [String.toList_append, hdigit]
    rfl
  · rename_i hlarge
    have hhigh : n / 16 < 16 := by omega
    rw [hexNat, String.toList_ofList, Nat.toDigits_of_base_le (by decide) (by omega),
      Nat.toDigits_of_lt_base hhigh]
    rfl

end Numeral
end AssemblerTables
