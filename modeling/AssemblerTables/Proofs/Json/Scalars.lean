/-
Strings and numbers in JSON text.

A part that has been read takes at least one character, so what is left is a proper end
of the text.  Strings never fail over the length of a numeral, and a number does so
exactly where the digits of an overlong integer begin.
-/
import AssemblerTables.Json.Reader
import AssemblerTables.Proofs.Result
import Mathlib.Data.List.Basic
import Mathlib.Data.List.TakeDrop

namespace AssemblerTables
namespace Json

/-! ## What is left -/

/-- Is `rest` what is left of `s` once at least one character of it has been read? -/
def IsBehind (rest s : List Char) : Prop :=
  ∃ front, front ≠ [] ∧ s = front ++ rest

namespace IsBehind

variable {rest s t : List Char}

theorem cons (h : rest <:+ s) (c : Char) : IsBehind rest (c :: s) := by
  obtain ⟨front, rfl⟩ := h
  exact ⟨c :: front, List.cons_ne_nil c front, rfl⟩

theorem isSuffix (h : IsBehind rest s) : rest <:+ s := by
  obtain ⟨front, -, rfl⟩ := h
  exact List.suffix_append front rest

theorem length_lt (h : IsBehind rest s) : rest.length < s.length := by
  obtain ⟨front, hfront, rfl⟩ := h
  have hpos := List.length_pos_iff.mpr hfront
  rw [List.length_append]
  omega

theorem of_isSuffix (hrest : IsBehind rest s) (h : t <:+ rest) : IsBehind t s := by
  obtain ⟨front, hfront, rfl⟩ := hrest
  obtain ⟨between, rfl⟩ := h
  exact ⟨front ++ between, fun hnil => hfront (List.append_eq_nil_iff.mp hnil).1,
    (List.append_assoc front between t).symm⟩

theorem mono (h : IsBehind rest t) (hst : t <:+ s) : IsBehind rest s := by
  obtain ⟨front, hfront, rfl⟩ := h
  obtain ⟨before, rfl⟩ := hst
  exact ⟨before ++ front, fun hnil => hfront (List.append_eq_nil_iff.mp hnil).2,
    (List.append_assoc before front rest).symm⟩

end IsBehind

theorem skipSpace_isSuffix (s : List Char) : skipSpace s <:+ s :=
  List.dropWhile_suffix isSpace

/-- Does a reader take at least one character wherever it succeeds? -/
def Consumes {α : Type} (r : List Char → Reading α) : Prop :=
  ∀ ⦃s : List Char⦄ ⦃a : α⦄ ⦃rest : List Char⦄, r s = .ok (a, rest) → IsBehind rest s

/-! ## Strings -/

/-- How a reading ends that meets no number: with something read from the start of `s`, or
at a place where the text is no JSON. -/
inductive Settles {α : Type} (s : List Char) : Reading α → Prop where
  | read {a : α} {rest : List Char} (h : IsBehind rest s) : Settles s (.ok (a, rest))
  | stopped (reason : Reason) (left : Nat) : Settles s (.error (.malformed reason left))

namespace Settles

variable {α β : Type} {s t : List Char}

theorem stop (reason : Reason) (left : List Char) :
    Settles s (Json.stop reason left : Reading α) :=
  .stopped reason left.length

theorem mono {r : Reading α} (h : Settles t r) (hst : t <:+ s) : Settles s r := by
  cases h with
  | read h => exact .read (h.mono hst)
  | stopped reason left => exact .stopped reason left

theorem map {r : Reading α} (h : Settles t r) (hst : t <:+ s) (f : α → β) :
    Settles s (r.map fun (a, rest) => (f a, rest)) := by
  cases h with
  | read h => exact .read (h.mono hst)
  | stopped reason left => exact .stopped reason left

theorem bind {r : Reading α} {k : α → List Char → Reading β} (h : Settles s r)
    (hk : ∀ a rest, Settles rest (k a rest)) :
    Settles s (r.bind fun (a, rest) => k a rest) := by
  cases h with
  | read h => exact (hk _ _).mono h.isSuffix
  | stopped reason left => exact .stopped reason left

theorem isBehind {a : α} {rest : List Char} (h : Settles s (.ok (a, rest) : Reading α)) :
    IsBehind rest s := by
  cases h
  assumption

end Settles

theorem stringRest_settles (opened : List Char) (high : Option Nat) (s : List Char) :
    Settles s (stringRest opened high s) := by
  have hescape : ∀ (a b c d : Char) (tail : List Char),
      tail <:+ '\\' :: 'u' :: a :: b :: c :: d :: tail :=
    fun a b c d tail => ⟨['\\', 'u', a, b, c, d], rfl⟩
  fun_induction stringRest opened high s with
  | case1 | case2 | case4 | case5 | case11 | case13 | case14 => exact .stop _ _
  | case3 => exact .read (.cons List.suffix_rfl '"')
  | case6 a b c d tail n _ first _ ih => exact ih.map (hescape a b c d tail) _
  | case7 a b c d tail n _ hahead hhigh _ =>
      rw [hhigh, hahead]
      exact .stop _ _
  | case8 a b c d tail n _ low hahead hhigh hlow _ ih =>
      rw [hhigh, hahead]
      show Settles _ (if isLowSurrogate low then _ else _)
      rw [if_pos hlow]
      exact ih.mono (hescape a b c d tail)
  | case9 a b c d tail n _ low hahead hhigh hlow _ ih =>
      rw [hhigh, hahead]
      show Settles _ (if isLowSurrogate low then _ else _)
      rw [if_neg hlow]
      exact ih.map (hescape a b c d tail) _
  | case10 a b c d tail n _ _ hbad hpair ih =>
      split
      · exact absurd ‹_› (hbad ‹_›)
      · exact absurd ‹_› (hpair _ ‹_›)
      · exact ih.map (hescape a b c d tail) _
  | case12 _ c rest _ e _ ih => exact ih.map ⟨['\\', c], rfl⟩ _
  | case15 _ c rest _ _ _ _ _ ih => exact ih.map (List.suffix_cons c rest) _

theorem string_settles (s : List Char) : Settles s (string s) :=
  (stringRest_settles ('"' :: s) none s).map List.suffix_rfl String.ofList

theorem string_consumes : Consumes string :=
  fun s _ _ h => (h ▸ string_settles s).isBehind

/-! ## Numbers -/

theorem span_isDigit_eq_iff {s digits rest : List Char} :
    s.span Char.isDigit = (digits, rest) ↔
      s = digits ++ rest ∧ (∀ c ∈ digits, c.isDigit) ∧ ∀ c ∈ rest.head?, ¬ c.isDigit := by
  rw [List.span_eq_takeWhile_dropWhile]
  constructor
  · intro h
    cases h
    refine ⟨List.takeWhile_append_dropWhile.symm, List.all_eq_true.mp List.all_takeWhile,
      fun c hc => ?_⟩
    have hhead := List.head?_dropWhile_not Char.isDigit s
    rw [Option.mem_def.mp hc] at hhead
    exact Bool.not_eq_true _ ▸ hhead
  · rintro ⟨rfl, hdigits, hrest⟩
    have hnone : rest.takeWhile Char.isDigit = [] ∧ rest.dropWhile Char.isDigit = rest := by
      cases rest with
      | nil => exact ⟨rfl, rfl⟩
      | cons c tail =>
          have hc := hrest c rfl
          exact ⟨List.takeWhile_cons_of_neg hc, List.dropWhile_cons_of_neg hc⟩
    rw [List.takeWhile_append_of_pos hdigits, List.dropWhile_append_of_pos hdigits, hnone.1,
      hnone.2, List.append_nil]

theorem head?_of_span_isDigit {s digits rest : List Char}
    (h : s.span Char.isDigit = (digits, rest)) : digits.head? = s.head?.filter Char.isDigit := by
  rw [List.span_eq_takeWhile_dropWhile] at h
  cases h
  exact List.head?_takeWhile

theorem isSuffix_of_span_isDigit {s digits rest : List Char}
    (h : s.span Char.isDigit = (digits, rest)) : rest <:+ s := by
  obtain ⟨rfl, -, -⟩ := span_isDigit_eq_iff.mp h
  exact List.suffix_append digits rest

/-- What is left behind the sign. -/
theorem eq_sign_append {s body : List Char} {negative : Bool}
    (h : (match s with | '-' :: rest => (true, rest) | rest => (false, rest)) = (negative, body)) :
    ∃ sign, (sign = [] ∨ sign = ['-']) ∧ s = sign ++ body := by
  split at h
  · cases h
    exact ⟨['-'], .inr rfl, rfl⟩
  · cases h
    exact ⟨[], .inl rfl, rfl⟩

theorem eq_body_of_sign {sign t body : List Char} {negative : Bool}
    (hsign : sign = [] ∨ sign = ['-']) (ht : t.head? ≠ some '-')
    (h : (match sign ++ t with | '-' :: rest => (true, rest) | rest => (false, rest)) =
      (negative, body)) : body = t := by
  rcases hsign with rfl | rfl
  · split at h
    · rename_i tail heq
      exact absurd (congrArg List.head? heq) ht
    · exact (Prod.mk.inj h).2.symm
  · exact (Prod.mk.inj h).2.symm

/-- The digits before the point are a zero alone, or all the digits in front where those do
not start with one. -/
theorem wholePart?_eq_some {s whole rest : List Char} :
    wholePart? s = some (whole, rest) ↔
      s = '0' :: rest ∧ whole = ['0'] ∨
        whole ≠ [] ∧ whole.head? ≠ some '0' ∧ s.span Char.isDigit = (whole, rest) := by
  fun_cases wholePart? s with
  | case1 tail =>
      constructor
      · intro h
        cases h
        exact .inl ⟨rfl, rfl⟩
      · rintro (⟨h, rfl⟩ | ⟨-, hhead, hspan⟩)
        · cases h
          rfl
        · exact absurd (head?_of_span_isDigit hspan) hhead
  | case2 c tail hne hc =>
      constructor
      · intro h
        have hspan := Option.some.inj h
        have hhead : whole.head? = some c :=
          (head?_of_span_isDigit hspan).trans (Option.filter_some_pos hc)
        refine .inr ⟨fun hnil => ?_, fun hzero => ?_, hspan⟩
        · rw [hnil] at hhead
          cases hhead
        · exact hne (Option.some.inj (hhead.symm.trans hzero))
      · rintro (⟨h, -⟩ | ⟨-, -, hspan⟩)
        · exact absurd (List.cons.inj h).1 hne
        · rw [hspan]
  | case3 c tail hne hc =>
      refine iff_of_false (fun h => by cases h) ?_
      rintro (⟨h, -⟩ | ⟨hnil, -, hspan⟩)
      · exact hne (List.cons.inj h).1
      · have hhead : whole.head? = none :=
          (head?_of_span_isDigit hspan).trans (Option.filter_some_neg (Bool.eq_false_iff.mpr hc))
        exact hnil (List.head?_eq_none_iff.mp hhead)
  | case4 =>
      refine iff_of_false (fun h => by cases h) ?_
      rintro (⟨h, -⟩ | ⟨hnil, -, hspan⟩)
      · cases h
      · exact hnil (List.head?_eq_none_iff.mp (head?_of_span_isDigit hspan))

theorem isBehind_of_wholePart? {s whole rest : List Char}
    (h : wholePart? s = some (whole, rest)) : IsBehind rest s := by
  rcases wholePart?_eq_some.mp h with ⟨rfl, -⟩ | ⟨hnil, -, hspan⟩
  · exact .cons List.suffix_rfl '0'
  · exact ⟨whole, hnil, (span_isDigit_eq_iff.mp hspan).1⟩

theorem isSuffix_of_fraction {s places rest : List Char} (h : fraction s = (places, rest)) :
    rest <:+ s := by
  revert h
  fun_cases fraction s with
  | case1 tail read hread =>
      intro h
      cases h
      exact List.suffix_rfl
  | case2 tail hne =>
      intro h
      exact (isSuffix_of_span_isDigit h).trans (List.suffix_cons '.' tail)
  | case3 =>
      intro h
      cases h
      exact List.suffix_rfl

theorem isSuffix_of_exponent? {s rest : List Char} {power : Int}
    (h : exponent? s = some (power, rest)) : rest <:+ s := by
  revert h
  fun_cases exponent? s with
  | case1 | case3 | case4 => exact fun h => by cases h
  | case2 e tail _ negative behind hsign digits left _ hspan =>
      intro h
      cases h
      have hbehind : behind <:+ tail := by
        split at hsign
        · cases hsign
          exact List.suffix_cons '-' _
        · cases hsign
          exact List.suffix_cons '+' _
        · cases hsign
          exact List.suffix_rfl
      exact ((isSuffix_of_span_isDigit hspan).trans hbehind).trans (List.suffix_cons e tail)

theorem number_consumes : Consumes number := by
  intro s v rest h
  revert h
  fun_cases number s with
  | case1 | case3 => exact fun h => by cases h
  | case2 negative body hsign whole behind hwhole left _ _ hfraction =>
      intro h
      cases h
      obtain ⟨sign, -, rfl⟩ := eq_sign_append hsign
      have hbody := isBehind_of_wholePart? hwhole
      exact (hbody.of_isSuffix (isSuffix_of_fraction hfraction)).mono (List.suffix_append sign body)
  | case4 negative body hsign whole behind hwhole left places power rest hfraction _ hpower =>
      intro h
      cases h
      obtain ⟨sign, -, rfl⟩ := eq_sign_append hsign
      have hbody := isBehind_of_wholePart? hwhole
      have hleft := hbody.of_isSuffix (isSuffix_of_fraction hfraction)
      have hrest : rest <:+ left := by
        cases hfound : exponent? left with
        | none =>
            rw [hfound] at hpower
            cases hpower
            exact List.suffix_rfl
        | some found =>
            rw [hfound] at hpower
            exact isSuffix_of_exponent? (hfound.trans (congrArg some hpower))
      exact (hleft.of_isSuffix hrest).mono (List.suffix_append sign body)

/-! ### Overlong integers -/

/-- Does an integer with more digits than a decimal numeral may have stand at the start of
`s`?  It has `n` digits, none in front of them a zero, with a sign or without one before and
neither a fraction nor an exponent behind. -/
def IsOverlong (n : Nat) (s : List Char) : Prop :=
  ∃ sign digits rest,
    s = sign ++ digits ++ rest ∧ (sign = [] ∨ sign = ['-']) ∧
      digits.length = n ∧ Radix.decimalLimit < n ∧ digits.head? ≠ some '0' ∧
      (∀ c ∈ digits, c.isDigit) ∧ (∀ c ∈ rest.head?, ¬ c.isDigit) ∧
      (fraction rest).1 = [] ∧ exponent? rest = none

theorem fraction_of_no_places {s : List Char} (h : (fraction s).1 = []) :
    fraction s = ([], s) := by
  revert h
  fun_cases fraction s with
  | case1 | case3 => exact fun _ => rfl
  | case2 tail hne =>
      intro h
      have hspan : tail.span Char.isDigit = ([], (tail.span Char.isDigit).2) := Prod.ext h rfl
      exact absurd hspan (hne _)

theorem isOverlong_of_number {s : List Char} {n : Nat}
    (h : number s = .error (.tooManyDigits n)) : IsOverlong n s := by
  revert h
  fun_cases number s with
  | case1 | case2 | case4 => exact fun h => by cases h
  | case3 negative body hsign whole behind hwhole rest hexponent hadmits hfraction =>
      intro h
      cases h
      obtain ⟨sign, hsigns, rfl⟩ := eq_sign_append hsign
      have hplaces := congrArg Prod.fst hfraction
      cases hfraction.symm.trans (fraction_of_no_places hplaces)
      have hlimit : Radix.decimalLimit < whole.length :=
        Nat.lt_of_not_le fun hle => hadmits (decide_eq_true hle)
      rcases wholePart?_eq_some.mp hwhole with ⟨-, rfl⟩ | ⟨-, hhead, hspan⟩
      · exact absurd hlimit (by decide)
      · obtain ⟨rfl, hdigits, hbehind⟩ := span_isDigit_eq_iff.mp hspan
        exact ⟨sign, whole, behind, (List.append_assoc ..).symm, hsigns, rfl, hlimit, hhead,
          hdigits, hbehind, hplaces, hexponent⟩

theorem number_of_isOverlong {s : List Char} {n : Nat} (h : IsOverlong n s) :
    number s = .error (.tooManyDigits n) := by
  obtain ⟨sign, digits, rest, rfl, hsign, rfl, hlimit, hhead, hdigits, hrest, hplaces,
    hexponent⟩ := h
  have hnil : digits ≠ [] := by
    rintro rfl
    exact absurd hlimit (by decide)
  have hwhole : wholePart? (digits ++ rest) = some (digits, rest) :=
    wholePart?_eq_some.mpr (.inr ⟨hnil, hhead, span_isDigit_eq_iff.mpr ⟨rfl, hdigits, hrest⟩⟩)
  have hadmits : ¬ Radix.decimal.admits digits.length = true :=
    fun h => Nat.not_le_of_lt hlimit (of_decide_eq_true h)
  have hminus : (digits ++ rest).head? ≠ some '-' := by
    obtain ⟨c, tail, rfl⟩ := List.exists_cons_of_ne_nil hnil
    rintro hc
    cases hc
    exact absurd (hdigits '-' List.mem_cons_self) (by decide)
  rw [List.append_assoc]
  -- The body behind the sign is the digits with the rest, whichever way the number is read.
  fun_cases number (sign ++ (digits ++ rest)) with
  | case1 negative body hbody hnone =>
      cases eq_body_of_sign hsign hminus hbody
      cases hwhole.symm.trans hnone
  | case2 negative body hbody whole behind hsome left _ hadmitted _ =>
      cases eq_body_of_sign hsign hminus hbody
      cases hwhole.symm.trans hsome
      exact absurd hadmitted hadmits
  | case3 negative body hbody whole behind hsome left _ _ _ =>
      cases eq_body_of_sign hsign hminus hbody
      cases hwhole.symm.trans hsome
      rfl
  | case4 negative body hbody whole behind hsome left places power last hfraction hfloat _ =>
      cases eq_body_of_sign hsign hminus hbody
      cases hwhole.symm.trans hsome
      cases (fraction_of_no_places hplaces).symm.trans hfraction
      exact absurd hexponent (hfloat rfl)

theorem number_eq_tooManyDigits {s : List Char} {n : Nat} :
    number s = .error (.tooManyDigits n) ↔ IsOverlong n s :=
  ⟨isOverlong_of_number, number_of_isOverlong⟩

end Json
end AssemblerTables
