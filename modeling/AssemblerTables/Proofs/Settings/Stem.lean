/-
Which stems are accepted, and which of them are identifiers.

An identifier starts with an ASCII letter or the low line and goes on with ASCII letters,
digits and low lines.  Wherever a stem comes from, it is looked at in the same way, and every
identifier passes.  But more than identifiers do: the word characters of all scripts count,
and a line feed at the end is let through.  These two are the only ways for a stem to pass
and be no identifier.
-/
import AssemblerTables.Proofs.Settings.Changes

namespace AssemblerTables

namespace Text

/-! ## Characters of names -/

/-- An ASCII letter, a digit or the low line. -/
def isNameChar (c : Char) : Bool :=
  c.isAlphanum || c = '_'

/-- What is found of each of the first 128 code points holds of all ASCII characters. -/
theorem forall_ascii {p : Char → Prop} (h : ∀ n < 128, p (Char.ofNat n)) {c : Char}
    (hc : c.toNat < 128) : p c := by
  have hchar := h c.toNat hc
  rwa [Char.ofNat_toNat] at hchar

theorem isWord_of_ascii {c : Char} (hc : c.toNat < 128) : isWord c = isNameChar c :=
  forall_ascii (p := fun c => isWord c = isNameChar c) (by decide +kernel) hc

theorem ascii_of_isNameChar {c : Char} (h : isNameChar c = true) : c.toNat < 128 := by
  rw [isNameChar, Char.isAlphanum, Bool.or_eq_true, Bool.or_eq_true, decide_eq_true_eq] at h
  rcases h with (hletter | hdigit) | rfl
  · have hinterval := interval_of_isAlpha hletter
    omega
  · change (decide ('0'.val ≤ c.val) && decide (c.val ≤ '9'.val)) = true at hdigit
    rw [Bool.and_eq_true, decide_eq_true_eq, decide_eq_true_eq] at hdigit
    exact Nat.lt_of_le_of_lt (UInt32.le_iff_toNat_le.mp hdigit.2) (by decide)
  · decide

/-- The characters of names are the ASCII ones among the word characters. -/
theorem isNameChar_iff {c : Char} :
    isNameChar c = true ↔ isWord c = true ∧ c.toNat < 128 := by
  constructor
  · intro h
    have hc := ascii_of_isNameChar h
    rw [isWord_of_ascii hc]
    exact ⟨h, hc⟩
  · rintro ⟨h, hc⟩
    rwa [isWord_of_ascii hc] at h

end Text

namespace Settings

/-! ## Identifiers -/

/-- An ASCII letter or the low line, and after it nothing but characters of names. -/
def isIdentifier (p : String) : Bool :=
  match p.toList with
  | [] => false
  | c :: rest => (c.isAlpha || c = '_') && rest.all Text.isNameChar

theorem isIdentifier_iff {p : String} :
    isIdentifier p = true ↔ ∃ c rest, p.toList = c :: rest ∧ isInitial c = true ∧
      ∀ d ∈ rest, Text.isNameChar d = true := by
  rw [isIdentifier]
  cases hp : p.toList with
  | nil => simp
  | cons c rest => simp [isInitial]

theorem isNameChar_of_isInitial {c : Char} (h : isInitial c = true) :
    Text.isNameChar c = true := by
  rw [isInitial, Bool.or_eq_true] at h
  rw [Text.isNameChar, Char.isAlphanum, Bool.or_eq_true, Bool.or_eq_true]
  exact h.imp_left .inl

theorem isNameChar_of_isIdentifier {p : String} (h : isIdentifier p = true) :
    ∀ c ∈ p.toList, Text.isNameChar c = true := by
  obtain ⟨c, rest, hp, hc, hrest⟩ := isIdentifier_iff.mp h
  rw [hp]
  exact List.forall_mem_cons.mpr ⟨isNameChar_of_isInitial hc, hrest⟩

theorem isStem_of_isIdentifier {p : String} (h : isIdentifier p = true) : isStem p = true := by
  obtain ⟨c, rest, hp, hc, hrest⟩ := isIdentifier_iff.mp h
  refine isStem_iff.mpr ⟨c, rest, [], ?_, hc, ?_, .inl rfl⟩
  · rw [hp, List.append_nil]
  · exact fun d hd => (Text.isNameChar_iff.mp (hrest d hd)).1

/-- Among the stems that pass, identifiers are those in ASCII without a line feed at the
end. -/
theorem isIdentifier_iff_of_isStem {p : String} (hstem : isStem p = true) :
    isIdentifier p = true ↔ (∀ c ∈ p.toList, c.toNat < 128) ∧ p.toList.getLast? ≠ some '\n' := by
  constructor
  · intro h
    have hname := isNameChar_of_isIdentifier h
    refine ⟨fun c hc => Text.ascii_of_isNameChar (hname c hc), fun hlast => ?_⟩
    exact absurd (hname '\n' (List.mem_of_getLast? hlast)) (by decide)
  · rintro ⟨hascii, hlast⟩
    obtain ⟨c, body, tail, hp, hc, hbody, htail⟩ := isStem_iff.mp hstem
    rcases htail with rfl | rfl
    · rw [List.append_nil] at hp
      rw [hp] at hascii
      exact isIdentifier_iff.mpr ⟨c, body, hp, hc, fun d hd =>
        Text.isNameChar_iff.mpr ⟨hbody d hd, hascii d (List.mem_cons_of_mem _ hd)⟩⟩
    · rw [hp, ← List.cons_append, List.getLast?_concat] at hlast
      exact absurd rfl hlast

/-! ## Accepted stems -/

/-- Do settings come of a stem that is given as a field, by the environment or as a change? -/
inductive GivenStem (p : String) (s : Settings) : Prop where
  | field {keywordStem : Option String} {width : Int} {indent : String}
      (h : ofFields p keywordStem width indent = .ok s)
  | environment {env : Environment} (hvalue : valueOf? env "ISAGEN_PREFIX" = some p)
      (h : ofEnvironment env = .ok s)
  | change {s₀ : Settings} {c : Changes} (hstem : c.stem = some p) (h : s₀.update c = .ok s)

namespace GivenStem

variable {p : String} {s : Settings}

theorem stem_eq (h : GivenStem p s) : s.stem = p := by
  cases h with
  | field h => exact (ofFields_eq_ok_iff.mp h).2.1
  | environment hvalue h =>
      have hasked := (ofEnvironment_eq_ok.mp h).1.stem
      rw [hvalue] at hasked
      exact hasked
  | change hstem h => exact (update_eq_ok.mp h).1.stem.given p hstem

theorem isChecked (h : GivenStem p s) : s.IsChecked := by
  cases h with
  | field h => exact (ofFields_eq_ok_iff.mp h).1
  | environment _ h => exact (ofEnvironment_eq_ok.mp h).2
  | change _ h => exact (update_eq_ok.mp h).2

end GivenStem

/-- Every identifier is accepted in place of another stem. -/
theorem update_of_isIdentifier {p : String} {s : Settings} (h : isIdentifier p = true)
    (hs : s.IsChecked) : s.update { stem := some p } = .ok { s with stem := p } :=
  update_eq_ok.mpr ⟨follows_iff.mpr ⟨rfl, rfl, rfl, rfl⟩, isStem_of_isIdentifier h, hs.rowWidth⟩

/-- Settings that a stem is given for have this stem.  It is an identifier exactly if it has
no character beyond ASCII and no line feed at its end. -/
theorem given_stem_isIdentifier_iff {p : String} {s : Settings} (h : GivenStem p s) :
    s.stem = p ∧
      (isIdentifier p = true ↔
        (∀ c ∈ p.toList, c.toNat < 128) ∧ p.toList.getLast? ≠ some '\n') := by
  have hstem : isStem p = true := by
    rw [← h.stem_eq]
    exact h.isChecked.stem
  exact ⟨h.stem_eq, isIdentifier_iff_of_isStem hstem⟩

theorem given_stem_isIdentifier_iff_underscored :
    GivenStem "_r3" { stem := "_r3" } ∧ isIdentifier "_r3" = true := by
  have henv : ofEnvironment [("ISAGEN_PREFIX", "_r3")] = .ok { stem := "_r3" } := rfl
  have hgiven : GivenStem "_r3" { stem := "_r3" } := .environment rfl henv
  exact ⟨hgiven, (given_stem_isIdentifier_iff hgiven).2.mpr ⟨by decide, by decide⟩⟩

/-- A stem that ends in a line feed and one with a letter beyond ASCII are both accepted. -/
theorem given_stem_no_identifier :
    (GivenStem "r3\n" { stem := "r3\n" } ∧ isIdentifier "r3\n" = false) ∧
      GivenStem "cpué" { stem := "cpué" } ∧ isIdentifier "cpué" = false := by
  have hline : ofFields "r3\n" none 4 "\t" = .ok { stem := "r3\n" } := rfl
  have hletter : ({} : Settings).update { stem := some "cpué" } = .ok { stem := "cpué" } := rfl
  exact ⟨⟨.field hline, by decide⟩, .change rfl hletter, by decide⟩

end Settings
end AssemblerTables
