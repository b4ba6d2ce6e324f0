/-
The settings that a command line can lead to.

The environment and the command line tell a stem and a row width.  So the identifiers of
keywords start with the stem in upper case and lines are indented by a tab.  A stem may
end with a line feed; beyond that there is no mark in an identifier, and neither of its
ends is blank.
-/
import AssemblerTables.Command.Run
import AssemblerTables.Proofs.Result
import AssemblerTables.Proofs.Text.Case
import AssemblerTables.Proofs.Text.Pieces

namespace AssemblerTables
namespace Settings

/-- Settings with a checked stem and row width and all else at its default. -/
structure Usual (s : Settings) : Prop where
  stem : isStem s.stem = true
  rowWidth : 1 ≤ s.keywordsPerRow
  keywordStem : s.keywordStem = none
  indent : s.indent = "\t"

/-! ## Changes -/

theorem ofFields_eq_ok {stem indent : String} {keywordStem : Option String} {width : Int}
    {s : Settings} (h : ofFields stem keywordStem width indent = .ok s) :
    isStem stem = true ∧ 1 ≤ width ∧
      s = { stem := stem, keywordStem := keywordStem, keywordsPerRow := width.toNat,
            indent := indent } := by
  rw [ofFields] at h
  by_cases hstem : isStem stem = true
  · rw [if_neg (by rw [hstem]; exact Bool.false_ne_true)] at h
    by_cases hwidth : width < 1
    · rw [if_pos hwidth] at h
      cases h
    · rw [if_neg hwidth] at h
      exact ⟨hstem, by omega, (Except.ok.inj h).symm⟩
  · rw [if_pos (by simpa using hstem)] at h
    cases h

theorem usual_of_update {s s' : Settings} {c : Changes} (hstem : s.keywordStem = none)
    (hindent : s.indent = "\t") (hcstem : c.keywordStem = none) (hcindent : c.indent = none)
    (h : s.update c = .ok s') : s'.Usual := by
  obtain ⟨hs, hwidth, rfl⟩ := ofFields_eq_ok h
  refine ⟨hs, ?_, ?_, ?_⟩
  · show 1 ≤ (c.keywordsPerRow.getD s.keywordsPerRow).toNat
    omega
  · show (c.keywordStem <|> s.keywordStem) = none
    rw [hcstem, hstem]
    rfl
  · show c.indent.getD s.indent = "\t"
    rw [hcindent, hindent]
    rfl

/-- The environment changes neither the start of identifiers nor the indent. -/
theorem changesOf_eq_ok {env : Environment} {c : Changes} (h : changesOf env = .ok c) :
    c.keywordStem = none ∧ c.indent = none := by
  simp only [changesOf] at h
  split at h
  · cases h
    exact ⟨rfl, rfl⟩
  · split at h
    · cases h
      exact ⟨rfl, rfl⟩
    · cases h

theorem usual_of_ofEnvironment {env : Environment} {s : Settings}
    (h : ofEnvironment env = .ok s) : s.Usual := by
  obtain ⟨c, hc, h⟩ := Result.bind_eq_ok.mp h
  obtain ⟨hstem, hindent⟩ := changesOf_eq_ok hc
  exact usual_of_update rfl rfl hstem hindent h

theorem usual_of_settingsOf {env : Environment} {r : Command.Request} {s : Settings}
    (h : Command.settingsOf env r = .ok s) : s.Usual := by
  rw [Command.settingsOf, Result.mapError_eq_ok] at h
  obtain ⟨s₀, hs₀, h⟩ := Result.bind_eq_ok.mp h
  have husual := usual_of_ofEnvironment hs₀
  exact usual_of_update husual.keywordStem husual.indent rfl rfl h

/-! ## Stems in upper case -/

theorem isMark_of_isInitial {c : Char} (h : isInitial c = true) : Text.isMark c = false := by
  rw [isInitial, Bool.or_eq_true, decide_eq_true_eq] at h
  rcases h with hletter | rfl
  · -- Both intervals of letters lie between marks.
    rcases Text.interval_of_isAlpha hletter with ⟨hlow, hhigh⟩ | ⟨hlow, hhigh⟩
    · exact Text.CharSet.covers_of_avoids (a := 65) (b := 90) (by decide) hlow hhigh
    · exact Text.CharSet.covers_of_avoids (a := 97) (b := 122) (by decide) hlow hhigh
  · decide

/-- A stem is a first character, word characters after it, and then at most a line feed. -/
theorem isStem_iff {stem : String} :
    isStem stem = true ↔ ∃ c body tail, stem.toList = c :: (body ++ tail) ∧ isInitial c = true ∧
      (∀ d ∈ body, Text.isWord d = true) ∧ (tail = [] ∨ tail = ['\n']) := by
  rw [isStem]
  constructor
  · intro h
    cases hstem : stem.toList with
    | nil =>
        rw [hstem] at h
        cases h
    | cons c rest =>
        rw [hstem] at h
        change (isInitial c && isTail rest) = true at h
        obtain ⟨hc, htail⟩ := Bool.and_eq_true_iff.mp h
        refine ⟨c, rest.takeWhile Text.isWord, rest.dropWhile Text.isWord, ?_, hc, ?_, ?_⟩
        · rw [List.takeWhile_append_dropWhile]
        · exact List.all_eq_true.mp List.all_takeWhile
        · rw [isTail] at htail
          split at htail
          · exact .inl ‹_›
          · exact .inr (of_decide_eq_true htail)
  · rintro ⟨c, body, tail, hstem, hc, hbody, htail⟩
    rw [hstem]
    show (isInitial c && isTail (body ++ tail)) = true
    rw [hc, Bool.true_and, isTail, List.dropWhile_append_of_pos hbody]
    rcases htail with rfl | rfl <;> rfl

theorem exists_of_isStem {stem : String} (h : isStem stem = true) :
    ∃ c body tail, stem.toList = c :: (body ++ tail) ∧ Text.isMark c = false ∧
      Text.Unmarked body ∧ (tail = [] ∨ tail = ['\n']) := by
  obtain ⟨c, body, tail, hstem, hc, hbody, htail⟩ := isStem_iff.mp h
  exact ⟨c, body, tail, hstem, isMark_of_isInitial hc,
    fun d hd => Text.isMark_of_isWord (hbody d hd), htail⟩

/-- The upper case form of a stem starts with a character that is no mark and has none
after it but a line feed. -/
theorem exists_of_upper_stem {stem : String} (h : isStem stem = true) :
    ∃ c rest, (Text.upper stem).toList = c :: rest ∧ Text.isMark c = false ∧
      ∀ d ∈ rest, Text.isMark d = false ∨ d = '\n' := by
  obtain ⟨c, body, tail, hstem, hc, hbody, htail⟩ := exists_of_isStem h
  have hupper : (Text.upper stem).toList =
      Text.upperChar c ++ (Text.upperChars body ++ Text.upperChars tail) := by
    rw [Text.toList_upper, hstem, Text.upperChars, List.flatMap_cons, List.flatMap_append]
    rfl
  have hfirst := Text.unmarked_upperChar hc
  cases hform : Text.upperChar c with
  | nil => exact absurd hform (Text.upperChar_ne_nil c)
  | cons u others =>
      rw [hform] at hupper hfirst
      refine ⟨u, others ++ (Text.upperChars body ++ Text.upperChars tail), hupper,
        hfirst u List.mem_cons_self, fun d hd => ?_⟩
      rw [List.mem_append, List.mem_append] at hd
      rcases hd with hd | hd | hd
      · exact .inl (hfirst d (List.mem_cons_of_mem _ hd))
      · exact .inl (Text.unmarked_upperChars hbody d hd)
      · rcases htail with rfl | rfl
        · exact absurd hd List.not_mem_nil
        · have hline : Text.upperChars ['\n'] = ['\n'] := rfl
          rw [hline, List.mem_singleton] at hd
          exact .inr hd

/-! ## Identifiers -/

namespace Usual

variable {s : Settings} {w : String}

theorem keywordStart_eq (h : s.Usual) : s.keywordStart = Text.upper s.stem ++ "_KEYW_" := by
  rw [keywordStart, h.keywordStem]
  rfl

/-- An identifier: the stem in upper case, and then a text without marks. -/
theorem toList_identifier (h : s.Usual) (w : String) :
    (s.keywordStart ++ Text.upper w).toList =
      (Text.upper s.stem).toList ++ ("_KEYW_".toList ++ Text.upperChars w.toList) := by
  rw [h.keywordStart_eq, String.toList_append, String.toList_append, List.append_assoc,
    Text.toList_upper w]

theorem unmarked_identifier_end (hw : Text.Unmarked w.toList) :
    Text.Unmarked ("_KEYW_".toList ++ Text.upperChars w.toList) := by
  have hline : Text.Unmarked "_KEYW_".toList := by decide
  intro c hc
  rcases List.mem_append.mp hc with hc | hc
  · exact hline c hc
  · exact Text.unmarked_upperChars hw c hc

theorem trim_identifier (h : s.Usual) (hw : Text.Unmarked w.toList) :
    Text.trim (s.keywordStart ++ Text.upper w).toList =
      (s.keywordStart ++ Text.upper w).toList := by
  obtain ⟨c, rest, hupper, hc, -⟩ := exists_of_upper_stem h.stem
  have hblank : Text.isBlank c = false :=
    Text.isBlank_of_unmarked (s := [c]) (by simpa [Text.Unmarked] using hc) (by simp)
  rw [h.toList_identifier, hupper]
  exact Text.trim_between hblank
    (fun d hd => Text.isBlank_of_unmarked (unmarked_identifier_end hw) hd) (by simp)

/-- The only mark in an identifier is a line feed. -/
theorem not_mem_identifier (h : s.Usual) (hw : Text.Unmarked w.toList) {d : Char}
    (hd : Text.isMark d = true) (hline : d ≠ '\n') :
    d ∉ (s.keywordStart ++ Text.upper w).toList := by
  obtain ⟨c, rest, hupper, hc, hrest⟩ := exists_of_upper_stem h.stem
  rw [h.toList_identifier, hupper, List.mem_append, List.mem_cons]
  rintro ((rfl | hmem) | hmem)
  · exact Text.ne_of_isMark hc hd rfl
  · rcases hrest d hmem with hmark | rfl
    · exact Text.ne_of_isMark hmark hd rfl
    · exact hline rfl
  · exact Text.not_mem_of_isMark (unmarked_identifier_end hw) hd hmem

end Usual

end Settings
end AssemblerTables
