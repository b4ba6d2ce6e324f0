/-
A path and its plain form lead to the same place.

Paths are looked at as they are written when a request is checked, and in their plain form
when they are opened.  The plain form leaves out steps that stay where they are.  A step
that stays still asks for a directory to stay in, so the plain form of a path can lead
somewhere where the path itself does not; but where both lead somewhere it is the same
place.
-/
import AssemblerTables.Proofs.Files.Store
import AssemblerTables.Proofs.Text.Pieces

namespace AssemblerTables

namespace Files
namespace Path

/-! ## Plain forms -/

theorem eq_of_isStep_eq_false {name : List Char} (h : isStep name = false) :
    name = [] ∨ name = ['.'] := by
  by_cases hempty : name = []
  · exact .inl hempty
  · exact .inr (by simpa [isStep, hempty] using h)

/-- The names of a plain form are steps that lead somewhere else, each between two slashes. -/
theorem isStep_of_mem_names {raw name : String} (h : name ∈ (ofText raw).names) :
    isStep name.toList = true ∧ '/' ∉ name.toList := by
  obtain ⟨piece, hpiece, rfl⟩ := List.mem_map.mp h
  obtain ⟨hmem, hstep⟩ := List.mem_filter.mp hpiece
  rw [String.toList_ofList]
  exact ⟨hstep, Text.not_mem_of_mem_pieces hmem⟩

theorem names_joined {names : List String}
    (h : ∀ name ∈ names, isStep name.toList = true ∧ '/' ∉ name.toList) :
    ((Text.pieces '/' (String.intercalate "/" names).toList).filter isStep).map String.ofList =
      names := by
  by_cases hne : names = []
  · rw [hne]
    rfl
  · have hkeep : ∀ name ∈ names.map String.toList, isStep name = true := by
      intro chars hchars
      obtain ⟨name, hname, rfl⟩ := List.mem_map.mp hchars
      exact (h name hname).1
    rw [Text.pieces_joined rfl hne fun name hname => (h name hname).2,
      List.filter_eq_self.mpr hkeep, Text.map_ofList_map_toList]

/-- Joined names do not start with a slash. -/
theorem takeWhile_joined {names : List String}
    (h : ∀ name ∈ names, isStep name.toList = true ∧ '/' ∉ name.toList) :
    (String.intercalate "/" names).toList.takeWhile (· = '/') = [] := by
  cases names with
  | nil => rfl
  | cons name rest =>
      obtain ⟨hstep, hslash⟩ := h name List.mem_cons_self
      cases hchars : name.toList with
      | nil =>
          rw [hchars] at hstep
          cases hstep
      | cons c chars =>
          have hc : c ≠ '/' := by
            rintro rfl
            rw [hchars] at hslash
            exact hslash List.mem_cons_self
          have htext : ∃ others, (String.intercalate "/" (name :: rest)).toList = c :: others := by
            cases rest with
            | nil => exact ⟨chars, by rw [String.intercalate_singleton, hchars]⟩
            | cons next others =>
                rw [String.intercalate_cons_cons, String.toList_append, String.toList_append,
                  hchars]
                exact ⟨_, rfl⟩
          obtain ⟨others, hothers⟩ := htext
          rw [hothers, List.takeWhile_cons_of_neg (by simpa using hc)]

theorem startOf_append {s : List Char} (h : s.takeWhile (· = '/') = []) (start : Start) :
    startOf (start.text.toList ++ s) = start := by
  cases start with
  | here => simp [startOf, Start.text, h]
  | top => simp [startOf, Start.text, h]
  | doubleTop => simp [startOf, Start.text, h]

/-- The slashes at the start are around no names. -/
theorem filter_isStep_append (s : List Char) (start : Start) :
    (Text.pieces '/' (start.text.toList ++ s)).filter isStep =
      (Text.pieces '/' s).filter isStep := by
  cases start with
  | here => rfl
  | top => rfl
  | doubleTop => rfl

/-- A path of names that lead somewhere else is the plain form of its text. -/
theorem ofText_text_of_names {p : Path}
    (h : ∀ name ∈ p.names, isStep name.toList = true ∧ '/' ∉ name.toList) :
    ofText p.text = p := by
  have hnames := names_joined h
  have hplain : ofText (p.start.text ++ String.intercalate "/" p.names) = p := by
    rw [ofText, String.toList_append, startOf_append (takeWhile_joined h), filter_isStep_append,
      hnames]
  rw [text]
  split
  · rename_i hempty
    rw [String.isEmpty_iff] at hempty
    rw [hempty] at hplain
    rw [← hplain]
    rfl
  · exact hplain

/-- A plain form is its own plain form. -/
theorem ofText_text (raw : String) : ofText (ofText raw).text = ofText raw :=
  ofText_text_of_names fun _ hname => isStep_of_mem_names hname

theorem mem_text {p : Path} {name : String} {c : Char}
    (h : ∀ name ∈ p.names, isStep name.toList = true ∧ '/' ∉ name.toList)
    (hname : name ∈ p.names) (hc : c ∈ name.toList) : c ∈ p.text.toList := by
  have hjoined : c ∈ (String.intercalate "/" p.names).toList := by
    have hpiece : name.toList ∈ Text.pieces '/' (String.intercalate "/" p.names).toList := by
      rw [Text.pieces_joined rfl (List.ne_nil_of_mem hname) fun n hn => (h n hn).2]
      exact List.mem_map_of_mem hname
    exact Text.mem_of_mem_pieces hpiece hc
  rw [text]
  split
  · rename_i hempty
    rw [String.isEmpty_iff, String.append_eq_empty_iff] at hempty
    rw [hempty.2] at hjoined
    cases hjoined
  · rw [String.toList_append]
    exact List.mem_append_right _ hjoined

/-- A plain form has all characters of the path but slashes and dots. -/
theorem mem_text_ofText {raw : String} {c : Char} (hslash : c ≠ '/') (hdot : c ≠ '.')
    (hc : c ∈ raw.toList) : c ∈ (ofText raw).text.toList := by
  have hpieces : c = '/' ∨ ∃ piece ∈ Text.pieces '/' raw.toList, c ∈ piece := Text.mem_pieces hc
  rcases hpieces with hsame | ⟨piece, hpiece, hmem⟩
  · exact absurd hsame hslash
  · have hstep : isStep piece = true := by
      apply Bool.of_not_eq_false
      intro hstay
      rcases eq_of_isStep_eq_false hstay with rfl | rfl
      · cases hmem
      · exact hdot (List.mem_singleton.mp hmem)
    have hname : String.ofList piece ∈ (ofText raw).names :=
      List.mem_map_of_mem (List.mem_filter.mpr ⟨hpiece, hstep⟩)
    refine mem_text (fun _ h => isStep_of_mem_names h) hname ?_
    rw [String.toList_ofList]
    exact hmem

end Path

/-! ## Where plain forms lead -/

namespace Store

variable {α : Type} {s : Store α} {p q : Place} {raw : String}

/-- Where the path to follow starts. -/
def base (s : Store α) : Start → Place
  | .here => s.here
  | _ => []

theorem base_startOf (s : Store α) (chars : List Char) :
    s.base (Path.startOf chars) = if chars.head? = some '/' then [] else s.here := by
  cases chars with
  | nil => rfl
  | cons c rest =>
      rw [List.head?_cons]
      by_cases hc : c = '/'
      · rw [if_pos (congrArg some hc), Path.startOf, List.takeWhile_cons_of_pos (by simpa using hc),
          List.length_cons]
        cases (rest.takeWhile (· = '/')).length with
        | zero => rfl
        | succ n => cases n <;> rfl
      · rw [if_neg fun h => hc (Option.some.inj h), Path.startOf,
          List.takeWhile_cons_of_neg (by simpa using hc)]
        rfl

/-- Steps that lead nowhere else can be left out. -/
theorem walk_filter {names : List (List Char)}
    (h : s.walk p (names.map String.ofList) = .ok q) :
    s.walk p ((names.filter Path.isStep).map String.ofList) = .ok q := by
  induction names generalizing p with
  | nil => exact h
  | cons name rest ih =>
      obtain ⟨next, hstep, hrest⟩ := Result.bind_eq_ok.mp h
      cases hname : Path.isStep name with
      | true =>
          rw [List.filter_cons_of_pos hname]
          exact Result.bind_eq_ok.mpr ⟨next, hstep, ih hrest⟩
      | false =>
          have hstay : String.ofList name = "" ∨ String.ofList name = "." := by
            rcases Path.eq_of_isStep_eq_false hname with rfl | rfl
            · exact .inl rfl
            · exact .inr rfl
          have hsame : next = p := by
            rw [step_stay (step_cases hstep).1 hstay] at hstep
            exact (Except.ok.inj hstep).symm
          rw [List.filter_cons_of_neg (by rw [hname]; exact Bool.false_ne_true), ← hsame]
          exact ih hrest

/-- What a path leads to is what its plain form says. -/
theorem walk_of_locate (h : s.locate raw = .ok p) :
    s.walk (s.base (Path.ofText raw).start) (Path.ofText raw).names = .ok p := by
  obtain ⟨-, -, -, hwalk⟩ := locate_eq_ok.mp h
  rw [← base_startOf] at hwalk
  exact walk_filter hwalk

theorem locate_plain (h : s.locate raw = .ok p) (hplain : s.locate (Path.ofText raw).text = .ok q) :
    p = q := by
  have hwalk := walk_of_locate hplain
  rw [Path.ofText_text, walk_of_locate h] at hwalk
  exact Except.ok.inj hwalk

/-! ## Null characters -/

theorem step_ne_nullCharacter {name : String} : s.step p name ≠ .error .nullCharacter := by
  intro h
  rw [step] at h
  split at h
  · cases h
  · split at h
    · cases h
    · split at h
      · cases h
      · split at h <;> cases h
  · cases h

theorem walk_ne_nullCharacter {names : List String} :
    s.walk p names ≠ .error .nullCharacter := by
  induction names generalizing p with
  | nil => exact fun h => by cases h
  | cons name rest ih =>
      intro h
      rcases Result.bind_eq_error.mp h with hstep | ⟨next, -, hrest⟩
      · exact step_ne_nullCharacter hstep
      · exact ih hrest

/-- Only a null character in the path itself is told as one. -/
theorem mem_of_find_eq_nullCharacter (h : s.find raw = .error .nullCharacter) :
    '\x00' ∈ raw.toList := by
  rcases Result.bind_eq_error.mp h with hlocate | ⟨place, -, hat⟩
  · rw [locate] at hlocate
    split at hlocate
    · rename_i hnull
      exact List.contains_iff_mem.mp hnull
    · split at hlocate
      · cases hlocate
      · split at hlocate
        · cases hlocate
        · exact absurd hlocate walk_ne_nullCharacter
  · split at hat <;> cases hat

/-- A path whose plain form leads somewhere has no null character. -/
theorem find_ne_nullCharacter (h : s.locate (Path.ofText raw).text = .ok p) :
    s.find raw ≠ .error .nullCharacter := by
  intro hfind
  have hnull := mem_of_find_eq_nullCharacter hfind
  exact (locate_eq_ok.mp h).1 (Path.mem_text_ofText (by decide) (by decide) hnull)

end Store
end Files
end AssemblerTables
