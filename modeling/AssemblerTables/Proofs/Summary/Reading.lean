/-
The summary read back.

A reader cuts the text at line feeds and the lines at blanks.  Each line is fields with spaces
between them, whatever the width of the columns and however far a long mnemonic or a large
number goes beyond them, since no mnemonic and no name of a mode has a blank in it.  So the
reader finds the totals, and for each line the parts that it was written from.
-/
import AssemblerTables.Proofs.Command.Text
import AssemblerTables.Proofs.Text.Lines

namespace AssemblerTables

/-- A mnemonic has a character. -/
theorem Pattern.mnemonic?_ne_nil {pattern m : String} (h : mnemonic? pattern = some m) :
    m.toList ≠ [] := by
  intro hnil
  by_cases hword : firstWord pattern = []
  · rw [mnemonic?_eq_none.mpr hword] at h
    cases h
  · rw [mnemonic?_eq_some hword, Option.some.injEq] at h
    rw [← h, root, Text.lower, String.toList_ofList, String.toList_ofList] at hnil
    exact hword (Text.eq_of_lowerChars_of_startsWith List.nil_prefix hnil.symm).symm

namespace Summary

/-! ## Reading -/

/-- What a line tells of a mnemonic.  A line without names of modes has a dash for them. -/
structure Line where
  place : Nat
  mnemonic : String
  count : Nat
  modes : Option (List String)
deriving DecidableEq

/-- What a summary tells. -/
structure Report where
  instructions : Nat
  keywords : Nat
  mnemonics : Nat
  entries : Nat
  variants : Nat
  lines : List Line
deriving DecidableEq

/-- All variants that the lines tell of. -/
def Report.counted (r : Report) : Nat :=
  (r.lines.map Line.count).foldr (· + ·) 0

def number? (w : String) : Option Nat :=
  Numeral.digits? .decimal w.toList

/-- The names in the last column, which may be cut at its blanks: they have commas between
them. -/
def names? (column : List String) : Option (List String) :=
  let letters := column.flatMap String.toList
  if letters = ['-'] then none else some ((Text.pieces ',' letters).map String.ofList)

def Line.ofFields? : List String → Option Line
  | place :: mnemonic :: count :: column => do
    let place ← number? place
    let count ← number? count
    return { place := place, mnemonic := mnemonic, count := count, modes := names? column }
  | _ => none

def instructions? : List String → Option Nat
  | [label, n] => if label = "Instructions:" then number? n else none
  | _ => none

/-- The number of keywords, and that of mnemonics behind a bracket. -/
def keywords? : List String → Option (Nat × Nat)
  | [label, n, m, unit] =>
    if label = "Keywords:" ∧ unit = "mnemonics)" ∧ m.toList.head? = some '(' then do
      let n ← number? n
      let m ← Numeral.digits? .decimal m.toList.tail
      return (n, m)
    else none
  | _ => none

def lookup? : List String → Option (Nat × Nat)
  | [label, n, unit, m, unit'] =>
    if label = "Lookup:" ∧ unit = "entries," ∧ unit' = "variants" then do
      let n ← number? n
      let m ← number? m
      return (n, m)
    else none
  | _ => none

/-- Three lines of totals, an empty line, and then a line for each mnemonic. -/
def Report.ofLines? : List String → Option Report
  | first :: second :: third :: blank :: rest => do
    let instructions ← instructions? (Text.fields first)
    let (keywords, mnemonics) ← keywords? (Text.fields second)
    let (entries, variants) ← lookup? (Text.fields third)
    let lines ← rest.mapM fun l => Line.ofFields? (Text.fields l)
    if blank = "" then
      return { instructions := instructions, keywords := keywords, mnemonics := mnemonics,
               entries := entries, variants := variants, lines := lines }
    else none
  | _ => none

def read? (text : String) : Option Report :=
  Report.ofLines? (Text.lines text)

/-! ## Fields of the lines -/

section Fields

open Text (IsField IsSpaced IsSpaces)

theorem isField_toString (n : Nat) : IsField (toString n) where
  ne_nil := by
    show n.repr.toList ≠ []
    rw [Nat.toList_repr]
    simp
  nonblank c hc := by
    have hdigits : ∀ d, d < 10 → Text.isBlank (Nat.digitChar d) = false := by decide
    change c ∈ n.repr.toList at hc
    rw [Nat.toList_repr] at hc
    obtain ⟨d, hd, rfl⟩ := Numeral.mem_toDigits (by decide) hc
    exact hdigits d hd

theorem number?_toString (n : Nat) : number? (toString n) = some n :=
  Numeral.digits?_repr n

theorem unmarked_name (m : Mode) : Text.Unmarked m.name.toList := by
  cases m <;> decide

theorem name_ne_dash (m : Mode) : m.name.toList ≠ ['-'] := by
  cases m <;> decide

/-- Without its blanks, the column of modes has names with nothing but commas between them. -/
theorem filter_intercalate {names : List String} (h : ∀ w ∈ names, Text.Unmarked w.toList) :
    (String.intercalate ", " names).toList.filter (fun c => !Text.isBlank c) =
      (String.intercalate "," names).toList := by
  induction names with
  | nil => rfl
  | cons w rest ih =>
      rw [List.forall_mem_cons] at h
      have hw : w.toList.filter (fun c => !Text.isBlank c) = w.toList := by
        refine List.filter_eq_self.mpr fun c hc => ?_
        rw [Text.isBlank_of_unmarked h.1 hc]
        rfl
      cases rest with
      | nil =>
          rw [String.intercalate_singleton, String.intercalate_singleton, hw]
      | cons v others =>
          simp only [String.intercalate_cons_cons, String.toList_append, List.filter_append,
            ih h.2, hw]
          rfl

/-- The column of modes is read as the names of the modes, or none. -/
theorem names?_modesText (e : LookupEntry) :
    names? (Text.fields (modesText e)) = if modeNames e = [] then none else some (modeNames e) := by
  have hunmarked : ∀ w ∈ modeNames e, Text.Unmarked w.toList := by
    intro w hw
    obtain ⟨m, -, rfl⟩ := List.mem_map.mp hw
    exact unmarked_name m
  by_cases hnone : modeNames e = []
  · have hdash : modesText e = "-" := by
      rw [modesText, hnone]
      rfl
    rw [if_pos hnone, hdash]
    decide +kernel
  · have hpieces : Text.pieces ',' (String.intercalate "," (modeNames e)).toList =
        (modeNames e).map String.toList :=
      Text.pieces_joined rfl hnone fun w hw => Text.not_mem_of_isMark (hunmarked w hw) (by decide)
    have hdash : (String.intercalate "," (modeNames e)).toList ≠ ['-'] := by
      intro h
      rw [h] at hpieces
      have hmem : ['-'] ∈ (modeNames e).map String.toList := by
        rw [← hpieces]
        decide
      obtain ⟨w, hw, hname⟩ := List.mem_map.mp hmem
      obtain ⟨m, -, rfl⟩ := List.mem_map.mp hw
      exact name_ne_dash m hname
    have hcolumn : modesText e = String.intercalate ", " (modeNames e) := by
      rw [modesText]
      exact if_neg (by simpa using hnone)
    rw [if_neg hnone, names?, Text.flatMap_fields, hcolumn, filter_intercalate hunmarked,
      if_neg hdash, hpieces, Text.map_ofList_map_toList]

/-- Every blank in the column of modes is a space. -/
theorem isSpaced_modesText (e : LookupEntry) :
    IsSpaced (modesText e) (Text.fields (modesText e)) where
  fields_eq := rfl
  spaces := by
    rw [modesText]
    split
    · decide
    · refine Text.forall_mem_intercalate (by decide) fun name hname c hc hblank => ?_
      obtain ⟨m, -, rfl⟩ := List.mem_map.mp hname
      rw [Text.isBlank_of_unmarked (unmarked_name m) hc] at hblank
      cases hblank

/-- What the line of an entry tells. -/
def Line.ofEntry (place : Nat) (e : LookupEntry) : Line :=
  { place := place, mnemonic := e.mnemonic, count := e.count,
    modes := if modeNames e = [] then none else some (modeNames e) }

theorem isSpaced_entryLine (place : Nat) {e : LookupEntry} (he : IsField e.mnemonic) :
    IsSpaced (entryLine place e)
      (toString place :: e.mnemonic :: toString e.count :: Text.fields (modesText e)) := by
  have hplace := (isField_toString place).isSpaced.padLeft 3
  have hcount := (isField_toString e.count).isSpaced.padLeft 3
  have hmnemonic := he.isSpaced.padRight 6
  have htwo : IsSpaces "  " := by decide
  have hone : IsSpaces " " := by decide
  have hbehind := hcount.append (by decide) htwo (isSpaced_modesText e)
  have hall := (hplace.append (by decide) htwo
    (hmnemonic.append (by decide) hone hbehind)).indent htwo
  have hline : entryLine place e = "  " ++ (Text.padLeft 3 (toString place) ++ ("  " ++
      (Text.padRight 6 e.mnemonic ++ (" " ++ (Text.padLeft 3 (toString e.count) ++
        ("  " ++ modesText e)))))) := by
    simp only [entryLine, CSource.toString_text, String.append_assoc]
  rw [hline]
  exact hall

theorem ofFields?_entryLine (place : Nat) {e : LookupEntry} (he : IsField e.mnemonic) :
    Line.ofFields? (Text.fields (entryLine place e)) = some (Line.ofEntry place e) := by
  rw [(isSpaced_entryLine place he).fields_eq, Line.ofFields?, number?_toString,
    number?_toString, names?_modesText]
  rfl

/-! ## Fields of the totals -/

theorem isSpaced_instructions (n : Nat) :
    IsSpaced ("Instructions: " ++ toString n) ["Instructions:", toString n] := by
  have hlabel : IsField "Instructions:" := ⟨by decide, by decide⟩
  have hall := hlabel.isSpaced.append (b := " ") (by decide) (by decide)
    (isField_toString n).isSpaced
  rw [← String.append_assoc] at hall
  exact hall

theorem isSpaced_keywords (n m : Nat) :
    IsSpaced ("Keywords:     " ++ toString n ++ " (" ++ toString m ++ " mnemonics)")
      ["Keywords:", toString n, "(" ++ toString m, "mnemonics)"] := by
  have hlabel : IsField "Keywords:" := ⟨by decide, by decide⟩
  have hunit : IsField "mnemonics)" := ⟨by decide, by decide⟩
  have hbracket : IsField ("(" ++ toString m) := by
    constructor
    · rw [String.toList_append]
      exact List.cons_ne_nil _ _
    · rw [String.toList_append, List.forall_mem_append]
      exact ⟨by decide, (isField_toString m).nonblank⟩
  have hall := hlabel.isSpaced.append (b := "     ") (by decide) (by decide)
    ((isField_toString n).isSpaced.append (b := " ") (by decide) (by decide)
      (hbracket.isSpaced.append (b := " ") (by decide) (by decide) hunit.isSpaced))
  rw [show "Keywords:     " = "Keywords:" ++ "     " from rfl, show " (" = " " ++ "(" from rfl,
    show " mnemonics)" = " " ++ "mnemonics)" from rfl]
  simp only [String.append_assoc] at hall ⊢
  exact hall

theorem isSpaced_lookup (n m : Nat) :
    IsSpaced ("Lookup:       " ++ toString n ++ " entries, " ++ toString m ++ " variants")
      ["Lookup:", toString n, "entries,", toString m, "variants"] := by
  have hlabel : IsField "Lookup:" := ⟨by decide, by decide⟩
  have hunit : IsField "entries," := ⟨by decide, by decide⟩
  have hunit' : IsField "variants" := ⟨by decide, by decide⟩
  have hall := hlabel.isSpaced.append (b := "       ") (by decide) (by decide)
    ((isField_toString n).isSpaced.append (b := " ") (by decide) (by decide)
      (hunit.isSpaced.append (b := " ") (by decide) (by decide)
        ((isField_toString m).isSpaced.append (b := " ") (by decide) (by decide)
          hunit'.isSpaced)))
  rw [show "Lookup:       " = "Lookup:" ++ "       " from rfl,
    show " entries, " = " " ++ "entries," ++ " " from rfl,
    show " variants" = " " ++ "variants" from rfl]
  simp only [String.append_assoc] at hall ⊢
  exact hall

/-! ## The summary read back -/

/-- What the summary of tables should tell. -/
def Report.ofTables (t : Tables) : Report :=
  { instructions := t.instructions.length,
    keywords := t.keywords.size,
    mnemonics := t.keywords.mnemonicCount.toNat,
    entries := t.lookup.size,
    variants := t.lookup.variantCount,
    lines := t.lookup.entries.mapIdx Line.ofEntry }

theorem mapM_entryLines {entries : List LookupEntry} (h : ∀ e ∈ entries, IsField e.mnemonic)
    (place : Nat) :
    (entryLines place entries).mapM (fun l => Line.ofFields? (Text.fields l)) =
      some (entries.mapIdx fun i => Line.ofEntry (place + i)) := by
  induction entries generalizing place with
  | nil => rfl
  | cons e rest ih =>
      rw [List.forall_mem_cons] at h
      have hplaces : (fun i => Line.ofEntry (place + 1 + i)) =
          fun i => Line.ofEntry (place + (i + 1)) := by
        funext i
        rw [Nat.add_assoc, Nat.add_comm 1 i]
      rw [entryLines, List.mapM_cons, ofFields?_entryLine place h.1, ih h.2, hplaces,
        List.mapIdx_cons]
      rfl

theorem totals_eq {t : Tables} (hcount : 0 ≤ t.keywords.mnemonicCount) :
    totals t =
      ["Instructions: " ++ toString t.instructions.length,
        "Keywords:     " ++ toString t.keywords.size ++ " (" ++
          toString t.keywords.mnemonicCount.toNat ++ " mnemonics)",
        "Lookup:       " ++ toString t.lookup.size ++ " entries, " ++
          toString t.lookup.variantCount ++ " variants",
        ""] := by
  rw [totals, CSource.toString_of_nonneg hcount]
  rfl

theorem length_entryLines (place : Nat) (entries : List LookupEntry) :
    (entryLines place entries).length = entries.length := by
  induction entries generalizing place with
  | nil => rfl
  | cons e rest ih => exact congrArg (· + 1) (ih (place + 1))

/-- The text is cut at the line ends that it was written with. -/
theorem lines_summaryText {t : Tables} (hcount : 0 ≤ t.keywords.mnemonicCount)
    (hmnemonics : ∀ e ∈ t.lookup.entries, IsField e.mnemonic) :
    Text.lines (summaryText t) = totals t ++ entryLines 0 t.lookup.entries := by
  refine Text.lines_unlines (List.cons_ne_nil _ _) fun l hl => ?_
  rcases List.mem_append.mp hl with hl | hl
  · rw [totals_eq hcount] at hl
    simp only [List.mem_cons, List.not_mem_nil, or_false] at hl
    rcases hl with rfl | rfl | rfl | rfl
    · exact (isSpaced_instructions _).feed_not_mem
    · exact (isSpaced_keywords _ _).feed_not_mem
    · exact (isSpaced_lookup _ _).feed_not_mem
    · exact List.not_mem_nil
  · obtain ⟨i, e, he, rfl⟩ := exists_of_mem_entryLines hl
    exact (isSpaced_entryLine i (hmnemonics e he)).feed_not_mem

/-- The summary tells what it should. -/
theorem read?_summaryText {t : Tables} (hcount : 0 ≤ t.keywords.mnemonicCount)
    (hmnemonics : ∀ e ∈ t.lookup.entries, IsField e.mnemonic) :
    read? (summaryText t) = some (Report.ofTables t) := by
  have hbracket (m : Nat) : ("(" ++ toString m).toList = '(' :: m.repr.toList := by
    rw [String.toList_append]
    rfl
  have hplaces : (fun i => Line.ofEntry (0 + i)) = Line.ofEntry := by
    funext i
    rw [Nat.zero_add]
  rw [read?, lines_summaryText hcount hmnemonics, totals_eq hcount, List.cons_append,
    List.cons_append, List.cons_append, List.cons_append, List.nil_append, Report.ofLines?,
    (isSpaced_instructions _).fields_eq, (isSpaced_keywords _ _).fields_eq,
    (isSpaced_lookup _ _).fields_eq, mapM_entryLines hmnemonics, hplaces]
  simp only [instructions?, keywords?, lookup?, number?_toString, hbracket, List.head?_cons,
    List.tail_cons, Numeral.digits?_repr, and_self, if_true]
  rfl

end Fields

end Summary
end AssemblerTables
