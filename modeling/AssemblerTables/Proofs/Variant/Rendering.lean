/-
Patterns written around modes.

A rendering is a word with modes behind it: the surface forms, with commas between them and
blanks wherever they may stand.  Its pattern resolves to its modes, and the pattern of every
resolved instruction is one.  So the modes of an instruction and the operands in its pattern
are the same thing up to blanks, and nothing else in the pattern bears on its variant.
-/
import AssemblerTables.Proofs.Variant.Stages

namespace AssemblerTables

namespace Mode

theorem surface_ne_nil (m : Mode) : m.surface.toList ≠ [] := by
  cases m <;> decide

theorem comma_not_mem_surface (m : Mode) : ',' ∉ m.surface.toList := by
  cases m <;> decide

/-- Does the surface form start like a word? -/
def opensWord (m : Mode) : Bool :=
  m.surface.toList.head?.any Text.isWord

end Mode

namespace Pattern

/-! ## Operands and renderings -/

/-- An operand as it stands in a pattern: the surface form of a mode between blanks. -/
structure Operand where
  mode : Mode
  before : List Char
  after : List Char
  blank_before : ∀ c ∈ before, Text.isBlank c = true
  blank_after : ∀ c ∈ after, Text.isBlank c = true

/-- A word, and what is written behind it: operands, or a gap of blanks where there are
none. -/
structure Rendering where
  word : List Char
  operands : List Operand
  gap : List Char
  word_ne_nil : word ≠ []
  isWord_word : ∀ c ∈ word, Text.isWord c = true
  blank_gap : ∀ c ∈ gap, Text.isBlank c = true
  /-- A first operand that starts like a word does not touch the word. -/
  apart : ∀ o ∈ operands.head?, o.mode.opensWord = true → o.before ≠ []

namespace Operand

def text (o : Operand) : List Char :=
  o.before ++ o.mode.surface.toList ++ o.after

end Operand

namespace Rendering

/-- The operands with single commas between them, or else the gap. -/
def tail (r : Rendering) : List Char :=
  match r.operands with
  | [] => r.gap
  | o :: os => [','].intercalate ((o :: os).map Operand.text)

def text (r : Rendering) : String :=
  String.ofList (r.word ++ r.tail)

def modes (r : Rendering) : List Mode :=
  r.operands.map Operand.mode

end Rendering

/-! ## One operand -/

namespace Operand

theorem trim_text (o : Operand) : Text.trim o.text = o.mode.surface.toList := by
  rw [text, Text.trim_padded o.blank_before o.blank_after, Mode.trim_surface]

theorem text_ne_nil (o : Operand) : o.text ≠ [] := by
  simp [text, o.mode.surface_ne_nil]

theorem comma_not_mem_text (o : Operand) : ',' ∉ o.text := by
  have hblank {b : List Char} (hb : ∀ c ∈ b, Text.isBlank c = true) : ',' ∉ b := by
    intro h
    have hcomma := hb ',' h
    revert hcomma
    decide
  simp [text, hblank o.blank_before, o.mode.comma_not_mem_surface, hblank o.blank_after]

/-- Blanks keep an operand apart from a word before it. -/
theorem head?_text_any (o : Operand) :
    o.text.head?.any Text.isWord = true ↔ o.before = [] ∧ o.mode.opensWord = true := by
  cases hbefore : o.before with
  | nil =>
      have htext : o.text.head? = o.mode.surface.toList.head? := by
        rw [text, hbefore, List.nil_append, List.head?_append_of_ne_nil _ o.mode.surface_ne_nil]
      simp [htext, Mode.opensWord]
  | cons c rest =>
      have hc : Text.isBlank c = true := o.blank_before c (by simp [hbefore])
      simp [text, hbefore, Text.isWord_of_isMark (Text.isMark_of_isBlank hc)]

/-- Every text that is a surface form up to blanks is an operand. -/
theorem exists_text {piece : List Char} {mode : Mode}
    (h : Text.trim piece = mode.surface.toList) :
    ∃ o : Operand, o.mode = mode ∧ o.text = piece := by
  obtain ⟨before, after, hbefore, hafter, hpiece⟩ := Text.exists_trim_append piece
  refine ⟨{ mode := mode, before := before, after := after, blank_before := hbefore,
            blank_after := hafter }, rfl, ?_⟩
  rw [text, ← h, List.append_assoc, hpiece]

theorem exists_texts {pieces : List (List Char)} {modes : List Mode}
    (h : (pieces.map fun piece => String.ofList (Text.trim piece)) = modes.map Mode.surface) :
    ∃ os : List Operand, os.map mode = modes ∧ os.map text = pieces := by
  induction modes generalizing pieces with
  | nil =>
      rw [List.map_nil, List.map_eq_nil_iff] at h
      exact ⟨[], rfl, h.symm⟩
  | cons mode rest ih =>
      cases pieces with
      | nil => cases h
      | cons piece others =>
          rw [List.map_cons, List.map_cons, List.cons.injEq] at h
          have hpiece : Text.trim piece = mode.surface.toList := by
            rw [← h.1, String.toList_ofList]
          obtain ⟨o, hmode, htext⟩ := exists_text hpiece
          obtain ⟨os, hmodes, htexts⟩ := ih h.2
          exact ⟨o :: os, by rw [List.map_cons, hmode, hmodes],
            by rw [List.map_cons, htext, htexts]⟩

/-- Joined operands start as the first of them does. -/
theorem head?_intercalate (o : Operand) (os : List Operand) :
    ([','].intercalate ((o :: os).map text)).head? = o.text.head? := by
  cases os with
  | nil => simp [List.intercalate]
  | cons p rest =>
      simp [List.intercalate, List.head?_append_of_ne_nil _ o.text_ne_nil]

end Operand

/-! ## The pattern of a rendering -/

namespace Rendering

theorem head?_tail_any (r : Rendering) : r.tail.head?.any Text.isWord = false := by
  rw [tail]
  cases hos : r.operands with
  | nil =>
      cases hgap : r.gap with
      | nil => rfl
      | cons c rest =>
          have hc : Text.isBlank c = true := r.blank_gap c (by simp [hgap])
          simp [Text.isWord_of_isMark (Text.isMark_of_isBlank hc)]
  | cons o os =>
      have hapart := r.apart o (by simp [hos])
      show ([','].intercalate ((o :: os).map Operand.text)).head?.any _ = _
      rw [Operand.head?_intercalate, Bool.eq_false_iff, Ne, Operand.head?_text_any]
      exact fun ⟨hbefore, hopens⟩ => hapart hopens hbefore

/-- The word ends where it should. -/
theorem firstWord_text (r : Rendering) : Pattern.firstWord r.text = r.word := by
  have htail : r.tail.takeWhile Text.isWord = [] := by
    have hhead := r.head?_tail_any
    cases htail : r.tail with
    | nil => rfl
    | cons c rest => simpa [htail] using hhead
  rw [Pattern.firstWord, text, String.toList_ofList, List.takeWhile_append_of_pos r.isWord_word,
    htail, List.append_nil]

theorem behind_text (r : Rendering) : Pattern.behind r.text = r.tail := by
  have hsplit := Pattern.toList_eq_append r.text
  rw [firstWord_text, text, String.toList_ofList] at hsplit
  exact (List.append_cancel_left hsplit).symm

theorem written_text (r : Rendering) : Pattern.written r.text = r.modes.map Mode.surface := by
  rw [Pattern.written, behind_text, tail, modes]
  cases hos : r.operands with
  | nil =>
      have hblank : Text.isBlankText r.gap = true := List.all_eq_true.mpr r.blank_gap
      rw [if_pos hblank]
      rfl
  | cons o os =>
      have hsplit : ([','].intercalate ((o :: os).map Operand.text)).splitOn ',' =
          (o :: os).map Operand.text :=
        List.splitOn_intercalate ',' (by simp [Operand.comma_not_mem_text]) (by simp)
      have hpieces : o.text ∈ Text.pieces ',' ([','].intercalate ((o :: os).map Operand.text)) := by
        rw [Text.pieces_eq_splitOn, hsplit]
        exact List.mem_cons_self
      have hblank : ¬ Text.isBlankText ([','].intercalate ((o :: os).map Operand.text)) = true := by
        intro hall
        have hnone : Text.trim o.text = [] := Text.trim_eq_nil fun c hc =>
          List.all_eq_true.mp hall c (Text.mem_of_mem_pieces hpieces hc)
        rw [o.trim_text] at hnone
        exact o.mode.surface_ne_nil hnone
      rw [if_neg hblank, hsplit, List.map_map, List.map_map]
      refine List.map_congr_left fun p _ => ?_
      show String.ofList (Text.trim p.text) = p.mode.surface
      rw [p.trim_text, String.ofList_toList]

/-- A pattern whose operands are the surface forms of modes is a rendering of them. -/
theorem exists_rendering {pattern : String} {modes : List Mode}
    (hword : Pattern.firstWord pattern ≠ [])
    (h : modes.map Mode.surface = Pattern.written pattern) :
    ∃ r : Rendering, r.text = pattern ∧ r.word = Pattern.firstWord pattern ∧ r.modes = modes := by
  have hisWord : ∀ c ∈ Pattern.firstWord pattern, Text.isWord c = true :=
    List.all_eq_true.mp List.all_takeWhile
  have hpattern :
      String.ofList (Pattern.firstWord pattern ++ Pattern.behind pattern) = pattern := by
    rw [← Pattern.toList_eq_append, String.ofList_toList]
  rw [Pattern.written] at h
  by_cases hblank : Text.isBlankText (Pattern.behind pattern) = true
  · rw [if_pos hblank, List.map_eq_nil_iff] at h
    exact ⟨{
      word := Pattern.firstWord pattern, operands := [], gap := Pattern.behind pattern,
      word_ne_nil := hword, isWord_word := hisWord,
      blank_gap := List.all_eq_true.mp hblank,
      apart := by simp }, hpattern, rfl, h.symm⟩
  · rw [if_neg hblank] at h
    obtain ⟨os, hmodes, htexts⟩ := Operand.exists_texts h.symm
    have htail : [','].intercalate (os.map Operand.text) = Pattern.behind pattern := by
      rw [htexts, List.intercalate_splitOn]
    cases os with
    | nil => exact absurd htexts.symm (List.splitOn_ne_nil _ _)
    | cons o rest =>
        -- The operands start where the word has ended, so not with a word character.
        have hhead : o.text.head?.any Text.isWord ≠ true := by
          rw [← Operand.head?_intercalate o rest, htail, Pattern.head?_behind_any]
          exact Bool.false_ne_true
        refine ⟨{
          word := Pattern.firstWord pattern, operands := o :: rest, gap := [],
          word_ne_nil := hword, isWord_word := hisWord,
          blank_gap := by simp,
          apart := by
            intro p hp hopens hbefore
            cases hp
            exact hhead (o.head?_text_any.mpr ⟨hbefore, hopens⟩) }, ?_, rfl, hmodes⟩
        show String.ofList (Pattern.firstWord pattern ++ [','].intercalate _) = pattern
        rw [htail, hpattern]

end Rendering

end Pattern

namespace Variant

/-! ## Patterns and modes -/

theorem fits_text (r : Pattern.Rendering) (h : r.operands.length ≤ 2) (opcode : Int) :
    Fits { pattern := r.text, opcode := opcode, widths := [] }
      { opcode := opcode, operandCount := r.modes.length, wordCount := 0, modes := r.modes,
        pattern := r.text } := by
  have hlength : r.modes.length = r.operands.length := List.length_map _
  have hword : Pattern.firstWord r.text ≠ [] := by
    rw [r.firstWord_text]
    exact r.word_ne_nil
  exact {
    firstWord := hword, operands := r.written_text.symm, most := hlength.trans_le h,
    values := Nat.zero_le _, words := hasWords_nil, opcode := rfl, operandCount := rfl,
    pattern := rfl }

/-- A variant is that of every instruction with the same numbers and the same operands. -/
theorem Fits.of_written {i j : Instruction} {v : Variant} (h : Fits i v)
    (hopcode : i.opcode = j.opcode) (hwidths : i.widths = j.widths)
    (hword : Pattern.firstWord j.pattern ≠ [])
    (hwritten : Pattern.written i.pattern = Pattern.written j.pattern) :
    Fits j { v with pattern := j.pattern } where
  firstWord := hword
  operands := h.operands.trans hwritten
  most := h.most
  values := hwidths ▸ h.values
  words := hwidths ▸ h.words
  opcode := h.opcode.trans hopcode
  operandCount := h.operandCount
  pattern := rfl

/-- Reading modes from a pattern and writing them into one are inverse to each other.  The
pattern of a rendering with at most two operands resolves to its modes when no values are
declared, and the pattern of whatever resolves is a rendering of the modes behind its first
word.  So the mnemonic and the blanks of a pattern do not matter: instructions with the
same opcode, widths and operands have the same variant, its pattern aside. -/
theorem rendering_inverse :
    (∀ (r : Pattern.Rendering) (opcode : Int), r.operands.length ≤ 2 →
      resolve { pattern := r.text, opcode := opcode, widths := [] } =
        .ok { opcode := opcode, operandCount := r.modes.length, wordCount := 0,
              modes := r.modes, pattern := r.text }) ∧
    (∀ (i : Instruction) (v : Variant), resolve i = .ok v →
      ∃ r : Pattern.Rendering, r.text = i.pattern ∧ r.word = Pattern.firstWord i.pattern ∧
        r.operands.length ≤ 2 ∧ r.modes = v.modes) ∧
    ∀ (i j : Instruction) (v : Variant), i.opcode = j.opcode → i.widths = j.widths →
      Pattern.firstWord j.pattern ≠ [] → Pattern.written i.pattern = Pattern.written j.pattern →
      resolve i = .ok v → resolve j = .ok { v with pattern := j.pattern } := by
  refine ⟨fun r opcode h => resolve_eq_ok_iff_fits.mpr (fits_text r h opcode),
    fun i v h => ?_, fun i j v hopcode hwidths hword hwritten h => ?_⟩
  · have hfits := resolve_eq_ok_iff_fits.mp h
    obtain ⟨r, htext, hword, hmodes⟩ :=
      Pattern.Rendering.exists_rendering hfits.firstWord hfits.operands
    have hlength : r.modes.length = r.operands.length := List.length_map _
    refine ⟨r, htext, hword, ?_, hmodes⟩
    rw [← hlength, hmodes]
    exact hfits.most
  · have hfits := resolve_eq_ok_iff_fits.mp h
    exact resolve_eq_ok_iff_fits.mpr (hfits.of_written hopcode hwidths hword hwritten)

/-- A word of letters and digits that runs up to a bracket, and blanks of several kinds. -/
def spread : Pattern.Rendering where
  word := "Straße2".toList
  operands := [
    { mode := .ptrY, before := [], after := ['\u3000'], blank_before := by decide,
      blank_after := by decide },
    { mode := .memX, before := ['\t', '\n'], after := [], blank_before := by decide,
      blank_after := by decide }]
  gap := []
  word_ne_nil := by decide
  isWord_word := by decide +kernel
  blank_gap := by decide
  apart := by decide

def spreadInstruction : Instruction :=
  { pattern := spread.text, opcode := 9, widths := [] }

/-- The same operands behind another word. -/
def gathered : Instruction :=
  { pattern := "mov (%)Y,X[%]", opcode := 9, widths := [] }

theorem rendering_inverse_spread :
    spread.text = "Straße2(%)Y\u3000,\t\nX[%]" ∧
      resolve spreadInstruction =
        .ok { opcode := 9, operandCount := 2, wordCount := 0, modes := [.ptrY, .memX],
              pattern := spread.text } ∧
      (∃ r : Pattern.Rendering, r.text = spread.text ∧ r.modes = [.ptrY, .memX]) ∧
      resolve gathered =
        .ok { opcode := 9, operandCount := 2, wordCount := 0, modes := [.ptrY, .memX],
              pattern := gathered.pattern } := by
  obtain ⟨hresolve, hrendering, hsame⟩ := rendering_inverse
  have hspread := hresolve spread 9 (by decide)
  have hwritten : Pattern.written spreadInstruction.pattern = Pattern.written gathered.pattern := by
    decide +kernel
  obtain ⟨r, htext, -, -, hmodes⟩ := hrendering spreadInstruction _ hspread
  have hgathered := hsame spreadInstruction gathered _ rfl rfl (by decide +kernel) hwritten hspread
  exact ⟨rfl, hspread, ⟨r, htext, hmodes⟩, hgathered⟩

end Variant

end AssemblerTables
