/-
Definitions in canonical form.

An instruction is written as a record with its pattern, its opcode as `hex` shows it and each
of its widths under `type`.  That record is read as the instruction again exactly if the opcode
is a byte, which it is whenever the instruction was loaded.  So a definition and its canonical
form are loaded alike, however its opcodes are spelled and wherever its widths stand.
-/
import AssemblerTables.Proofs.Definition.Records

namespace AssemblerTables

open Json (Value)

namespace Instruction

/-- A width in canonical form. -/
def operand (bits : Int) : Value :=
  .object [("type", .object [("bits", .int bits)])]

/-- An instruction in canonical form. -/
def record (i : Instruction) : Value :=
  .object [("name", .text i.pattern), ("hex", .text i.hex), ("args", .list (i.widths.map operand))]

end Instruction

namespace Record

/-! ## Spellings of an opcode -/

/-- Is `s` a spelling of `n` without blanks?  There may be an announcement and then a sign in
front of the digits and low lines between them, and letters have either case. -/
def Spells (s : String) (n : Int) : Prop :=
  ∃ announcement ∈ [[], ['0', 'x'], ['0', 'X']], ∃ sign ∈ Numeral.signs, ∃ row ds,
    s.toList = announcement ++ (sign.1 ++ row) ∧ Numeral.IsRow .hexadecimal row ds ∧ ds ≠ [] ∧
      n = sign.2 * Numeral.valueOf .hexadecimal ds

/-- What stands behind the announcement of a spelling. -/
def spellingMarks : List Char :=
  Numeral.lowerDigits ++ Numeral.upperDigits ++ ['_', '+', '-']

theorem plain_spellingMarks :
    ∀ c ∈ spellingMarks, Text.isBlank c = false ∧ Numeral.isMargin c = false ∧
      Numeral.plainDigit c = c := by
  decide

theorem letter_not_mem_spellingMarks : 'x' ∉ spellingMarks ∧ 'X' ∉ spellingMarks := by
  decide

section Opcodes

variable {rest row s : List Char} {ds : List Nat} {n : Int}

/-- A text without blanks and without a letter of an announcement is a numeral as it stands. -/
theorem opcodeNumeral_eq_self (hblank : ∀ c ∈ s, Text.isBlank c = false)
    (hletters : 'x' ∉ s ∧ 'X' ∉ s) : opcodeNumeral s = s := by
  rw [opcodeNumeral, Text.trim, Text.dropStart_eq_self hblank, Text.dropEnd_eq_self hblank]
  split
  · refine if_neg fun hx => ?_
    rcases hx with rfl | rfl
    · exact hletters.1 (by simp)
    · exact hletters.2 (by simp)
  · rfl

theorem opcodeNumeral_announced (hblank : ∀ c ∈ rest, Text.isBlank c = false) {x : Char}
    (hx : x = 'x' ∨ x = 'X') : opcodeNumeral ('0' :: x :: rest) = rest := by
  have hfront : ∀ c ∈ ['0', 'x', 'X'], Text.isBlank c = false := by decide
  have hall : ∀ c ∈ '0' :: x :: rest, Text.isBlank c = false := by
    intro c hc
    rcases List.mem_cons.mp hc with rfl | hc
    · exact hfront _ (by decide)
    · rcases List.mem_cons.mp hc with rfl | hc
      · exact hfront _ (by rcases hx with rfl | rfl <;> decide)
      · exact hblank c hc
  rw [opcodeNumeral, Text.trim, Text.dropStart_eq_self hall, Text.dropEnd_eq_self hall]
  exact if_pos hx

/-- A number as it is shown stands for itself. -/
theorem denotes_hex (n : Int) : Denotes (.text (Numeral.hex n)) n := by
  have hmarks : ∀ c ∈ '-' :: Numeral.upperDigits, Text.isBlank c = false := by decide
  have hletters : 'x' ∉ '-' :: Numeral.upperDigits ∧ 'X' ∉ '-' :: Numeral.upperDigits := by decide
  have hself : opcodeNumeral (Numeral.hex n).toList = (Numeral.hex n).toList :=
    opcodeNumeral_eq_self (fun c hc => hmarks c (Numeral.mem_hex hc))
      ⟨fun hx => hletters.1 (Numeral.mem_hex hx), fun hx => hletters.2 (Numeral.mem_hex hx)⟩
  rw [denotes_text, isOpcodeText_iff, hself]
  exact Numeral.readChars?_hex n

theorem mem_spellingMarks_of_isRow (h : Numeral.IsRow .hexadecimal row ds) :
    ∀ c ∈ row, c ∈ spellingMarks := by
  intro c hc
  rw [spellingMarks, List.mem_append, List.mem_append]
  by_cases hline : c = '_'
  · exact .inr (hline ▸ List.mem_cons_self)
  · obtain ⟨d, -, hd⟩ := Result.exists_of_forall₂ h.digits c
      (List.mem_filter.mpr ⟨hc, decide_eq_true hline⟩)
    rcases hd with hlower | hupper
    · exact .inl (.inl (List.mem_of_getElem? hlower))
    · exact .inl (.inr (List.mem_of_getElem? hupper))

/-- A spelling stands for its number. -/
theorem Spells.denotes {s : String} (h : Spells s n) : Denotes (.text s) n := by
  obtain ⟨announcement, hannouncement, sign, hsign, row, ds, hs, hrow, hne, hn⟩ := h
  have hsigns : ∀ sign ∈ Numeral.signs, ∀ c ∈ sign.1, c ∈ spellingMarks := by decide
  have hmarks : ∀ c ∈ sign.1 ++ row, c ∈ spellingMarks :=
    List.forall_mem_append.mpr ⟨hsigns sign hsign, mem_spellingMarks_of_isRow hrow⟩
  have hplain := fun c hc => plain_spellingMarks c (hmarks c hc)
  have hbody : opcodeNumeral s.toList = sign.1 ++ row := by
    rw [hs]
    simp only [List.mem_cons, List.not_mem_nil, or_false] at hannouncement
    rcases hannouncement with rfl | rfl | rfl
    · exact opcodeNumeral_eq_self (fun c hc => (hplain c hc).1)
        ⟨fun hx => letter_not_mem_spellingMarks.1 (hmarks _ hx),
          fun hx => letter_not_mem_spellingMarks.2 (hmarks _ hx)⟩
    · exact opcodeNumeral_announced (fun c hc => (hplain c hc).1) (.inl rfl)
    · exact opcodeNumeral_announced (fun c hc => (hplain c hc).1) (.inr rfl)
  rw [denotes_text, isOpcodeText_iff, hbody, Numeral.readChars?_eq_some,
    Numeral.plain_eq_self fun c hc => (hplain c hc).2]
  refine ⟨sign, hsign, [], List.mem_cons_self, row, ds, ?_, hrow, hne, hn⟩
  rw [List.append_nil]

end Opcodes

/-! ## Records in canonical form -/

/-- Does a record tell the parts of the instruction, with its opcode as a number or spelled? -/
def IsSpelling (record : Value) (i : Instruction) : Prop :=
  ∃ members hex vs, record = .object members ∧
    Json.get? members "name" = some (.text i.pattern) ∧ Json.get? members "hex" = some hex ∧
    (hex = .int i.opcode ∨ ∃ s, hex = .text s ∧ Spells s i.opcode) ∧
    HasValues members vs ∧ List.Forall₂ HasWidth vs i.widths

variable {record : Value} {i : Instruction}

theorem IsSpelling.describes (h : IsSpelling record i)
    (hbyte : 0 ≤ i.opcode ∧ i.opcode ≤ 255) : Describes record i := by
  obtain ⟨members, hex, vs, hrecord, hname, hhex, hspelled, hvalues, hwidths⟩ := h
  have hdenotes : Denotes hex i.opcode := by
    rcases hspelled with rfl | ⟨s, rfl, hs⟩
    · exact .number i.opcode
    · exact hs.denotes
  exact ⟨members, hrecord,
    { name := hname, hex := ⟨hex, hhex, hdenotes, hbyte⟩, args := ⟨vs, hvalues, hwidths⟩ }⟩

theorem hasWidth_operand (bits : Int) : HasWidth (Instruction.operand bits) bits :=
  .typed rfl rfl

/-- An instruction that is written down is read again exactly if its opcode is a byte. -/
theorem describes_record : Describes i.record i ↔ 0 ≤ i.opcode ∧ i.opcode ≤ 255 := by
  constructor
  · exact Describes.opcode
  · intro hbyte
    refine ⟨_, rfl, { name := rfl, hex := ⟨_, rfl, denotes_hex i.opcode, hbyte⟩,
                      args := ⟨_, .listed rfl, ?_⟩ }⟩
    rw [List.forall₂_map_left_iff, List.forall₂_same]
    exact fun bits _ => hasWidth_operand bits

end Record

namespace Definition

variable {records : List Value} {is : List Instruction}

theorem ofRecords_map_record (h : ∀ i ∈ is, 0 ≤ i.opcode ∧ i.opcode ≤ 255) :
    ofRecords (is.map Instruction.record) = .ok is := by
  refine ofRecords_eq_ok.mpr ?_
  rw [List.forall₂_map_left_iff, List.forall₂_same]
  exact fun i hi => Record.describes_record.mpr (h i hi)

/-- Spellings of instructions are loaded as these if the opcodes are bytes. -/
theorem ofRecords_of_spelling (h : ∀ i ∈ is, 0 ≤ i.opcode ∧ i.opcode ≤ 255)
    (hspelled : List.Forall₂ Record.IsSpelling records is) : ofRecords records = .ok is := by
  have hboth := (List.forall₂_and_left is records).mpr ⟨h, hspelled.flip⟩
  have hdescribed := hboth.imp fun _ _ hi => Record.IsSpelling.describes hi.2 hi.1
  exact ofRecords_eq_ok.mpr hdescribed.flip

/-- The instructions of a definition, written in canonical form, are loaded as they are, and
with them every other spelling of the definition.  The canonical opcodes are two upper case
digits. -/
theorem ofRecords_canonical (h : ofRecords records = .ok is) :
    ofRecords (is.map Instruction.record) = .ok is ∧
      (∀ i ∈ is, i.hex.toList.length = 2 ∧ ∀ c ∈ i.hex.toList, c ∈ Numeral.upperDigits) ∧
      ∀ others, List.Forall₂ Record.IsSpelling others is →
        ofRecords others = ofRecords (is.map Instruction.record) := by
  have hbyte : ∀ i ∈ is, 0 ≤ i.opcode ∧ i.opcode ≤ 255 := opcode_of_ofRecords h
  have hcanonical := ofRecords_map_record hbyte
  refine ⟨hcanonical, fun i hi => ?_, fun others hothers => ?_⟩
  · obtain ⟨n, hn⟩ := Int.eq_ofNat_of_zero_le (hbyte i hi).1
    have hsmall : n < 256 := by
      have hle := (hbyte i hi).2
      omega
    rw [Instruction.hex, hn]
    exact ⟨Numeral.length_hex hsmall, fun c hc => Numeral.hex_ofNat_mem hc⟩
  · rw [hcanonical]
    exact ofRecords_of_spelling hbyte hothers

/-- Opcodes with blanks, a digit of another script and two announcements. -/
def loose : List Value :=
  [.object [("hex", .text " 0x+0X_٠1_f\n"), ("name", .text "LDA %"),
      ("args", .list [.object [("bits", .int 16), ("type", .object [("bits", .int 8)])]])],
    .object [("name", .text "HLT"), ("hex", .text "7f"), ("extra", .null)],
    .object [("name", .text "CALL %"), ("hex", .int 2),
      ("args", .list [.object [("bits", .int 16)]])]]

/-- The same definition with other spellings. -/
def respelled : List Value :=
  [.object [("name", .text "LDA %"), ("args", .list [.object [("bits", .int 8)]]),
      ("hex", .int 31)],
    .object [("name", .text "HLT"), ("hex", .text "0x+7_f")],
    .object [("name", .text "CALL %"), ("hex", .text "0X02"),
      ("args", .list [.object [("type", .object [("bits", .int 16)])]])]]

def loaded : List Instruction :=
  [{ pattern := "LDA %", opcode := 31, widths := [8] },
    { pattern := "HLT", opcode := 127, widths := [] },
    { pattern := "CALL %", opcode := 2, widths := [16] }]

theorem ofRecords_canonical_loose :
    ofRecords loose = .ok loaded ∧ ofRecords (loaded.map Instruction.record) = .ok loaded ∧
      List.Forall₂ Record.IsSpelling respelled loaded ∧
      ofRecords respelled = ofRecords (loaded.map Instruction.record) := by
  have hload : ofRecords loose = .ok loaded := rfl
  have hspelled : List.Forall₂ Record.IsSpelling respelled loaded := by
    refine .cons ⟨_, _, _, rfl, rfl, rfl, .inl rfl, .listed rfl, .cons (.bare rfl rfl) .nil⟩
      (.cons ⟨_, _, _, rfl, rfl, rfl, .inr ⟨_, rfl, ?_⟩, .absent rfl, .nil⟩
        (.cons ⟨_, _, _, rfl, rfl, rfl, .inr ⟨_, rfl, ?_⟩, .listed rfl,
          .cons (.typed rfl rfl) .nil⟩ .nil))
    · have hrow : Numeral.IsRow .hexadecimal ['7', '_', 'f'] [7, 15] :=
        (Numeral.Further.behindLine ⟨by decide, .inl rfl⟩ .nil).isRow ⟨by decide, .inl rfl⟩
      exact ⟨['0', 'x'], by decide, (['+'], 1), by decide, _, _, rfl, hrow, by decide, rfl⟩
    · have hrow : Numeral.IsRow .hexadecimal ['0', '2'] [0, 2] :=
        (Numeral.Further.digit ⟨by decide, .inl rfl⟩ .nil).isRow ⟨by decide, .inl rfl⟩
      exact ⟨['0', 'X'], by decide, ([], 1), by decide, _, _, rfl, hrow, by decide, rfl⟩
  obtain ⟨hcanonical, -, hothers⟩ := ofRecords_canonical hload
  exact ⟨hload, hcanonical, hspelled, hothers respelled hspelled⟩

end Definition
end AssemblerTables
