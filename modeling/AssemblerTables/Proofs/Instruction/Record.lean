/-
Which values are records, and which instruction each of them describes.

A record is read part by part, and the first part that is not as it should be is told.  What
the parts should be can be said one by one, without the order in which they are looked at, and
nothing else in a record counts.  A width is looked for in one place only: a member `type`
stands for its value also where it tells no width, and null is not the same as nothing.
-/
import AssemblerTables.Proofs.Instruction.Opcode
import AssemblerTables.Proofs.Result

namespace AssemblerTables
namespace Record

open Json (Value)

/-- Does a value tell the width `bits`, under `type` if it has that member and by itself if it
has not? -/
inductive HasWidth : Value → Int → Prop where
  | bare {members : List (String × Value)} {bits : Int} :
      Json.get? members "type" = none → Json.get? members "bits" = some (.int bits) →
        HasWidth (.object members) bits
  | typed {members inner : List (String × Value)} {bits : Int} :
      Json.get? members "type" = some (.object inner) →
        Json.get? inner "bits" = some (.int bits) → HasWidth (.object members) bits

/-- Do the members of a record tell these values, or that it has none? -/
inductive HasValues (members : List (String × Value)) : List Value → Prop where
  | absent : Json.get? members "args" = none → HasValues members []
  | listed {vs : List Value} : Json.get? members "args" = some (.list vs) → HasValues members vs

/-- Do the members of a record tell all parts of the instruction? -/
structure HasParts (members : List (String × Value)) (i : Instruction) : Prop where
  name : Json.get? members "name" = some (.text i.pattern)
  hex : ∃ v, Json.get? members "hex" = some v ∧ IsOpcode v i.opcode
  args : ∃ vs, HasValues members vs ∧ List.Forall₂ HasWidth vs i.widths

def Describes (record : Value) (i : Instruction) : Prop :=
  ∃ members, record = .object members ∧ HasParts members i

variable {members : List (String × Value)} {v record : Value} {i : Instruction}

theorem Describes.opcode (h : Describes record i) : 0 ≤ i.opcode ∧ i.opcode ≤ maxOpcode := by
  obtain ⟨members, -, hi⟩ := h
  obtain ⟨v, -, hv⟩ := hi.hex
  exact hv.2

/-! ## Widths -/

theorem bits?_eq_some {bits : Int} :
    bits? v = some bits ↔
      ∃ members, v = .object members ∧ Json.get? members "bits" = some (.int bits) := by
  cases v with
  | object members =>
      rw [bits?]
      split
      · rename_i n hn
        simp [hn]
      · rename_i hnone
        simp only [Value.object.injEq, exists_eq_left', false_iff, reduceCtorEq]
        exact hnone bits
  | _ => simp [bits?]

theorem width_object {bits : Int} :
    width (.object members) = .ok bits ↔
      bits? ((Json.get? members "type").getD (.object members)) = some bits := by
  rw [width]
  cases bits? ((Json.get? members "type").getD (.object members)) <;> simp

theorem width_eq_ok {bits : Int} : width v = .ok bits ↔ HasWidth v bits := by
  cases v with
  | object members =>
      rw [width_object, bits?_eq_some]
      cases htype : Json.get? members "type" with
      | none =>
          constructor
          · intro h
            obtain ⟨_, hmembers, hbits⟩ := h
            cases hmembers
            exact .bare htype hbits
          · intro h
            cases h with
            | bare _ hbits => exact ⟨members, rfl, hbits⟩
            | typed hinner _ =>
                rw [htype] at hinner
                cases hinner
      | some t =>
          constructor
          · intro h
            obtain ⟨inner, ht, hbits⟩ := h
            have hobject : t = .object inner := ht
            rw [hobject] at htype
            exact .typed htype hbits
          · intro h
            cases h with
            | bare hnone _ =>
                rw [htype] at hnone
                cases hnone
            | typed hinner hbits =>
                rw [htype] at hinner
                cases hinner
                exact ⟨_, rfl, hbits⟩
  | _ => exact iff_of_false (fun h => by cases h) (fun h => by cases h)

/-! ## Records -/

theorem values_eq_ok (name : String) {vs : List Value} :
    values name (Json.get? members "args") = .ok vs ↔ HasValues members vs := by
  constructor
  · intro h
    unfold values at h
    split at h
    · rename_i hnone
      cases h
      exact .absent hnone
    · rename_i hlist
      cases h
      exact .listed hlist
    · cases h
  · intro h
    cases h with
    | absent hnone => rw [hnone, values]
    | listed hlist => rw [hlist, values]

theorem parts_eq_ok {name : String} {hex : Value} {vs : List Value} :
    parts members = .ok (name, hex, vs) ↔
      Json.get? members "name" = some (.text name) ∧ Json.get? members "hex" = some hex ∧
        HasValues members vs := by
  rw [← values_eq_ok name, parts]
  split
  · rename_i n v hname hhex
    rw [hname, hhex, Result.bind_eq_ok]
    constructor
    · intro h
      obtain ⟨ws, hws, h⟩ := h
      cases h
      exact ⟨rfl, rfl, hws⟩
    · intro h
      obtain ⟨hn, hv, hvs⟩ := h
      cases hn
      cases hv
      exact ⟨vs, hvs, rfl⟩
  · rename_i hhex
    refine iff_of_false (fun h => by cases h) fun h => ?_
    rw [hhex] at h
    cases h.2.1
  · rename_i hneither _
    refine iff_of_false (fun h => by cases h) fun h => ?_
    exact hneither name hex h.1 h.2.1

theorem widths_eq_ok {vs : List Value} {widths : List Int} :
    vs.mapM width = .ok widths ↔ List.Forall₂ HasWidth vs widths := by
  simp only [Result.mapM_eq_ok, width_eq_ok]

theorem hasParts_iff :
    HasParts members i ↔
      ∃ hex vs, parts members = .ok (i.pattern, hex, vs) ∧ opcode hex = .ok i.opcode ∧
        vs.mapM width = .ok i.widths := by
  simp only [parts_eq_ok, opcode_eq_ok, widths_eq_ok]
  constructor
  · intro h
    obtain ⟨hex, hhex, hopcode⟩ := h.hex
    obtain ⟨vs, hvs, hwidths⟩ := h.args
    exact ⟨hex, vs, ⟨h.name, hhex, hvs⟩, hopcode, hwidths⟩
  · intro h
    obtain ⟨hex, vs, ⟨hname, hhex, hvs⟩, hopcode, hwidths⟩ := h
    exact { name := hname, hex := ⟨hex, hhex, hopcode⟩, args := ⟨vs, hvs, hwidths⟩ }

theorem read_object : read (.object members) = .ok i ↔ HasParts members i := by
  rw [hasParts_iff, read, Result.bind_eq_ok]
  constructor
  · intro h
    obtain ⟨⟨name, hex, vs⟩, hparts, h⟩ := h
    obtain ⟨n, hn, h⟩ := Result.bind_eq_ok.mp h
    obtain ⟨widths, hwidths, h⟩ := Result.bind_eq_ok.mp h
    cases h
    exact ⟨hex, vs, hparts, hn, hwidths⟩
  · intro h
    obtain ⟨hex, vs, hparts, hn, hwidths⟩ := h
    refine ⟨_, hparts, Result.bind_eq_ok.mpr ⟨i.opcode, hn, ?_⟩⟩
    exact Result.bind_eq_ok.mpr ⟨i.widths, hwidths, rfl⟩

/-- A record is read exactly as the instruction that it describes. -/
theorem read_eq_ok : read record = .ok i ↔ Describes record i := by
  cases record with
  | object members =>
      rw [read_object]
      constructor
      · intro h
        exact ⟨members, rfl, h⟩
      · intro h
        obtain ⟨_, hmembers, h⟩ := h
        cases hmembers
        exact h
  | _ => exact iff_of_false (fun h => by cases h) (fun ⟨_, h, _⟩ => by cases h)

/-! ## Texts of opcodes -/

section Texts

variable {name s : String} {vs : List Value}

/-- A fault of the opcode is told before the values are looked at. -/
theorem read_of_opcode_error {hex : Value} {e : RecordFault}
    (hparts : parts members = .ok (name, hex, vs)) (h : opcode hex = .error e) :
    read (.object members) = .error e := by
  rw [read, hparts]
  show (opcode hex >>= _) = _
  rw [h]
  rfl

/-- A record with a text for its opcode is accepted exactly if the text stands for a byte, as
far as its values have widths.  Whatever the values are, a text that stands for another number
is told to be out of range, and any other text to be no opcode. -/
theorem read_text_of_opcode (hname : Json.get? members "name" = some (.text name))
    (hhex : Json.get? members "hex" = some (.text s)) (hvalues : HasValues members vs) :
    (∀ i, read (.object members) = .ok i ↔
        i.pattern = name ∧
          (IsOpcodeText Numeral.isMargin s.toList i.opcode ∧ 0 ≤ i.opcode ∧ i.opcode ≤ 255) ∧
          List.Forall₂ HasWidth vs i.widths) ∧
      ((∃ n, IsOpcodeText Numeral.isMargin s.toList n ∧ ¬ (0 ≤ n ∧ n ≤ 255)) →
        read (.object members) = .error (.opcodeRange (.text s)) ∧
          (RecordFault.opcodeRange (.text s)).text =
            "opcode " ++ Text.quoted s ++ " does not fit in a byte") ∧
      ((∀ n, ¬ IsOpcodeText Numeral.isMargin s.toList n) →
        read (.object members) = .error (.badOpcode (.text s)) ∧
          (RecordFault.badOpcode (.text s)).text = "invalid opcode " ++ Text.quoted s) := by
  have hparts : parts members = .ok (name, .text s, vs) :=
    parts_eq_ok.mpr ⟨hname, hhex, hvalues⟩
  refine ⟨fun i => ?_, fun h => ⟨read_of_opcode_error hparts ?_, ?_⟩,
    fun h => ⟨read_of_opcode_error hparts ?_, ?_⟩⟩
  · rw [read_object, hasParts_iff, hparts, ← denotes_text]
    constructor
    · intro h
      obtain ⟨hex, ws, hsame, hopcode, hwidths⟩ := h
      cases hsame
      exact ⟨rfl, opcode_eq_ok.mp hopcode, widths_eq_ok.mp hwidths⟩
    · intro h
      obtain ⟨hpattern, hopcode, hwidths⟩ := h
      rw [← hpattern]
      exact ⟨.text s, vs, rfl, opcode_eq_ok.mpr hopcode, widths_eq_ok.mpr hwidths⟩
  · obtain ⟨n, hn, hout⟩ := h
    exact opcode_eq_error.mpr (.inl ⟨n, denotes_text.mpr hn, hout, rfl⟩)
  · rfl
  · exact opcode_eq_error.mpr (.inr ⟨fun n hn => h n (denotes_text.mp hn), rfl⟩)
  · rfl

/-- The text has blanks of several kinds, both announcements, a sign between them and a digit of
another script, and the record has a member that takes the place of a width. -/
def announcedTwice : List (String × Value) :=
  [("hex", .text "\u00a00x\u2003+0X_٠1_f\u001c"),
    ("args", .list [.object [("bits", .int 16), ("type", .object [("bits", .int 8)])]]),
    ("name", .text "LDA %")]

theorem read_announcedTwice :
    Json.get? announcedTwice "name" = some (.text "LDA %") ∧
      Json.get? announcedTwice "hex" = some (.text "\u00a00x\u2003+0X_٠1_f\u001c") ∧
      IsOpcodeText Numeral.isMargin "\u00a00x\u2003+0X_٠1_f\u001c".toList 31 ∧
      read (.object announcedTwice) = .ok { pattern := "LDA %", opcode := 31, widths := [8] } := by
  have hopcode : IsOpcodeText Numeral.isMargin "\u00a00x\u2003+0X_٠1_f\u001c".toList 31 :=
    isOpcodeText_iff.mpr (by decide +kernel)
  have hname : Json.get? announcedTwice "name" = some (.text "LDA %") := rfl
  have hread := (read_text_of_opcode hname rfl (.listed rfl)).1
    { pattern := "LDA %", opcode := 31, widths := [8] }
  refine ⟨hname, rfl, hopcode, hread.mpr ⟨rfl, ⟨hopcode, by decide, by decide⟩, ?_⟩⟩
  exact .cons (.typed rfl rfl) .nil

/-- An information separator stands behind the announcement. -/
def separated : String := "0x\u001c8"

/-- Not all blanks may stand around the numeral once the announcement is gone. -/
theorem separated_refused :
    IsOpcodeText Text.isBlank separated.toList 8 ∧
      read (.object [("name", .text "NOP"), ("hex", .text separated)]) =
        .error (.badOpcode (.text separated)) := by
  have height : Numeral.IsHexadecimal ['8'] 8 :=
    Numeral.isHexadecimal_iff.mpr ⟨([], 1), by decide, ['8'], 8, rfl, by decide, rfl⟩
  refine ⟨⟨separated.toList, ['\x1c', '8'], ['8'], ?_, .inl rfl, ?_, height⟩, rfl⟩
  · exact Text.isTrimmed_iff.mpr (by decide +kernel)
  · exact Text.isTrimmed_iff.mpr (by decide +kernel)

end Texts

end Record
end AssemblerTables
