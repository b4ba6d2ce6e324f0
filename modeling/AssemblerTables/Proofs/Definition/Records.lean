/-
Which lists of records are a definition, and which record is blamed where one is not.

Being well formed is asked of each record alone.  So a list is accepted exactly if all of its
records are well formed, and gives the instructions that they describe, in their order.  The
records are read from the first on, and the first that is not well formed is blamed with its
place, whatever stands behind it.

Instructions that are ready may stand between the records of a list in memory.  They count for
the places and for nothing else.
-/
import AssemblerTables.Definition
import AssemblerTables.Proofs.Instruction.Record

namespace AssemblerTables

open Json (Value)

namespace Record

/-- Is a value an object with a pattern and an opcode, and a list of values with widths if it
has any? -/
def IsWellFormed (record : Value) : Prop :=
  ∃ members, record = .object members ∧
    (∃ name, Json.get? members "name" = some (.text name)) ∧
    (∃ v n, Json.get? members "hex" = some v ∧ IsOpcode v n) ∧
    (Json.get? members "args" = none ∨
      ∃ vs, Json.get? members "args" = some (.list vs) ∧ ∀ v ∈ vs, ∃ bits, HasWidth v bits)

/-- The well formed records are those that describe an instruction. -/
theorem isWellFormed_iff {record : Value} : IsWellFormed record ↔ ∃ i, read record = .ok i := by
  simp only [read_eq_ok]
  constructor
  · intro h
    obtain ⟨members, hrecord, ⟨name, hname⟩, ⟨v, n, hv, hn⟩, hargs⟩ := h
    obtain ⟨vs, widths, hvalues, hwidths⟩ :
        ∃ vs widths, HasValues members vs ∧ List.Forall₂ HasWidth vs widths := by
      rcases hargs with hnone | ⟨vs, hlist, hall⟩
      · exact ⟨[], [], .absent hnone, .nil⟩
      · obtain ⟨widths, hwidths⟩ := Result.exists_forall₂ hall
        exact ⟨vs, widths, .listed hlist, hwidths⟩
    exact ⟨{ pattern := name, opcode := n, widths := widths }, members, hrecord,
      { name := hname, hex := ⟨v, hv, hn⟩, args := ⟨vs, hvalues, hwidths⟩ }⟩
  · intro h
    obtain ⟨i, members, hrecord, hi⟩ := h
    obtain ⟨v, hv, hn⟩ := hi.hex
    obtain ⟨vs, hvalues, hwidths⟩ := hi.args
    refine ⟨members, hrecord, ⟨i.pattern, hi.name⟩, ⟨v, i.opcode, hv, hn⟩, ?_⟩
    cases hvalues with
    | absent hnone => exact .inl hnone
    | listed hlist => exact .inr ⟨vs, hlist, Result.exists_of_forall₂ hwidths⟩

theorem not_isWellFormed_iff {record : Value} :
    ¬ IsWellFormed record ↔ ∃ e, read record = .error e := by
  rw [isWellFormed_iff]
  cases read record <;> simp

end Record

namespace Definition

/-! ## Elements -/

variable {index : Nat} {es : List Element} {e : Element} {is : List Instruction} {i : Instruction}

/-- Does an element give an instruction?  A record gives the one that it describes. -/
inductive Element.Gives : Element → Instruction → Prop where
  | described {record : Value} {i : Instruction} (h : Record.Describes record i) :
      Gives (.record record) i
  | ready (i : Instruction) : Gives (.ready i) i

theorem Element.gives_record {record : Value} :
    (Element.record record).Gives i ↔ Record.Describes record i := by
  constructor
  · intro h
    cases h with
    | described h => exact h
  · exact .described

theorem Element.gives_ready {j : Instruction} : (Element.ready j).Gives i ↔ j = i := by
  constructor
  · intro h
    cases h
    rfl
  · rintro rfl
    exact .ready j

theorem Element.read_eq_ok : e.read = .ok i ↔ e.Gives i := by
  cases e with
  | record value => rw [Element.read, Record.read_eq_ok, Element.gives_record]
  | ready j => rw [Element.read, Except.ok.injEq, Element.gives_ready]

/-- Each element gives one instruction, and no place counts. -/
theorem ofElementsFrom_eq_ok :
    ofElementsFrom index es = .ok is ↔ List.Forall₂ Element.Gives es is := by
  induction es generalizing index is with
  | nil =>
      rw [ofElementsFrom, List.forall₂_nil_left_iff, Except.ok.injEq, eq_comm]
  | cons e rest ih =>
      rw [ofElementsFrom, Result.bind_eq_ok, List.forall₂_cons_left_iff]
      constructor
      · intro h
        obtain ⟨i, hi, h⟩ := h
        obtain ⟨others, hothers, h⟩ := Result.bind_eq_ok.mp h
        cases h
        exact ⟨i, others, Element.read_eq_ok.mp (Result.mapError_eq_ok.mp hi), ih.mp hothers, rfl⟩
      · intro h
        obtain ⟨i, others, hi, hothers, his⟩ := h
        refine ⟨i, Result.mapError_eq_ok.mpr (Element.read_eq_ok.mpr hi), ?_⟩
        exact Result.bind_eq_ok.mpr ⟨others, ih.mpr hothers, his ▸ rfl⟩

/-- The fault is that of one record, and all elements before it were read.  No instruction that
is ready is at fault. -/
theorem exists_faulty {fault : DefinitionFault} (h : ofElementsFrom index es = .error fault) :
    ∃ before record after e,
      es = before ++ .record record :: after ∧ (∀ b ∈ before, ∃ i, b.read = .ok i) ∧
        Record.read record = .error e ∧ fault = .record (index + before.length) e := by
  induction es generalizing index with
  | nil => cases h
  | cons element rest ih =>
      rw [ofElementsFrom, Result.bind_eq_error] at h
      rcases h with helement | ⟨i, hi, h⟩
      · obtain ⟨e, he, hfault⟩ := Result.mapError_eq_error.mp helement
        cases element with
        | record record =>
            exact ⟨[], record, rest, e, rfl, fun b hb => absurd hb List.not_mem_nil, he,
              hfault.symm⟩
        | ready i => cases he
      · rcases Result.bind_eq_error.mp h with hrest | ⟨_, _, h⟩
        · obtain ⟨before, faulty, after, e, hsplit, hbefore, he, hfault⟩ := ih hrest
          refine ⟨element :: before, faulty, after, e, by rw [hsplit]; rfl, ?_, he, ?_⟩
          · exact List.forall_mem_cons.mpr ⟨⟨i, Result.mapError_eq_ok.mp hi⟩, hbefore⟩
          · rw [hfault, List.length_cons, Nat.add_right_comm, Nat.add_assoc]
        · cases h

/-- Instructions that are ready ask nothing of a list. -/
theorem exists_ofElements_eq_ok :
    (∃ is, ofElements es = .ok is) ↔
      ∀ record, .record record ∈ es → Record.IsWellFormed record := by
  simp only [Record.isWellFormed_iff]
  constructor
  · intro h record hrecord
    obtain ⟨is, h⟩ := h
    obtain ⟨i, hi⟩ := Result.exists_of_forall₂ (ofElementsFrom_eq_ok.mp h) _ hrecord
    exact ⟨i, Element.read_eq_ok.mpr hi⟩
  · intro hall
    have hgives : ∀ e ∈ es, ∃ i, e.Gives i := by
      intro e he
      cases e with
      | record record =>
          obtain ⟨i, hi⟩ := hall record he
          exact ⟨i, .described (Record.read_eq_ok.mp hi)⟩
      | ready i => exact ⟨i, .ready i⟩
    obtain ⟨is, his⟩ := Result.exists_forall₂ hgives
    exact ⟨is, ofElementsFrom_eq_ok.mpr his⟩

/-- An instruction that is ready keeps its place among those that are loaded. -/
theorem getElem?_of_ready (h : ofElements es = .ok is) {k : Nat} (hk : es[k]? = some (.ready i)) :
    is[k]? = some i := by
  have hgives := ofElementsFrom_eq_ok.mp h
  obtain ⟨hes, hready⟩ := List.getElem?_eq_some_iff.mp hk
  have his : k < is.length := hgives.length_eq ▸ hes
  have hplace : es[k].Gives is[k] := hgives.get hes his
  rw [hready, Element.gives_ready] at hplace
  exact List.getElem?_eq_some_iff.mpr ⟨his, hplace.symm⟩

/-- Instructions that are ready are a definition as they stand. -/
theorem ofElements_map_ready (is : List Instruction) : ofElements (is.map .ready) = .ok is := by
  refine ofElementsFrom_eq_ok.mpr ?_
  rw [List.forall₂_map_left_iff, List.forall₂_same]
  exact fun i _ => .ready i

/-- The opcode of a record has to be a byte, that of an instruction that is ready has not. -/
example :
    ofElements [.ready { pattern := "NOP", opcode := 256, widths := [] },
        .record (.object [("name", .text "HLT"), ("hex", .text "7F")])] =
      .ok [{ pattern := "NOP", opcode := 256, widths := [] },
        { pattern := "HLT", opcode := 0x7F, widths := [] }] := by
  rfl

/-! ## Records only -/

variable {records : List Value}

theorem ofRecords_eq_ok :
    ofRecords records = .ok is ↔ List.Forall₂ Record.Describes records is := by
  rw [ofRecords, ofElements, ofElementsFrom_eq_ok, List.forall₂_map_left_iff]
  simp only [Element.gives_record]

theorem opcode_of_ofRecords (h : ofRecords records = .ok is) :
    ∀ i ∈ is, 0 ≤ i.opcode ∧ i.opcode ≤ Record.maxOpcode := by
  have hdescribed := Result.exists_of_forall₂ (ofRecords_eq_ok.mp h).flip
  intro i hi
  obtain ⟨record, hrecord⟩ : ∃ record, Record.Describes record i := hdescribed i hi
  exact hrecord.opcode

theorem exists_ofRecords_eq_ok :
    (∃ is, ofRecords records = .ok is) ↔ ∀ record ∈ records, Record.IsWellFormed record := by
  have hmem : ∀ record, Element.record record ∈ records.map .record ↔ record ∈ records := by
    intro record
    simp
  simp only [ofRecords, exists_ofElements_eq_ok, hmem]

theorem exists_faulty_record {fault : DefinitionFault} (h : ofRecords records = .error fault) :
    ∃ before record after e,
      records = before ++ record :: after ∧ (∀ r ∈ before, ∃ i, Record.read r = .ok i) ∧
        Record.read record = .error e ∧ fault = .record before.length e := by
  obtain ⟨before, record, after, e, hsplit, hbefore, he, hfault⟩ := exists_faulty h
  obtain ⟨front, rest, rfl, rfl, hrest⟩ := List.map_eq_append_iff.mp hsplit
  obtain ⟨faulty, others, rfl, hfaulty, rfl⟩ := List.map_eq_cons_iff.mp hrest
  rw [← Element.record.inj hfaulty] at he
  refine ⟨front, faulty, others, e, rfl, ?_, he, ?_⟩
  · exact fun r hr => hbefore _ (List.mem_map_of_mem hr)
  · rw [hfault, Nat.zero_add, List.length_map]

/-- Records are a definition exactly if each of them is well formed.  Their instructions are
then the described ones in order, with bytes for opcodes; otherwise the first record that is
not well formed is blamed. -/
theorem ofRecords_blames_first (records : List Value) :
    ((∃ is, ofRecords records = .ok is) ↔ ∀ record ∈ records, Record.IsWellFormed record) ∧
      (∀ is, ofRecords records = .ok is ↔ List.Forall₂ Record.Describes records is) ∧
      (∀ is, ofRecords records = .ok is → ∀ i ∈ is, 0 ≤ i.opcode ∧ i.opcode ≤ 255) ∧
      (¬ (∀ record ∈ records, Record.IsWellFormed record) →
        ∃ before record after fault,
          records = before ++ record :: after ∧
            (∀ r ∈ before, Record.IsWellFormed r) ∧ ¬ Record.IsWellFormed record ∧
            ofRecords records = .error fault ∧ fault.index? = some before.length) := by
  refine ⟨exists_ofRecords_eq_ok, fun is => ofRecords_eq_ok, fun is => opcode_of_ofRecords, ?_⟩
  intro hill
  rw [← exists_ofRecords_eq_ok] at hill
  obtain ⟨fault, hfault⟩ := Result.exists_error hill
  obtain ⟨before, record, after, e, hsplit, hbefore, he, hrecord⟩ := exists_faulty_record hfault
  refine ⟨before, record, after, fault, hsplit, ?_, ?_, hfault, ?_⟩
  · exact fun r hr => Record.isWellFormed_iff.mpr (hbefore r hr)
  · exact Record.not_isWellFormed_iff.mpr ⟨e, he⟩
  · rw [hrecord]
    rfl

/-- The second record has a member that hides a width and tells none, and the third is faulty
throughout. -/
def mixed : List Value :=
  [.object [("hex", .text " 0X1f"), ("name", .text "LDA %"), ("extra", .null),
      ("args", .list [.object [("bits", .bool true), ("type", .object [("bits", .int 8)])]])],
    .object [("name", .text "NOP"), ("hex", .int 0),
      ("args", .list [.object [("bits", .int 8), ("type", .null)]])],
    .object [("hex", .bool true), ("args", .null)]]

theorem ofRecords_mixed :
    ¬ (∀ record ∈ mixed, Record.IsWellFormed record) ∧
      ∃ before record after fault,
        mixed = before ++ record :: after ∧ (∀ r ∈ before, Record.IsWellFormed r) ∧
          ¬ Record.IsWellFormed record ∧ ofRecords mixed = .error fault ∧
          fault.index? = some before.length ∧ fault.index? = some 1 := by
  obtain ⟨hok, -, -, hblame⟩ := ofRecords_blames_first mixed
  have hsecond : ∃ fault, ofRecords mixed = .error fault ∧ fault.index? = some 1 := ⟨_, rfl, rfl⟩
  obtain ⟨fault, hfault, hindex⟩ := hsecond
  have hill : ¬ (∀ record ∈ mixed, Record.IsWellFormed record) := by
    rw [← hok, hfault]
    intro h
    obtain ⟨is, h⟩ := h
    cases h
  obtain ⟨before, record, after, told, hsplit, hbefore, hrecord, htold, hplace⟩ := hblame hill
  have hsame : told = fault := by
    rw [htold] at hfault
    exact Except.error.inj hfault
  exact ⟨hill, before, record, after, told, hsplit, hbefore, hrecord, htold, hplace,
    hsame ▸ hindex⟩

end Definition
end AssemblerTables
