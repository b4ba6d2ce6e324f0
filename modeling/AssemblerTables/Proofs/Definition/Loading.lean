/-
How loading a definition from a readable file ends.

It gives instructions or a fault of the definition, unless the reader of JSON text comes to
an integer with more digits than a decimal numeral may have.  That fault is passed on as it
is, without the path of the file.
-/
import AssemblerTables.Definition
import AssemblerTables.Proofs.Json.Overlong

namespace AssemblerTables
namespace Definition

variable {files : Files.OctetStore} {path : Files.Path} {octets : List UInt8} {n : Nat}

/-- Does the reader come to an integer of `n` digits, more than a decimal numeral may have,
when it reads these octets? -/
def HoldsOverlong (octets : List UInt8) (n : Nat) : Prop :=
  ∃ text t, Text.Utf8.decode octets = .ok text ∧
    Json.Reaches (Json.skipSpace (Text.unifyLineEnds text)) t ∧ Json.IsOverlong n t

/-- The digits of an overlong integer stand in a row. -/
theorem not_holdsOverlong_of_short
    (h : ∀ text, Text.Utf8.decode octets = .ok text →
      ∀ digits, digits <:+: Text.unifyLineEnds text → (∀ c ∈ digits, c.isDigit) →
        digits.length ≤ Radix.decimalLimit) (n : Nat) : ¬ HoldsOverlong octets n := by
  rintro ⟨text, t, htext, hreaches, hoverlong⟩
  obtain ⟨hlimit, digits, hwithin, hlength, hdigits⟩ :=
    Json.exists_digits_of_read (Json.read_eq_tooManyDigits.mpr ⟨t, hreaches, hoverlong⟩)
  have hle := h text htext digits hwithin hdigits
  omega

theorem ofOctets_eq_tooManyDigits :
    ofOctets path octets = .error (.tooManyDigits n) ↔
      ∃ text, Text.Utf8.decode octets = .ok text ∧
        Json.read (Text.unifyLineEnds text) = .error (.tooManyDigits n) := by
  constructor
  · fun_cases ofOctets path octets with
    | case3 text htext count hread =>
        intro h
        cases h
        exact ⟨text, htext, hread⟩
    | _ => nofun
  · rintro ⟨text, htext, hread⟩
    rw [ofOctets, htext]
    dsimp only
    rw [hread]

theorem ofOctets_ne_file (fault : Files.Fault) : ofOctets path octets ≠ .error (.file fault) := by
  fun_cases ofOctets path octets <;> nofun

theorem load_of_read (h : files.read path = .ok octets) :
    load files path =
      ofOctets path octets >>= fun records => (ofRecords records).mapError .definition := by
  rw [load, recordsAt, h]
  rfl

theorem load_eq_tooManyDigits (h : files.read path = .ok octets) :
    load files path = .error (.tooManyDigits n) ↔ HoldsOverlong octets n := by
  have hoctets : ofOctets path octets = .error (.tooManyDigits n) ↔ HoldsOverlong octets n := by
    rw [ofOctets_eq_tooManyDigits]
    refine exists_congr fun text => ?_
    rw [Json.read_eq_tooManyDigits, exists_and_left]
  rw [load_of_read h, ← hoctets, Result.bind_eq_error]
  refine or_iff_left ?_
  rintro ⟨records, -, hrecords⟩
  obtain ⟨fault, -, hfault⟩ := Result.mapError_eq_error.mp hrecords
  cases hfault

/-- A file that can be read gives instructions, a fault of the definition, or an integer with
too many digits. -/
theorem load_ends (h : files.read path = .ok octets) :
    (∃ is, load files path = .ok is) ∨
      (∃ fault, load files path = .error (.definition fault)) ∨
        ∃ n, load files path = .error (.tooManyDigits n) := by
  cases hload : load files path with
  | ok is => exact .inl ⟨is, rfl⟩
  | error e =>
      cases e with
      | definition fault => exact .inr (.inl ⟨fault, rfl⟩)
      | tooManyDigits n => exact .inr (.inr ⟨n, rfl⟩)
      | file fault =>
          rw [load_of_read h] at hload
          rcases Result.bind_eq_error.mp hload with hoctets | ⟨records, -, hrecords⟩
          · exact absurd hoctets (ofOctets_ne_file fault)
          · obtain ⟨_, -, hfault⟩ := Result.mapError_eq_error.mp hrecords
            cases hfault

/-! ## A file alone in its directory -/

/-- A directory with one file. -/
def single (octets : List UInt8) : Files.OctetStore :=
  { here := [], entries := [(["isa.json"], .file octets)] }

def singlePath : Files.Path :=
  { start := .here, names := ["isa.json"] }

theorem read_single (octets : List UInt8) : (single octets).read singlePath = .ok octets :=
  rfl

theorem decodeFrom_ones (offset n : Nat) :
    Text.Utf8.decodeFrom offset .idle (List.replicate n 0x31) = .ok (List.replicate n '1') := by
  induction n generalizing offset with
  | zero => rfl
  | succ n ih =>
      rw [List.replicate_succ, List.replicate_succ, Text.Utf8.decodeFrom, if_pos (by decide), ih]
      rfl

theorem unifyLineEnds_ones (n : Nat) :
    Text.unifyLineEnds (List.replicate n '1') = List.replicate n '1' := by
  induction n with
  | zero => rfl
  | succ n ih =>
      rw [List.replicate_succ, Text.unifyLineEnds, ih]
      · nofun
      · nofun

theorem holdsOverlong_ones (h : Radix.decimalLimit < n) :
    HoldsOverlong (List.replicate n 0x31) n := by
  obtain ⟨m, rfl⟩ : ∃ m, n = m + 1 := Nat.exists_eq_add_of_le' (Nat.zero_lt_of_lt h)
  have hspace : Json.skipSpace (List.replicate (m + 1) '1') = List.replicate (m + 1) '1' := rfl
  have hzero : (List.replicate (m + 1) '1').head? ≠ some '0' := fun hhead =>
    absurd (Option.some.inj hhead) (by decide)
  have hdigits : ∀ c ∈ List.replicate (m + 1) '1', c.isDigit := fun c hc => by
    rw [List.eq_of_mem_replicate hc]
    rfl
  refine ⟨_, List.replicate (m + 1) '1', decodeFrom_ones 0 (m + 1), ?_, ?_⟩
  · rw [unifyLineEnds_ones, hspace]
    exact .here _
  · exact ⟨[], List.replicate (m + 1) '1', [], (List.append_nil _).symm, .inl rfl,
      List.length_replicate, h, hzero, hdigits, nofun, rfl, rfl⟩

/-- A file of ones that is longer than a decimal numeral may be. -/
theorem load_ones (h : Radix.decimalLimit < n) :
    load (single (List.replicate n 0x31)) singlePath = .error (.tooManyDigits n) :=
  (load_eq_tooManyDigits (read_single _)).mpr (holdsOverlong_ones h)

/-! ## Which files are blamed on the definition -/

/-- A readable file gives instructions or a fault of the definition exactly when the reader
comes to no overlong integer in it.  It comes to none in a text in which no more digits stand
in a row than a decimal numeral may have. -/
theorem load_blames_definition_iff (h : files.read path = .ok octets) :
    (((∃ is, load files path = .ok is) ∨ ∃ fault, load files path = .error (.definition fault)) ↔
        ∀ n, ¬ HoldsOverlong octets n) ∧
      ((∀ text, Text.Utf8.decode octets = .ok text →
          ∀ digits, digits <:+: Text.unifyLineEnds text → (∀ c ∈ digits, c.isDigit) →
            digits.length ≤ Radix.decimalLimit) →
        (∃ is, load files path = .ok is) ∨
          ∃ fault, load files path = .error (.definition fault)) := by
  have hiff : ((∃ is, load files path = .ok is) ∨
      ∃ fault, load files path = .error (.definition fault)) ↔ ∀ n, ¬ HoldsOverlong octets n := by
    constructor
    · intro hends n hn
      have hload := (load_eq_tooManyDigits h).mpr hn
      rcases hends with ⟨is, his⟩ | ⟨fault, hfault⟩
      · cases his.symm.trans hload
      · cases hfault.symm.trans hload
    · intro hnone
      rcases load_ends h with his | hfault | ⟨n, hn⟩
      · exact .inl his
      · exact .inr hfault
      · exact absurd ((load_eq_tooManyDigits h).mp hn) (hnone n)
  exact ⟨hiff, fun hshort => hiff.mpr fun n => not_holdsOverlong_of_short hshort n⟩

/-- A list with one record in which nothing is said: `[{}]`. -/
def blankRecord : List UInt8 := [0x5B, 0x7B, 0x7D, 0x5D]

theorem load_blames_definition_iff_blankRecord :
    (single blankRecord).read singlePath = .ok blankRecord ∧
      ((∃ is, load (single blankRecord) singlePath = .ok is) ∨
        ∃ fault, load (single blankRecord) singlePath = .error (.definition fault)) := by
  have hread := read_single blankRecord
  refine ⟨hread, (load_blames_definition_iff hread).2 fun text htext digits hwithin _ => ?_⟩
  have hdecode : Text.Utf8.decode blankRecord = .ok ['[', '\x7b', '\x7d', ']'] := rfl
  cases hdecode.symm.trans htext
  exact Nat.le_trans hwithin.length_le (by decide)

/-- A file of ones, one digit longer than a decimal numeral may be, is neither loaded nor is
the definition blamed. -/
theorem load_ones_unblamed :
    (single (List.replicate 4301 0x31)).read singlePath = .ok (List.replicate 4301 0x31) ∧
      load (single (List.replicate 4301 0x31)) singlePath = .error (.tooManyDigits 4301) ∧
      ¬ ((∃ is, load (single (List.replicate 4301 0x31)) singlePath = .ok is) ∨
        ∃ fault, load (single (List.replicate 4301 0x31)) singlePath =
          .error (.definition fault)) := by
  have hread := read_single (List.replicate 4301 0x31)
  have hload := load_ones (show Radix.decimalLimit < 4301 by decide)
  refine ⟨hread, hload, ?_⟩
  rw [hload]
  rintro (⟨is, h⟩ | ⟨fault, h⟩)
  · cases h
  · cases h

end Definition
end AssemblerTables
