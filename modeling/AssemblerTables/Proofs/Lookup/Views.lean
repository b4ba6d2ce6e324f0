/-
The views of a look-up table made of any entries.

The keys, the size and the list of entries are read off the table as it is stored, while an
entry is asked for by its mnemonic in lower case.  So the views agree exactly if every
mnemonic that was given is in lower case.  Otherwise an entry is asked for under another
mnemonic than its own: it is missing, or a different one answers.  The source is made of
the answers, and it exists exactly if all of them do.
-/
import AssemblerTables.CSource
import AssemblerTables.Proofs.Lookup

namespace AssemblerTables

namespace Arrival

variable {α κ : Type} [DecidableEq κ] {key : α → κ}

theorem find?_put (x : α) (l : List α) (k : κ) :
    (put key x l).find? (fun y => key y == k) =
      if key x = k then some x else l.find? fun y => key y == k := by
  induction l with
  | nil => by_cases hx : key x = k <;> simp [put, hx]
  | cons y rest ih =>
      by_cases hy : key y = key x
      · by_cases hx : key x = k <;> simp [put, hy, hx]
      · rw [put, if_neg hy, List.find?_cons, ih, List.find?_cons]
        by_cases hk : key y = k
        · have hx : key x ≠ k := fun h => hy (hk.trans h.symm)
          simp [hk, hx]
        · rw [beq_eq_false_iff_ne.mpr hk]

/-- Under a key there is the element that arrived last with it. -/
theorem find?_ofList (xs : List α) (k : κ) :
    (ofList key xs).find? (fun y => key y == k) = xs.reverse.find? fun y => key y == k := by
  induction xs using List.reverseRecOn with
  | nil => rfl
  | append_singleton xs x ih =>
      have hlast : ofList key (xs ++ [x]) = put key x (ofList key xs) := List.foldl_concat ..
      rw [hlast, find?_put, ih, List.reverse_concat, List.find?_cons]
      by_cases hx : key x = k
      · rw [if_pos hx, beq_iff_eq.mpr hx]
      · rw [if_neg hx, beq_eq_false_iff_ne.mpr hx]

theorem mem_keys_ofList {xs : List α} {k : κ} :
    k ∈ (ofList key xs).map key ↔ ∃ x ∈ xs, key x = k := by
  have hfound : ((ofList key xs).find? fun y => key y == k).isSome ↔
      (xs.reverse.find? fun y => key y == k).isSome := by
    rw [find?_ofList]
  simpa only [List.find?_isSome, List.mem_reverse, beq_iff_eq, List.mem_map] using hfound

end Arrival

namespace Lookup

variable {es : List LookupEntry} {t : Lookup}

/-- An entry is found in its place by the mnemonic in that place. -/
def IsIndexed (t : Lookup) : Prop :=
  ∀ (i : Nat) (m : String), t.mnemonics[i]? = some m → ∃ e, t.entries[i]? = some e ∧ t.get m = .ok e

theorem get_eq_ok {m : String} {e : LookupEntry} : t.get m = .ok e ↔ t.get? m = some e := by
  rw [get]
  cases t.get? m with
  | none => simp
  | some found => simp

theorem lower_of_get {m : String} {e : LookupEntry} (h : t.get m = .ok e) :
    e.mnemonic = Text.lower m := by
  have hfound := List.find?_some (get_eq_ok.mp h)
  exact beq_iff_eq.mp hfound

theorem IsKeyed.isIndexed (h : t.IsKeyed) : t.IsIndexed := by
  intro i m hm
  rw [mnemonics, List.getElem?_map, Option.map_eq_some_iff] at hm
  obtain ⟨e, he, rfl⟩ := hm
  exact ⟨e, he, get_eq_ok.mpr (h.get?_mnemonic (List.mem_of_getElem? he))⟩

theorem IsIndexed.lower (h : t.IsIndexed) : ∀ m ∈ t.mnemonics, Text.lower m = m := by
  intro m hm
  obtain ⟨i, hi⟩ := List.getElem?_of_mem hm
  obtain ⟨e, he, hget⟩ := h i m hi
  rw [mnemonics, List.getElem?_map, he, Option.map_some, Option.some.injEq] at hi
  rw [← lower_of_get hget, hi]

/-! ## Tables of given entries -/

theorem mem_mnemonics_ofEntries {m : String} :
    m ∈ (ofEntries es).mnemonics ↔ ∃ e ∈ es, e.mnemonic = m :=
  Arrival.mem_keys_ofList

theorem isKeyed_ofEntries (h : ∀ e ∈ es, Text.lower e.mnemonic = e.mnemonic) :
    (ofEntries es).IsKeyed where
  nodup := Arrival.nodup_keys_ofList LookupEntry.mnemonic es
  lower m hm := by
    obtain ⟨e, he, rfl⟩ := mem_mnemonics_ofEntries.mp hm
    exact h e he

theorem isIndexed_ofEntries_iff :
    (ofEntries es).IsIndexed ↔ ∀ e ∈ es, Text.lower e.mnemonic = e.mnemonic :=
  ⟨fun h e he => h.lower _ (mem_mnemonics_ofEntries.mpr ⟨e, he, rfl⟩),
    fun h => (isKeyed_ofEntries h).isIndexed⟩

/-- The entry that answers is the last that was given under the mnemonic in lower case. -/
theorem get?_ofEntries (es : List LookupEntry) (m : String) :
    (ofEntries es).get? m = es.reverse.find? fun e => e.mnemonic == Text.lower m :=
  Arrival.find?_ofList es (Text.lower m)

theorem exists_get_ofEntries {m : String} :
    (∃ e, (ofEntries es).get m = .ok e) ↔ ∃ e ∈ es, e.mnemonic = Text.lower m := by
  simp only [get_eq_ok, get?_ofEntries, ← Option.isSome_iff_exists, List.find?_isSome,
    List.mem_reverse, beq_iff_eq]

theorem exists_values_ofEntries :
    (∃ found, (ofEntries es).values = .ok found) ↔
      ∀ e ∈ es, ∃ e' ∈ es, e'.mnemonic = Text.lower e.mnemonic := by
  constructor
  · rintro ⟨found, hfound⟩ e he
    exact exists_get_ofEntries.mp
      (Result.exists_of_mapM hfound _ (mem_mnemonics_ofEntries.mpr ⟨e, he, rfl⟩))
  · intro h
    refine ⟨_, Result.mapM_eq_filterMap fun m hm => ?_⟩
    obtain ⟨e, he, rfl⟩ := mem_mnemonics_ofEntries.mp hm
    exact exists_get_ofEntries.mpr (h e he)

/-! ## The source -/

/-- The lines of a look-up table with these blocks, declared with their number. -/
def tableLines (s : Settings) (blocks : List (List String)) : List String :=
  ["// Addressing modes belonging to instructions.",
      s!"{s.stem}_iasm_modes_t {s.stem}_insn_lut[{blocks.length}] = \x7b"] ++
    blocks.flatten ++ ["\x7d;"]

theorem lookupTable_eq_ok {s : Settings} {text : String} :
    CSource.lookupTable s t = .ok text ↔ ∃ found, t.values = .ok found ∧
      text = Text.unlines (tableLines s (found.map (CSource.block s))) := by
  rw [CSource.lookupTable, Result.bind_eq_ok]
  refine exists_congr fun found => and_congr_right fun hfound => ?_
  have hsize : t.size = found.length := by
    rw [← (Result.mapM_eq_ok.mp hfound).length_eq, mnemonics, List.length_map, size]
  show Except.ok _ = Except.ok text ↔ _
  rw [Except.ok.injEq, eq_comm, hsize, tableLines, List.length_map, List.flatMap_def]

/-- The keys and the entries are as many as the size says.  Every key finds the entry in its
own place exactly if all mnemonics that were given are in lower case; then the source has
the blocks of the entries in their order, declared with their number.  A source there is
exactly if each of these mnemonics, put into lower case, is one that was given. -/
theorem views_agree_iff (es : List LookupEntry) :
    (ofEntries es).mnemonics.length = (ofEntries es).size ∧
      (ofEntries es).entries.length = (ofEntries es).size ∧
      ((∀ e ∈ es, Text.lower e.mnemonic = e.mnemonic) ↔ (ofEntries es).IsIndexed) ∧
      ((∀ e ∈ es, Text.lower e.mnemonic = e.mnemonic) → ∀ s : Settings,
        CSource.lookupTable s (ofEntries es) = .ok
          (Text.unlines (tableLines s ((ofEntries es).entries.map (CSource.block s))))) ∧
      ∀ s : Settings, (∃ text, CSource.lookupTable s (ofEntries es) = .ok text) ↔
        ∀ e ∈ es, ∃ e' ∈ es, e'.mnemonic = Text.lower e.mnemonic := by
  refine ⟨List.length_map _, rfl, isIndexed_ofEntries_iff.symm, fun h s => ?_, fun s => ?_⟩
  · exact lookupTable_eq_ok.mpr ⟨_, (isKeyed_ofEntries h).values_eq, rfl⟩
  · rw [← exists_values_ofEntries]
    constructor
    · rintro ⟨text, h⟩
      obtain ⟨found, hfound, -⟩ := lookupTable_eq_ok.mp h
      exact ⟨found, hfound⟩
    · rintro ⟨found, hfound⟩
      exact ⟨_, lookupTable_eq_ok.mpr ⟨found, hfound, rfl⟩⟩

def emptyMov : LookupEntry :=
  { mnemonic := "mov", variants := [] }

def plainInc : LookupEntry :=
  { mnemonic := "inc", variants := [] }

def plainMov : LookupEntry :=
  { mnemonic := "mov",
    variants := [{ opcode := 1, operandCount := 0, wordCount := 0, modes := [], pattern := "" }] }

/-- An entry in the place of an earlier one. -/
theorem views_agree_iff_repeated :
    (∀ e ∈ [emptyMov, plainInc, plainMov], Text.lower e.mnemonic = e.mnemonic) ∧
      (ofEntries [emptyMov, plainInc, plainMov]).entries = [plainMov, plainInc] ∧
      (ofEntries [emptyMov, plainInc, plainMov]).IsIndexed ∧
      CSource.lookupTable {} (ofEntries [emptyMov, plainInc, plainMov]) = .ok
        (Text.unlines (tableLines {} [CSource.block {} plainMov, CSource.block {} plainInc])) := by
  have hlower : ∀ e ∈ [emptyMov, plainInc, plainMov], Text.lower e.mnemonic = e.mnemonic := by
    decide +kernel
  have hentries : (ofEntries [emptyMov, plainInc, plainMov]).entries = [plainMov, plainInc] := rfl
  obtain ⟨-, -, hindexed, hsource, -⟩ := views_agree_iff [emptyMov, plainInc, plainMov]
  refine ⟨hlower, hentries, hindexed.mp hlower, ?_⟩
  rw [hsource hlower, hentries]
  rfl

def upperMov : LookupEntry :=
  { mnemonic := "MOV", variants := [] }

/-- An entry under a mnemonic in upper case is not found by it, and there is no source.  With
another entry under the mnemonic in lower case, that one is found instead, and the source
has it twice. -/
theorem views_disagree_upper :
    ¬ (ofEntries [upperMov]).IsIndexed ∧
      (ofEntries [upperMov]).mnemonics = ["MOV"] ∧
      (ofEntries [upperMov]).entries = [upperMov] ∧
      (ofEntries [upperMov]).get "MOV" = .error { mnemonic := "mov" } ∧
      CSource.lookupTable {} (ofEntries [upperMov]) = .error { mnemonic := "mov" } ∧
      (ofEntries [upperMov, plainMov]).mnemonics = ["MOV", "mov"] ∧
      (ofEntries [upperMov, plainMov]).entries = [upperMov, plainMov] ∧
      (ofEntries [upperMov, plainMov]).get "MOV" = .ok plainMov ∧
      CSource.lookupTable {} (ofEntries [upperMov, plainMov]) = .ok
        (Text.unlines (tableLines {} [CSource.block {} plainMov, CSource.block {} plainMov])) := by
  have hupper : ¬ ∀ e ∈ [upperMov], Text.lower e.mnemonic = e.mnemonic := by decide +kernel
  exact ⟨fun h => hupper (isIndexed_ofEntries_iff.mp h), by decide +kernel⟩

end Lookup
end AssemblerTables
