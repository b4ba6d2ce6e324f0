/-
The look-up table of grouped instructions, in closed form.

Under resolvers that fail on none of the instructions the table has an entry for each
mnemonic, in the order in which the mnemonics first appear, with the variants of its
instructions in the order of definition.  The keys are distinct and in lower case.
So asking for an entry by its own mnemonic finds it, and asking for all entries one by
one gives the stored list.
-/
import AssemblerTables.Lookup
import AssemblerTables.Proofs.Groups

namespace AssemblerTables

namespace Arrival

variable {α κ : Type} [DecidableEq κ]

theorem put_eq_concat {key : α → κ} {x : α} {l : List α} (h : key x ∉ l.map key) :
    put key x l = l ++ [x] := by
  induction l with
  | nil => rfl
  | cons y rest ih =>
      rw [List.map_cons, List.mem_cons, not_or] at h
      rw [put, if_neg (Ne.symm h.1), ih h.2]
      rfl

/-- Elements with distinct keys take no places of each other. -/
theorem ofList_eq_self {key : α → κ} {xs : List α} (h : (xs.map key).Nodup) :
    ofList key xs = xs := by
  have step : ∀ xs before : List α, ((before ++ xs).map key).Nodup →
      xs.foldl (fun l x => put key x l) before = before ++ xs := by
    intro xs
    induction xs with
    | nil => intro before _; rw [List.foldl_nil, List.append_nil]
    | cons x rest ih =>
        intro before hkeys
        have hnew : key x ∉ before.map key := by
          rw [List.map_append, List.map_cons, List.nodup_append] at hkeys
          exact fun hmem => hkeys.2.2 _ hmem _ List.mem_cons_self rfl
        rw [List.foldl_cons, put_eq_concat hnew, ih _ (by rwa [List.append_assoc])]
        rw [List.append_assoc]
        rfl
  exact step xs [] h

theorem find?_key {key : α → κ} {l : List α} (h : (l.map key).Nodup) {x : α} (hx : x ∈ l) :
    l.find? (fun y => key y == key x) = some x := by
  induction l with
  | nil => exact absurd hx List.not_mem_nil
  | cons y rest ih =>
      obtain ⟨hy, hrest⟩ := List.nodup_cons.mp h
      rcases List.mem_cons.mp hx with rfl | hx
      · rw [List.find?_cons_of_pos (by rw [beq_self_eq_true])]
      · have hne : key y ≠ key x := fun e => hy (e ▸ List.mem_map_of_mem hx)
        rw [List.find?_cons_of_neg (by simpa using hne), ih hrest hx]

end Arrival

namespace Lookup

/-! ## Asking by mnemonic -/

/-- Are the mnemonics of the table distinct and in lower case? -/
structure IsKeyed (t : Lookup) : Prop where
  nodup : t.mnemonics.Nodup
  lower : ∀ m ∈ t.mnemonics, Text.lower m = m

theorem IsKeyed.get?_mnemonic {t : Lookup} (h : t.IsKeyed) {e : LookupEntry}
    (he : e ∈ t.entries) : t.get? e.mnemonic = some e := by
  rw [get?, h.lower _ (List.mem_map_of_mem he)]
  exact Arrival.find?_key h.nodup he

theorem IsKeyed.values_eq {t : Lookup} (h : t.IsKeyed) : t.values = .ok t.entries := by
  rw [values, mnemonics, List.mapM_map]
  have hget : ∀ e ∈ t.entries, (t.get ∘ LookupEntry.mnemonic) e = .ok (id e) := by
    intro e he
    rw [Function.comp, get, h.get?_mnemonic he]
    rfl
  rw [Result.mapM_eq_map hget, List.map_id]

/-! ## Tables of partitions -/

variable (resolve : Instruction → Except BuildFault Variant)

/-- The variants of a mnemonic, in the order of definition. -/
def variantsOf (is : List Instruction) (m : String) : List Variant :=
  (Groups.membersOf is m).filterMap fun i => (resolve i).toOption

def ofInstructions (is : List Instruction) : Lookup :=
  { entries := (Groups.roots is).map fun m =>
      { mnemonic := m, variants := variantsOf resolve is m } }

theorem mnemonics_ofInstructions (is : List Instruction) :
    (ofInstructions resolve is).mnemonics = Groups.roots is := by
  rw [mnemonics, ofInstructions, List.map_map]
  exact List.map_id _

theorem size_ofInstructions (is : List Instruction) :
    (ofInstructions resolve is).size = (Groups.roots is).length := by
  rw [← mnemonics_ofInstructions resolve is, mnemonics, List.length_map, size]

/-- The entries stand where their mnemonics do. -/
theorem getElem?_entries_ofInstructions (is : List Instruction) (i : Nat) :
    (ofInstructions resolve is).entries[i]?.map LookupEntry.mnemonic = (Groups.roots is)[i]? := by
  rw [← mnemonics_ofInstructions resolve is, mnemonics, List.getElem?_map]

theorem isKeyed_ofInstructions (is : List Instruction) :
    (ofInstructions resolve is).IsKeyed := by
  constructor
  · rw [mnemonics_ofInstructions]
    exact Groups.nodup_roots is
  · intro m hm
    rw [mnemonics_ofInstructions] at hm
    obtain ⟨i, -, hi⟩ := Groups.mem_roots.mp hm
    exact Pattern.lower_mnemonic hi

/-- Every variant in the table is that of an instruction. -/
theorem exists_of_mem_variants {is : List Instruction} {e : LookupEntry}
    (he : e ∈ (ofInstructions resolve is).entries) {v : Variant} (hv : v ∈ e.variants) :
    ∃ i ∈ is, resolve i = .ok v := by
  obtain ⟨m, -, rfl⟩ := List.mem_map.mp he
  obtain ⟨i, hi, hresolve⟩ := List.mem_filterMap.mp hv
  exact ⟨i, (Groups.mem_membersOf.mp hi).1, Result.toOption_eq_some.mp hresolve⟩

/-- What a table made of instructions answers. -/
theorem get?_ofInstructions (is : List Instruction) (m : String) :
    (ofInstructions resolve is).get? m =
      if Text.lower m ∈ Groups.roots is then
        some { mnemonic := Text.lower m, variants := variantsOf resolve is (Text.lower m) }
      else none := by
  by_cases hm : Text.lower m ∈ Groups.roots is
  · rw [if_pos hm]
    exact Arrival.find?_key
      (isKeyed_ofInstructions resolve is).nodup (List.mem_map_of_mem hm)
  · rw [if_neg hm, get?, List.find?_eq_none]
    intro e he hkey
    obtain ⟨root, hroot, rfl⟩ := List.mem_map.mp he
    exact hm (beq_iff_eq.mp hkey ▸ hroot)

variable {resolve}

/-- Looking for modes in the entry of a mnemonic is looking through the whole instruction
set for the mnemonic and the modes. -/
theorem find?_variantsOf (is : List Instruction) (m : String) (modes : List Mode) :
    (variantsOf resolve is m).find? (fun v => v.modes == modes) =
      (is.find? fun i => i.root? == some m &&
        (resolve i).toOption.any fun v => v.modes == modes).bind
          fun i => (resolve i).toOption := by
  rw [variantsOf, List.find?_filterMap, Groups.membersOf, List.find?_filter]
  simp only [Bool.decide_and, Bool.decide_eq_true]

theorem resolveMember_eq_ok {m : String} {i : Instruction} {v : Variant} :
    resolveMember resolve m i = .ok v ↔ resolve i = .ok v := by
  rw [resolveMember]
  cases resolve i with
  | error fault => simp
  | ok w => simp

theorem resolveMember_toOption (m : String) (i : Instruction) :
    (resolveMember resolve m i).toOption = (resolve i).toOption := by
  rw [resolveMember]
  cases resolve i with
  | error fault => rfl
  | ok v => rfl

theorem resolveGroup_eq {g : Group} (h : ∀ i ∈ g.members, ∃ v, resolve i = .ok v) :
    resolveGroup resolve g =
      .ok { mnemonic := g.mnemonic,
            variants := g.members.filterMap fun i => (resolve i).toOption } := by
  have hmembers : ∀ i ∈ g.members, ∃ v, resolveMember resolve g.mnemonic i = .ok v := by
    intro i hi
    obtain ⟨v, hv⟩ := h i hi
    exact ⟨v, resolveMember_eq_ok.mpr hv⟩
  rw [resolveGroup, Result.mapM_eq_filterMap hmembers]
  simp only [resolveMember_toOption]
  rfl

/-- A table is built of a partition when every instruction has a variant. -/
theorem ofGroups_partition {is : List Instruction} (h : ∀ i ∈ is, ∃ v, resolve i = .ok v) :
    ofGroups resolve (Groups.partition is) = .ok (ofInstructions resolve is) := by
  have hgroups : ∀ g ∈ Groups.partition is, resolveGroup resolve g =
      .ok { mnemonic := g.mnemonic,
            variants := g.members.filterMap fun i => (resolve i).toOption } := by
    intro g hg
    obtain ⟨m, -, rfl⟩ := List.mem_map.mp hg
    exact resolveGroup_eq fun i hi => h i (Groups.mem_membersOf.mp hi).1
  have hentries : (Groups.partition is).map (fun g =>
      { mnemonic := g.mnemonic,
        variants := g.members.filterMap fun i => (resolve i).toOption }) =
      (ofInstructions resolve is).entries := by
    rw [Groups.partition, List.map_map]
    rfl
  rw [ofGroups, Result.mapM_eq_map hgroups, hentries]
  show Except.ok (ofEntries _) = _
  rw [ofEntries, Arrival.ofList_eq_self (isKeyed_ofInstructions resolve is).nodup]

theorem exists_of_resolveGroup {g : Group} {e : LookupEntry} (h : resolveGroup resolve g = .ok e) :
    ∀ i ∈ g.members, ∃ v, resolve i = .ok v := by
  intro i hi
  obtain ⟨vs, hvs, -⟩ := Result.bind_eq_ok.mp h
  obtain ⟨v, hv⟩ := Result.exists_of_mapM hvs i hi
  exact ⟨v, resolveMember_eq_ok.mp hv⟩

/-- Only then: every member of every group has been resolved. -/
theorem exists_of_ofGroups {groups : List Group} {t : Lookup}
    (h : ofGroups resolve groups = .ok t) :
    ∀ g ∈ groups, ∀ i ∈ g.members, ∃ v, resolve i = .ok v := by
  intro g hg
  obtain ⟨es, hes, -⟩ := Result.bind_eq_ok.mp h
  obtain ⟨e, he⟩ := Result.exists_of_mapM hes g hg
  exact exists_of_resolveGroup he

theorem resolveMember_eq_error {m : String} {i : Instruction} {failure : Failure}
    (h : resolveMember resolve m i = .error failure) : resolve i = .error failure.fault := by
  rw [resolveMember] at h
  cases hi : resolve i with
  | error fault =>
      rw [hi] at h
      cases h
      rfl
  | ok v =>
      rw [hi] at h
      cases h

/-- A table that cannot be built tells of the first member, group by group, that cannot be
resolved. -/
theorem exists_failsFirst_of_ofGroups {groups : List Group} {failure : Failure}
    (h : ofGroups resolve groups = .error failure) :
    ∃ i, Result.FailsFirst resolve (groups.flatMap Group.members) i failure.fault := by
  rcases Result.bind_eq_error.mp h with h | ⟨es, -, h⟩
  · obtain ⟨g, before, after, rfl, hbefore, hg⟩ := Result.exists_failsFirst h
    have hresolved : ∀ i ∈ before.flatMap Group.members, ∃ v, resolve i = .ok v := by
      intro i hi
      obtain ⟨earlier, hearlier, hi⟩ := List.mem_flatMap.mp hi
      obtain ⟨e, he⟩ := hbefore earlier hearlier
      exact exists_of_resolveGroup he i hi
    rcases Result.bind_eq_error.mp hg with hg | ⟨vs, -, hg⟩
    · obtain ⟨i, front, back, hmembers, hfront, hi⟩ := Result.exists_failsFirst hg
      have hfirst : Result.FailsFirst resolve g.members i failure.fault :=
        ⟨front, back, hmembers, fun j hj => (hfront j hj).imp fun _ => resolveMember_eq_ok.mp,
          resolveMember_eq_error hi⟩
      refine ⟨i, ?_⟩
      rw [List.flatMap_append, List.flatMap_cons, ← List.append_assoc]
      exact hfirst.between hresolved _
    · cases hg
  · cases h

/-- The table has as many variants as there are instructions. -/
theorem variantCount_ofInstructions {is : List Instruction}
    (hroots : ∀ i ∈ is, ∃ m, i.root? = some m) (h : ∀ i ∈ is, ∃ v, resolve i = .ok v) :
    (ofInstructions resolve is).variantCount = is.length := by
  have hcounts : (ofInstructions resolve is).entries.map LookupEntry.count =
      (Groups.partition is).map fun g => g.members.length := by
    rw [ofInstructions, Groups.partition, List.map_map, List.map_map]
    refine List.map_congr_left fun m _ => ?_
    exact Result.length_filterMap_toOption fun i hi => h i (Groups.mem_membersOf.mp hi).1
  rw [variantCount, hcounts, ← List.length_flatMap]
  exact (Groups.perm_partition hroots).length_eq

end Lookup
end AssemblerTables
