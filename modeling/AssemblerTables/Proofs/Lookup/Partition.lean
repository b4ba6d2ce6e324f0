/-
From instructions to groups to table entries, without loss and in order.

The groups are a partition of the instructions: each key where it first occurs, and under
it all instructions with this key.  A table built of them has one entry for each group, and
in it one variant for each member.  Therefore only the order of instructions with the same
mnemonic can be seen in an entry.  Two neighbours with different mnemonics can change
places, and the table has the same entries as before; at most the entries themselves have
changed places.
-/
import AssemblerTables.Proofs.Lookup

namespace AssemblerTables

namespace Groups

/-- Are the groups a partition of the instructions by first word, in order? -/
structure IsPartition (is : List Instruction) (groups : List Group) : Prop where
  keys : Distinct.FirstSeen (is.map fun i => Pattern.root i.pattern) (groups.map Group.mnemonic)
  members : ∀ g ∈ groups, g.members = is.filter fun i => Pattern.root i.pattern == g.mnemonic
  ne_nil : ∀ g ∈ groups, g.members ≠ []
  perm : (groups.flatMap Group.members).Perm is

theorem isPartition_partition {is : List Instruction}
    (h : ∀ i ∈ is, Pattern.firstWord i.pattern ≠ []) : IsPartition is (partition is) where
  keys := by
    rw [keys_partition]
    exact firstSeen_roots h
  members g hg := by
    obtain ⟨m, -, rfl⟩ := List.mem_map.mp hg
    exact membersOf_eq_filter h m
  ne_nil g hg := by
    obtain ⟨m, hm, rfl⟩ := List.mem_map.mp hg
    obtain ⟨i, hi, hroot⟩ := mem_roots.mp hm
    exact List.ne_nil_of_mem (mem_membersOf.mpr ⟨hi, hroot⟩)
  perm := perm_partition (exists_root? h)

/-! ## Neighbours that change places -/

section Neighbours

variable {before after : List Instruction} {i j : Instruction}

theorem perm_neighbours : (before ++ j :: i :: after).Perm (before ++ i :: j :: after) :=
  (List.Perm.swap i j after).append_left before

theorem perm_roots {is is' : List Instruction} (h : is'.Perm is) : (roots is').Perm (roots is) := by
  refine (List.perm_ext_iff_of_nodup (nodup_roots is') (nodup_roots is)).mpr fun m => ?_
  simp only [mem_roots, h.mem_iff]

theorem membersOf_neighbours (h : i.root? ≠ j.root?) (m : String) :
    membersOf (before ++ j :: i :: after) m = membersOf (before ++ i :: j :: after) m := by
  simp only [membersOf, List.filter_append, List.filter_cons, beq_iff_eq]
  by_cases hi : i.root? = some m
  · have hj : j.root? ≠ some m := fun hj => h (hi.trans hj.symm)
    rw [if_pos hi, if_pos hi, if_neg hj, if_neg hj]
  · rw [if_neg hi, if_neg hi]

end Neighbours

end Groups

namespace Lookup

variable {resolve : Instruction → Except BuildFault Variant}

/-! ## Entries of groups -/

/-- Is `e` the entry of the group, with the variants of its members in order? -/
structure EntryOf (resolve : Instruction → Except BuildFault Variant) (g : Group)
    (e : LookupEntry) : Prop where
  mnemonic : e.mnemonic = g.mnemonic
  variants : List.Forall₂ (fun i v => resolve i = .ok v) g.members e.variants

theorem entryOf_of_resolveGroup {g : Group} {e : LookupEntry} (h : resolveGroup resolve g = .ok e) :
    EntryOf resolve g e := by
  obtain ⟨vs, hvs, h⟩ := Result.bind_eq_ok.mp h
  cases h
  have hmembers := Result.mapM_eq_ok.mp hvs
  simp only [resolveMember_eq_ok] at hmembers
  exact ⟨rfl, hmembers⟩

theorem map_mnemonic {groups : List Group} {es : List LookupEntry}
    (h : List.Forall₂ (EntryOf resolve) groups es) :
    es.map LookupEntry.mnemonic = groups.map Group.mnemonic := by
  induction h with
  | nil => rfl
  | cons hentry _ ih => rw [List.map_cons, List.map_cons, hentry.mnemonic, ih]

/-- Groups under distinct keys have their entries side by side in the table. -/
theorem entryOf_of_ofGroups {groups : List Group} {t : Lookup}
    (hkeys : (groups.map Group.mnemonic).Nodup) (h : ofGroups resolve groups = .ok t) :
    List.Forall₂ (EntryOf resolve) groups t.entries := by
  obtain ⟨es, hes, h⟩ := Result.bind_eq_ok.mp h
  have hentries := (Result.mapM_eq_ok.mp hes).imp fun _ _ => entryOf_of_resolveGroup
  cases h
  show List.Forall₂ _ groups (Arrival.ofList LookupEntry.mnemonic es)
  rwa [Arrival.ofList_eq_self (by rwa [map_mnemonic hentries])]

theorem perm_entries_neighbours {before after : List Instruction} {i j : Instruction}
    (h : i.root? ≠ j.root?) :
    (ofInstructions resolve (before ++ j :: i :: after)).entries.Perm
      (ofInstructions resolve (before ++ i :: j :: after)).entries := by
  simp only [ofInstructions, variantsOf, Groups.membersOf_neighbours h]
  exact (Groups.perm_roots Groups.perm_neighbours).map _

/-- Instructions that all start with a word are partitioned by it, and a table is built of
the groups by every resolver that fails on none of the instructions.  It has the keys of the
groups, and in each entry the variants of the members, all in order.  Neighbours with
different first words can change places, which changes no entry.  Where an instruction does
not start with a word there are no groups, and the first such instruction is to blame. -/
theorem partition_in_order (is : List Instruction) :
    ((∀ i ∈ is, Pattern.firstWord i.pattern ≠ []) →
      ∃ groups, Groups.ofInstructions is = .ok groups ∧ Groups.IsPartition is groups ∧
        ∀ resolve : Instruction → Except BuildFault Variant, (∀ i ∈ is, ∃ v, resolve i = .ok v) →
          ∃ t, ofGroups resolve groups = .ok t ∧
            t.mnemonics = groups.map Group.mnemonic ∧
            List.Forall₂ (EntryOf resolve) groups t.entries ∧
            ∀ before i j after, is = before ++ i :: j :: after →
              Pattern.root i.pattern ≠ Pattern.root j.pattern →
              ∃ groups' t', Groups.ofInstructions (before ++ j :: i :: after) = .ok groups' ∧
                ofGroups resolve groups' = .ok t' ∧ t'.entries.Perm t.entries) ∧
    ((∃ i ∈ is, Pattern.firstWord i.pattern = []) →
      ∃ i, is.find? (fun j => (Pattern.firstWord j.pattern).isEmpty) = some i ∧
        Groups.ofInstructions is = .error (.noMnemonic i.pattern)) := by
  constructor
  · intro h
    refine ⟨Groups.partition is, Groups.ofInstructions_eq (Groups.exists_root? h),
      Groups.isPartition_partition h, fun resolve hresolve => ?_⟩
    have htable := ofGroups_partition hresolve
    have hkeys := (Groups.isPartition_partition h).keys.nodup
    have hentries := entryOf_of_ofGroups hkeys htable
    refine ⟨ofInstructions resolve is, htable, map_mnemonic hentries, hentries,
      fun before i j after his hne => ?_⟩
    subst his
    have hmem {k : Instruction} : k ∈ before ++ j :: i :: after ↔ k ∈ before ++ i :: j :: after :=
      Groups.perm_neighbours.mem_iff
    have hroots : ∀ k ∈ before ++ j :: i :: after, ∃ m, k.root? = some m :=
      Groups.exists_root? fun k hk => h k (hmem.mp hk)
    have hdiffer : i.root? ≠ j.root? := by
      rw [Instruction.root?_eq_some (h i (by simp)), Instruction.root?_eq_some (h j (by simp))]
      exact fun e => hne (Option.some.inj e)
    exact ⟨_, _, Groups.ofInstructions_eq hroots,
      ofGroups_partition fun k hk => hresolve k (hmem.mp hk), perm_entries_neighbours hdiffer⟩
  · intro h
    obtain ⟨i, hi⟩ := Instruction.exists_find?_wordless h
    exact ⟨i, hi, Groups.addAll_eq_error (Instruction.mapM_mnemonic_of_find? hi)⟩

def movAX : Instruction :=
  { pattern := "mov A, X", opcode := 0, widths := [] }

def incA : Instruction :=
  { pattern := "inc A", opcode := 1, widths := [] }

def movXA : Instruction :=
  { pattern := "MOV X, A", opcode := 2, widths := [] }

def wordless : Instruction :=
  { pattern := "[%]", opcode := 3, widths := [] }

/-- A resolver that looks at nothing but the opcode. -/
def opcodeOnly (i : Instruction) : Except BuildFault Variant :=
  .ok { opcode := i.opcode, operandCount := 0, wordCount := 0, modes := [], pattern := "" }

theorem partition_in_order_turns :
    (∃ groups t groups' t', Groups.ofInstructions [movAX, incA, movXA] = .ok groups ∧
      groups = [{ mnemonic := "mov", members := [movAX, movXA] },
        { mnemonic := "inc", members := [incA] }] ∧
      Groups.IsPartition [movAX, incA, movXA] groups ∧
      ofGroups opcodeOnly groups = .ok t ∧ t.mnemonics = ["mov", "inc"] ∧
      Groups.ofInstructions [incA, movAX, movXA] = .ok groups' ∧
      ofGroups opcodeOnly groups' = .ok t' ∧ t'.entries.Perm t.entries) ∧
    Groups.ofInstructions [movAX, wordless, incA] = .error (.noMnemonic "[%]") := by
  have hwords : ∀ i ∈ [movAX, incA, movXA], Pattern.firstWord i.pattern ≠ [] := by decide +kernel
  obtain ⟨groups, hgroups, hpartition, htables⟩ := (partition_in_order _).1 hwords
  obtain ⟨t, ht, hkeys, -, hswap⟩ := htables opcodeOnly fun i _ => ⟨_, rfl⟩
  obtain ⟨groups', t', hgroups', ht', hperm⟩ :=
    hswap [] movAX incA [movXA] rfl (by decide +kernel)
  have hvalue : Groups.ofInstructions [movAX, incA, movXA] =
      .ok [{ mnemonic := "mov", members := [movAX, movXA] },
        { mnemonic := "inc", members := [incA] }] := by
    decide +kernel
  have hsame := Except.ok.inj (hgroups.symm.trans hvalue)
  obtain ⟨i, hi, herror⟩ := (partition_in_order [movAX, wordless, incA]).2
    ⟨wordless, by decide, by decide +kernel⟩
  have hfirst : [movAX, wordless, incA].find? (fun j => (Pattern.firstWord j.pattern).isEmpty) =
      some wordless := by
    decide +kernel
  rw [hfirst] at hi
  cases hi
  exact ⟨⟨groups, t, groups', t', hgroups, hsame, hpartition, ht, by rw [hkeys, hsame]; rfl,
    hgroups', ht', hperm⟩, herror⟩

end Lookup
end AssemblerTables
