/-
Grouping is an order-preserving partition.

The groups of an instruction set have the distinct mnemonics as their keys, in the order
in which they first appear, and each group holds the instructions of its mnemonic in
the order of definition.  `partition` says so in closed form, and `ofInstructions_eq`
shows that collecting the instructions one by one arrives at it: adding the next
instruction to the partition of those before gives the partition of both.  The first
instruction that does not start with a word ends the collection.
-/
import AssemblerTables.Groups
import AssemblerTables.Proofs.Distinct
import AssemblerTables.Proofs.Pattern.Written
import AssemblerTables.Proofs.Result

namespace AssemblerTables

namespace Instruction

/-- The mnemonic, if the pattern has one. -/
def root? (i : Instruction) : Option String :=
  Pattern.mnemonic? i.pattern

theorem mnemonic_eq_ok {i : Instruction} {m : String} :
    i.mnemonic = .ok m ↔ i.root? = some m := by
  rw [mnemonic, root?]
  cases Pattern.mnemonic? i.pattern with
  | none => simp
  | some r => simp

theorem root?_eq_some {i : Instruction} (h : Pattern.firstWord i.pattern ≠ []) :
    i.root? = some (Pattern.root i.pattern) :=
  Pattern.mnemonic?_eq_some h

theorem exists_find?_wordless {is : List Instruction}
    (h : ∃ i ∈ is, Pattern.firstWord i.pattern = []) :
    ∃ i, is.find? (fun j => (Pattern.firstWord j.pattern).isEmpty) = some i := by
  obtain ⟨j, hj, hword⟩ := h
  exact Option.isSome_iff_exists.mp (List.find?_isSome.mpr ⟨j, hj, by simpa using hword⟩)

/-- Every instruction before the first that does not start with a word has a mnemonic. -/
theorem mapM_mnemonic_of_find? {is : List Instruction} {i : Instruction}
    (h : is.find? (fun j => (Pattern.firstWord j.pattern).isEmpty) = some i) :
    is.mapM mnemonic = .error (.noMnemonic i.pattern) := by
  refine Result.mapM_of_find? (fun j _ hj => ?_) h ?_
  · have hword : Pattern.firstWord j.pattern ≠ [] := by simpa using hj
    exact ⟨_, mnemonic_eq_ok.mpr (root?_eq_some hword)⟩
  · have hword : Pattern.firstWord i.pattern = [] := by simpa using List.find?_some h
    rw [mnemonic, Pattern.mnemonic?_eq_none.mpr hword]

end Instruction

namespace Groups

/-! ## The partition -/

/-- The mnemonics of instructions, each where it first appears. -/
def roots (is : List Instruction) : List String :=
  (is.filterMap Instruction.root?).eraseDups

/-- The instructions of a mnemonic, in the order of definition. -/
def membersOf (is : List Instruction) (m : String) : List Instruction :=
  is.filter fun i => i.root? == some m

def partition (is : List Instruction) : List Group :=
  (roots is).map fun m => { mnemonic := m, members := membersOf is m }

theorem nodup_roots (is : List Instruction) : (roots is).Nodup :=
  Distinct.nodup_eraseDups _

theorem mem_roots {is : List Instruction} {m : String} :
    m ∈ roots is ↔ ∃ i ∈ is, i.root? = some m := by
  rw [roots, List.mem_eraseDups, List.mem_filterMap]

theorem mem_membersOf {is : List Instruction} {m : String} {i : Instruction} :
    i ∈ membersOf is m ↔ i ∈ is ∧ i.root? = some m := by
  rw [membersOf, List.mem_filter, beq_iff_eq]

theorem membersOf_eq_nil {is : List Instruction} {m : String} (h : m ∉ roots is) :
    membersOf is m = [] := by
  refine List.filter_eq_nil_iff.mpr fun i hi hroot => ?_
  exact h (mem_roots.mpr ⟨i, hi, beq_iff_eq.mp hroot⟩)

theorem keys_partition (is : List Instruction) :
    (partition is).map Group.mnemonic = roots is := by
  rw [partition, List.map_map]
  exact List.map_id _

section Words

variable {is : List Instruction} (h : ∀ i ∈ is, Pattern.firstWord i.pattern ≠ [])
include h

theorem exists_root? : ∀ i ∈ is, ∃ m, i.root? = some m :=
  fun i hi => ⟨_, Instruction.root?_eq_some (h i hi)⟩

theorem filterMap_root? :
    is.filterMap Instruction.root? = is.map fun i => Pattern.root i.pattern := by
  have hroot : ∀ i ∈ is, i.root? = some (Pattern.root i.pattern) :=
    fun i hi => Instruction.root?_eq_some (h i hi)
  rw [List.filterMap_congr hroot, ← List.filterMap_eq_map']

theorem firstSeen_roots :
    Distinct.FirstSeen (is.map fun i => Pattern.root i.pattern) (roots is) := by
  rw [roots, filterMap_root? h]
  exact Distinct.firstSeen_eraseDups _

theorem membersOf_eq_filter (m : String) :
    membersOf is m = is.filter fun i => Pattern.root i.pattern == m := by
  refine List.filter_congr fun i hi => ?_
  rw [Instruction.root?_eq_some (h i hi), Bool.eq_iff_iff, beq_iff_eq, beq_iff_eq,
    Option.some.injEq]

end Words

/-! ## Adding one instruction -/

theorem roots_concat {is : List Instruction} {i : Instruction} {m : String}
    (h : i.root? = some m) :
    roots (is ++ [i]) = if m ∈ roots is then roots is else roots is ++ [m] := by
  have hlast : [i].filterMap Instruction.root? = [m] := by
    rw [List.filterMap_cons, h, List.filterMap_nil]
  rw [roots, List.filterMap_append, hlast, Distinct.eraseDups_concat, ← roots]
  have hin : m ∈ roots is ↔ m ∈ is.filterMap Instruction.root? := List.mem_eraseDups
  by_cases hm : m ∈ roots is
  · rw [if_pos hm, if_pos (hin.mp hm)]
  · rw [if_neg hm, if_neg fun h => hm (hin.mpr h)]

theorem membersOf_concat {is : List Instruction} {i : Instruction} {m : String}
    (h : i.root? = some m) (k : String) :
    membersOf (is ++ [i]) k =
      if k = m then membersOf is k ++ [i] else membersOf is k := by
  rw [membersOf, List.filter_append, ← membersOf]
  by_cases hk : k = m
  · rw [if_pos hk, List.filter_cons, if_pos (by rw [h, hk, beq_self_eq_true]), List.filter_nil]
  · have hne : (i.root? == some k) = false := by
      rw [h, beq_eq_false_iff_ne]
      exact fun e => hk (Option.some.inj e).symm
    rw [if_neg hk, List.filter_cons, if_neg (by rw [hne]; exact Bool.false_ne_true),
      List.filter_nil, List.append_nil]

/-- Adding to groups under distinct keys changes the group of the key, or makes it the
last group. -/
theorem add_map {m : String} {i : Instruction} {members : String → List Instruction}
    {keys : List String} (hkeys : keys.Nodup) (hnew : m ∉ keys → members m = []) :
    add m i (keys.map fun k => { mnemonic := k, members := members k }) =
      (if m ∈ keys then keys else keys ++ [m]).map fun k =>
        { mnemonic := k, members := if k = m then members k ++ [i] else members k } := by
  induction keys with
  | nil =>
      have hempty := hnew List.not_mem_nil
      simp [add, hempty]
  | cons key rest ih =>
      obtain ⟨hkey, hrest⟩ := List.nodup_cons.mp hkeys
      rw [List.map_cons, add]
      by_cases hm : key = m
      · subst hm
        rw [if_pos rfl, if_pos List.mem_cons_self, List.map_cons, if_pos rfl]
        refine congrArg _ (List.map_congr_left fun k hk => ?_)
        rw [if_neg fun e : k = key => hkey (e ▸ hk)]
      · have hin : m ∈ key :: rest ↔ m ∈ rest := by
          rw [List.mem_cons]
          exact ⟨fun h => h.resolve_left (Ne.symm hm), .inr⟩
        rw [if_neg hm, ih hrest fun h => hnew fun hmem => h (hin.mp hmem)]
        by_cases hr : m ∈ rest
        · rw [if_pos hr, if_pos (hin.mpr hr), List.map_cons, if_neg hm]
        · rw [if_neg hr, if_neg fun h => hr (hin.mp h), List.cons_append, List.map_cons,
            if_neg hm]

theorem add_partition {is : List Instruction} {i : Instruction} {m : String}
    (h : i.root? = some m) : add m i (partition is) = partition (is ++ [i]) := by
  rw [partition, add_map (nodup_roots is) membersOf_eq_nil, partition, roots_concat h]
  refine List.map_congr_left fun k _ => ?_
  rw [membersOf_concat h]

/-- Adding loses, repeats and invents no instruction. -/
theorem perm_add (m : String) (i : Instruction) (groups : List Group) :
    ((add m i groups).flatMap Group.members).Perm (groups.flatMap Group.members ++ [i]) := by
  induction groups with
  | nil => exact List.Perm.refl _
  | cons g rest ih =>
      rw [add]
      by_cases hg : g.mnemonic = m
      · rw [if_pos hg, List.flatMap_cons, List.flatMap_cons, List.append_assoc, List.append_assoc]
        exact List.Perm.append_left _ List.perm_append_comm
      · rw [if_neg hg, List.flatMap_cons, List.flatMap_cons, List.append_assoc]
        exact List.Perm.append_left _ ih

/-! ## Adding all instructions -/

theorem addAll_partition {before is : List Instruction}
    (h : ∀ i ∈ is, ∃ m, i.root? = some m) :
    addAll (partition before) is = .ok (partition (before ++ is)) := by
  induction is generalizing before with
  | nil => rw [addAll, List.append_nil]
  | cons i rest ih =>
      obtain ⟨m, hm⟩ := h i List.mem_cons_self
      rw [addAll, Instruction.mnemonic_eq_ok.mpr hm]
      show addAll (add m i (partition before)) rest = _
      rw [add_partition hm, ih fun j hj => h j (List.mem_cons_of_mem _ hj), List.append_assoc]
      rfl

theorem perm_addAll {before after : List Group} {is : List Instruction}
    (h : addAll before is = .ok after) :
    (after.flatMap Group.members).Perm (before.flatMap Group.members ++ is) := by
  induction is generalizing before with
  | nil =>
      rw [addAll] at h
      cases h
      rw [List.append_nil]
  | cons i rest ih =>
      obtain ⟨m, -, h⟩ := Result.bind_eq_ok.mp h
      have hstep := (perm_add m i before).append_right rest
      rw [List.append_assoc] at hstep
      exact (ih h).trans hstep

theorem ofInstructions_eq {is : List Instruction} (h : ∀ i ∈ is, ∃ m, i.root? = some m) :
    ofInstructions is = .ok (partition is) :=
  @addAll_partition [] is h

theorem addAll_eq_error {groups : List Group} {is : List Instruction} {fault : BuildFault}
    (h : is.mapM Instruction.mnemonic = .error fault) : addAll groups is = .error fault := by
  induction is generalizing groups with
  | nil => cases h
  | cons i rest ih =>
      rw [List.mapM_cons, Result.bind_eq_error] at h
      rw [addAll]
      rcases h with hi | ⟨m, hi, h⟩
      · rw [hi]
        rfl
      · rw [hi]
        show addAll (add m i groups) rest = _
        rcases Result.bind_eq_error.mp h with hrest | ⟨ms, -, h⟩
        · exact ih hrest
        · cases h

/-- The groups hold every instruction once. -/
theorem perm_partition {is : List Instruction} (h : ∀ i ∈ is, ∃ m, i.root? = some m) :
    ((partition is).flatMap Group.members).Perm is :=
  perm_addAll (ofInstructions_eq h)

end Groups
end AssemblerTables
