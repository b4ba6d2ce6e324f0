/-
When the tables of an instruction set can be built, and what they are.

`build` succeeds exactly when every instruction can be resolved, and then its result is
`ofAccepted`: the closed forms of the keyword table, the groups, the look-up table and
the listing.  Whatever is said about built tables can be said about `ofAccepted`.
-/
import AssemblerTables.Proofs.Keywords
import AssemblerTables.Proofs.Lookup
import AssemblerTables.Proofs.Variant
import AssemblerTables.Tables

namespace AssemblerTables

namespace Tables

/-- Can every instruction be resolved? -/
def Accepted (is : List Instruction) : Prop :=
  ∀ i ∈ is, ∃ v, Variant.resolve i = .ok v

instance (is : List Instruction) : Decidable (Accepted is) :=
  decidable_of_iff (∀ i ∈ is, (Variant.resolve i).toOption.isSome = true) <| by
    simp only [Option.isSome_iff_exists, Result.toOption_eq_some]
    rfl

/-- The tables of instructions that can all be resolved. -/
def ofAccepted (is : List Instruction) : Tables :=
  { instructions := is,
    keywords := Keywords.ofRooted is,
    groups := Groups.partition is,
    lookup := Lookup.ofInstructions Variant.resolve is,
    listing := Listing.ofGroups (Groups.partition is) }

theorem Accepted.exists_root {is : List Instruction} (h : Accepted is) :
    ∀ i ∈ is, ∃ m, i.root? = some m := by
  intro i hi
  obtain ⟨v, hv⟩ := h i hi
  exact Variant.root?_of_resolve hv

theorem checkForms_of_resolve {i : Instruction} {v : Variant}
    (h : Variant.resolve i = .ok v) : checkForms i = .ok () := by
  obtain ⟨m, text, modes, words, hsplit, -, hmodes, -⟩ := Variant.resolve_eq_ok.mp h
  rw [checkForms, hsplit]
  show discard (Variant.modesOf i.pattern m (Pattern.operands text)) = _
  rw [hmodes]
  rfl

theorem root?_of_checkForms {i : Instruction} (h : checkForms i = .ok ()) :
    ∃ m, i.root? = some m := by
  rw [checkForms] at h
  rw [Instruction.root?, Pattern.mnemonic?]
  cases hsplit : Pattern.split? i.pattern with
  | none => simp [hsplit] at h
  | some s => exact ⟨s.1, rfl⟩

theorem validate_eq_ok {is : List Instruction} :
    validate is = .ok () ↔ ∀ i ∈ is, checkForms i = .ok () := by
  rw [validate]
  induction is with
  | nil => simp [pure, Except.pure]
  | cons i rest ih =>
      show (checkForms i >>= fun _ => rest.forM checkForms) = .ok () ↔ _
      rw [Result.bind_eq_ok, List.forall_mem_cons, ← ih]
      exact ⟨fun ⟨_, hi, hrest⟩ => ⟨hi, hrest⟩, fun ⟨hi, hrest⟩ => ⟨(), hi, hrest⟩⟩

/-- Tables are built of exactly the instruction sets that can be resolved one by one. -/
theorem build_eq_ok {is : List Instruction} {t : Tables} :
    build is = .ok t ↔ Accepted is ∧ t = ofAccepted is := by
  constructor
  · intro h
    obtain ⟨_, hvalid, h⟩ := Result.bind_eq_ok.mp h
    have hroot : ∀ i ∈ is, ∃ m, i.root? = some m :=
      fun i hi => root?_of_checkForms (validate_eq_ok.mp hvalid i hi)
    rw [Keywords.ofInstructions_eq hroot, Groups.ofInstructions_eq hroot] at h
    obtain ⟨keywords, hkeywords, h⟩ := Result.bind_eq_ok.mp h
    obtain ⟨groups, hgroups, h⟩ := Result.bind_eq_ok.mp h
    obtain ⟨lookup, hlookup, h⟩ := Result.bind_eq_ok.mp h
    cases hkeywords
    cases hgroups
    rw [Result.mapError_eq_ok] at hlookup
    have haccepted : Accepted is := by
      intro i hi
      obtain ⟨m, hm⟩ := hroot i hi
      exact Lookup.exists_of_ofGroups hlookup _
        (List.mem_map_of_mem (Groups.mem_roots.mpr ⟨i, hi, hm⟩)) i
        (Groups.mem_membersOf.mpr ⟨hi, hm⟩)
    rw [Lookup.ofGroups_partition haccepted] at hlookup
    cases hlookup
    exact ⟨haccepted, (Except.ok.inj h).symm⟩
  · rintro ⟨h, rfl⟩
    have hvalid : validate is = .ok () := validate_eq_ok.mpr fun i hi => by
      obtain ⟨v, hv⟩ := h i hi
      exact checkForms_of_resolve hv
    rw [build, hvalid, Keywords.ofInstructions_eq h.exists_root,
      Groups.ofInstructions_eq h.exists_root]
    show (do
      let lookup ← (Lookup.ofGroups Variant.resolve (Groups.partition is)).mapError
        Lookup.Failure.fault
      return { ofAccepted is with lookup := lookup }) = Except.ok (ofAccepted is)
    rw [Lookup.ofGroups_partition h]
    rfl

end Tables
end AssemblerTables
