/-
The listing loses nothing that a definition says about how instructions are written.

It has the groups under their mnemonics, and for each instruction a description in place of
the pattern.  Within a group the descriptions tell the patterns, so groups that are listed
alike have the same patterns in the same order.  Across groups they do not: `MOV%` and
`MOVimm` are described alike, and only their mnemonics tell them apart.
-/
import AssemblerTables.Proofs.Pattern.Recovery
import AssemblerTables.Proofs.Tables

namespace AssemblerTables

/-- The patterns of a group, in the order of definition. -/
def Group.patterns (g : Group) : List String :=
  g.members.map Instruction.pattern

namespace Listing

/-- A listing is made of mnemonics and patterns, and of nothing else that instructions have. -/
theorem ofGroups_eq_map (groups : List Group) :
    ofGroups groups = (groups.map fun g => (g.mnemonic, g.patterns)).map fun p =>
      { mnemonic := p.1, forms := p.2.map Pattern.describe } := by
  simp only [ofGroups, Group.patterns, List.map_map, Function.comp_def]

end Listing

namespace Tables

variable {is js : List Instruction}

/-- Members of one mnemonic that are described alike are written alike, in whichever of two
instruction sets they stand. -/
theorem pattern_eq_of_mem_membersOf (his : Accepted is) (hjs : Accepted js) {m : String}
    {i j : Instruction} (hi : i ∈ Groups.membersOf is m) (hj : j ∈ Groups.membersOf js m)
    (h : Pattern.describe i.pattern = Pattern.describe j.pattern) : i.pattern = j.pattern := by
  obtain ⟨hi, hroot⟩ := Groups.mem_membersOf.mp hi
  obtain ⟨hj, hroot'⟩ := Groups.mem_membersOf.mp hj
  obtain ⟨v, hv⟩ := his i hi
  obtain ⟨w, hw⟩ := hjs j hj
  exact Variant.pattern_eq_of_describe_eq hv hw (hroot.trans hroot'.symm) h

/-- Two instruction sets with tables have one listing exactly if their groups have the same
mnemonics and the same patterns in the same order.  In particular the members of a group
that are described alike have one pattern. -/
theorem listing_eq_iff {t u : Tables} (ht : build is = .ok t) (hu : build js = .ok u) :
    (t.listing = u.listing ↔
        t.groups.map (fun g => (g.mnemonic, g.patterns)) =
          u.groups.map fun g => (g.mnemonic, g.patterns)) ∧
      ∀ g ∈ t.groups, ∀ i ∈ g.members, ∀ j ∈ g.members,
        Pattern.describe i.pattern = Pattern.describe j.pattern → i.pattern = j.pattern := by
  obtain ⟨his, rfl⟩ := build_eq_ok.mp ht
  obtain ⟨hjs, rfl⟩ := build_eq_ok.mp hu
  refine ⟨⟨fun h => ?_, fun h => ?_⟩, fun g hg i hi j hj h => ?_⟩
  · refine Result.map_eq_map_of (fun g hg g' hg' hentry => ?_) h
    obtain ⟨m, -, rfl⟩ := List.mem_map.mp hg
    obtain ⟨m', -, rfl⟩ := List.mem_map.mp hg'
    obtain rfl : m = m' := congrArg ListingEntry.mnemonic hentry
    refine congrArg (m, ·) (Result.map_eq_map_of (fun i hi j hj hsame => ?_)
      (congrArg ListingEntry.forms hentry))
    exact pattern_eq_of_mem_membersOf his hjs hi hj hsame
  · show Listing.ofGroups (ofAccepted is).groups = Listing.ofGroups (ofAccepted js).groups
    rw [Listing.ofGroups_eq_map, h, ← Listing.ofGroups_eq_map]
  · obtain ⟨m, -, rfl⟩ := List.mem_map.mp hg
    exact pattern_eq_of_mem_membersOf his his hi hj h

/-- Two mnemonics with one description, and a group that is taken up again. -/
def alikeFirst : List Instruction :=
  [{ pattern := "MOV%", opcode := 0, widths := [8] },
    { pattern := "MOVimm", opcode := 1, widths := [] },
    { pattern := "mov (%) , A", opcode := 2, widths := [16] }]

/-- The same patterns with other opcodes and widths, group after group. -/
def alikeGrouped : List Instruction :=
  [{ pattern := "MOV%", opcode := 5, widths := [16] },
    { pattern := "mov (%) , A", opcode := 4, widths := [] },
    { pattern := "MOVimm", opcode := 3, widths := [] }]

theorem listing_eq_iff_alike :
    build alikeFirst = .ok (ofAccepted alikeFirst) ∧
      build alikeGrouped = .ok (ofAccepted alikeGrouped) ∧
      (ofAccepted alikeFirst).listing =
        [{ mnemonic := "mov", forms := ["MOVimm", "mov (ptr) , A"] },
          { mnemonic := "movimm", forms := ["MOVimm"] }] ∧
      (ofAccepted alikeFirst).groups.map (fun g => (g.mnemonic, g.patterns)) =
        (ofAccepted alikeGrouped).groups.map fun g => (g.mnemonic, g.patterns) := by
  have hfirst : build alikeFirst = .ok (ofAccepted alikeFirst) :=
    rfl
  have hgrouped : build alikeGrouped = .ok (ofAccepted alikeGrouped) :=
    rfl
  have hlisting : (ofAccepted alikeFirst).listing =
      [{ mnemonic := "mov", forms := ["MOVimm", "mov (ptr) , A"] },
        { mnemonic := "movimm", forms := ["MOVimm"] }] := by
    decide +kernel
  have hsame : (ofAccepted alikeFirst).listing = (ofAccepted alikeGrouped).listing := by
    decide +kernel
  exact ⟨hfirst, hgrouped, hlisting, (listing_eq_iff hfirst hgrouped).1.mp hsame⟩

end Tables
end AssemblerTables
