/-
What a run notes down about its work, for those who want to follow it.

The journal of a step is a function of what the step is given, so the steps
themselves do not carry it.
-/
import AssemblerTables.Bundled
import AssemblerTables.Tables

namespace AssemblerTables

inductive Note where
  | bundledChosen
  | reading (path : Files.Path)
  | loaded (instructions : Nat)
  | generating (instructions : Nat)
  | keywords (words : Nat) (mnemonics : Int)
  | groups (mnemonics : Nat)
  | unresolved (failure : Lookup.Failure)
  | lookup (mnemonics variants : Nat)
  | generated (words mnemonics variants : Nat)
  | wroteOutput (format : String) (path : Files.Path)
  | wroteListing (path : Files.Path)
deriving DecidableEq, Repr

namespace Note

/-- Is the note about the outside of the run: what it reads, makes and writes? -/
def isNews : Note → Bool
  | .bundledChosen | .reading _ | .generated _ _ _ | .wroteOutput _ _ | .wroteListing _ => true
  | _ => false

def message : Note → String
  | .bundledChosen => "No ISA file given, using bundled GR8CPU Rev3 definition"
  | .reading path => s!"Reading ISA definition from {path.text}"
  | .loaded n => s!"Loaded {n} instruction definitions"
  | .generating n => s!"Generating tables for {n} instructions"
  | .keywords words mnemonics => s!"Keyword table: {words} keywords, {mnemonics} mnemonics"
  | .groups mnemonics => s!"Grouped instructions into {mnemonics} mnemonics"
  | .unresolved f =>
    s!"Cannot resolve '{f.instruction.pattern}' in group '{f.mnemonic}': " ++
      f.fault.report.description
  | .lookup mnemonics variants => s!"Lookup table: {mnemonics} mnemonics, {variants} variants"
  | .generated words mnemonics variants =>
    s!"Generated {words} keywords and {mnemonics} lookup entries ({variants} variants)"
  | .wroteOutput format path => s!"Wrote {format} output to {path.text}"
  | .wroteListing path => s!"Wrote syntax listing to {path.text}"

def text (n : Note) : String :=
  (if n.isNews then "INFO: " else "DEBUG: ") ++ n.message

end Note

namespace Journal

/-- The notes of turning records into instructions, which has none if it fails. -/
def ofRecords (records : List Json.Value) : List Note :=
  match Definition.ofRecords records with
  | .ok is => [.loaded is.length]
  | .error _ => []

def ofLoad (files : Files.OctetStore) (path : Files.Path) : List Note :=
  match Definition.recordsAt files path with
  | .ok records => .reading path :: ofRecords records
  | .error _ => []

def ofBundled (name : String) : List Note :=
  match Bundled.find name with
  | .ok is => [.reading (Bundled.shownPath name), .loaded is.length]
  | .error _ => []

/-- The notes of the look-up table, made of groups that have been noted. -/
def ofLookup (k : Keywords) (groups : List Group) : List Note :=
  match Lookup.ofGroups Variant.resolve groups with
  | .ok t =>
    [.lookup t.size t.variantCount, .generated k.size t.size t.variantCount]
  | .error failure => [.unresolved failure]

/-- The notes of building all tables, up to the first fault. -/
def ofBuild (is : List Instruction) : List Note :=
  .generating is.length ::
    match Tables.validate is, Keywords.ofInstructions is, Groups.ofInstructions is with
    | .ok _, .ok k, .ok groups =>
      .keywords k.size k.mnemonicCount :: .groups groups.length :: ofLookup k groups
    | _, _, _ => []

end Journal
end AssemblerTables
