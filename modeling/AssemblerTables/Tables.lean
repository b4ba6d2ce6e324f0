/-
All tables of an instruction set.

Nothing is built unless every instruction can be.  First every operand of every
instruction has to have a mode; the number of operands and the widths are looked
at only when the variants are resolved, group by group.
-/
import AssemblerTables.Listing
import AssemblerTables.Lookup

namespace AssemblerTables

structure Tables where
  instructions : List Instruction
  keywords : Keywords
  groups : List Group
  lookup : Lookup
  listing : List ListingEntry

namespace Tables

/-- Does every operand of the instruction have a mode? -/
def checkForms (i : Instruction) : Except BuildFault Unit :=
  match Pattern.split? i.pattern with
  | none => .error (.noMnemonic i.pattern)
  | some (mnemonic, text) => do
    discard (Variant.modesOf i.pattern mnemonic (Pattern.operands text))

/-- The first fault in the operand forms of an instruction set, in the order of
definition. -/
def validate (is : List Instruction) : Except BuildFault Unit :=
  is.forM checkForms

def lookupOf (resolve : Instruction → Except BuildFault Variant) (is : List Instruction) :
    Except BuildFault Lookup := do
  let groups ← Groups.ofInstructions is
  (Lookup.ofGroups resolve groups).mapError Lookup.Failure.fault

def build (is : List Instruction) : Except BuildFault Tables := do
  validate is
  let keywords ← Keywords.ofInstructions is
  let groups ← Groups.ofInstructions is
  let lookup ← (Lookup.ofGroups Variant.resolve groups).mapError Lookup.Failure.fault
  return {
    instructions := is,
    keywords := keywords,
    groups := groups,
    lookup := lookup,
    listing := Listing.ofGroups groups }

end Tables
end AssemblerTables
