/-
The look-up table: the variants of every mnemonic, in the order of definition.

The generated assembler looks for the first variant of a mnemonic whose modes are
those of the operands at hand.  The table is asked by mnemonic without regard to
case: the question is put into lower case, and the table is not.  A table of an
instruction set has its mnemonics in lower case; one made by hand need not, and
an entry under a mnemonic with upper case letters is then never found.
-/
import AssemblerTables.Arrival
import AssemblerTables.Groups
import AssemblerTables.Variant

namespace AssemblerTables

structure LookupEntry where
  mnemonic : String
  variants : List Variant
deriving DecidableEq, Repr

namespace LookupEntry

def count (e : LookupEntry) : Nat :=
  e.variants.length

def find? (e : LookupEntry) (modes : List Mode) : Option Variant :=
  e.variants.find? fun v => v.modes == modes

end LookupEntry

structure Lookup where
  entries : List LookupEntry
deriving DecidableEq, Repr

namespace Lookup

/-- The table with the given entries.  A later entry takes the place of an earlier one
with the same mnemonic. -/
def ofEntries (es : List LookupEntry) : Lookup :=
  { entries := Arrival.ofList LookupEntry.mnemonic es }

def size (t : Lookup) : Nat :=
  t.entries.length

def mnemonics (t : Lookup) : List String :=
  t.entries.map LookupEntry.mnemonic

/-- Sums start at the built-in zero, whatever else is imported. -/
local instance (priority := high) natZero : Zero Nat :=
  Zero.ofOfNat0

def variantCount (t : Lookup) : Nat :=
  (t.entries.map LookupEntry.count).sum

/-- The entry of a mnemonic, which is put into lower case first. -/
def get? (t : Lookup) (mnemonic : String) : Option LookupEntry :=
  t.entries.find? fun e => e.mnemonic == Text.lower mnemonic

def contains (t : Lookup) (mnemonic : String) : Bool :=
  (t.get? mnemonic).isSome

/-- A mnemonic that was asked for, in lower case, and has no entry. -/
structure Missing where
  mnemonic : String
deriving DecidableEq, Repr

def get (t : Lookup) (mnemonic : String) : Except Missing LookupEntry :=
  match t.get? mnemonic with
  | some e => .ok e
  | none => .error { mnemonic := Text.lower mnemonic }

/-- The entries one by one, each asked for by its mnemonic. -/
def values (t : Lookup) : Except Missing (List LookupEntry) :=
  t.mnemonics.mapM t.get

def summary (t : Lookup) : String :=
  s!"LookupTable({t.size} mnemonics, {t.variantCount} variants)"

/-! ## Building -/

structure Failure where
  mnemonic : String
  instruction : Instruction
  fault : BuildFault
deriving DecidableEq, Repr

def resolveMember (resolve : Instruction → Except BuildFault Variant) (mnemonic : String)
    (i : Instruction) : Except Failure Variant :=
  match resolve i with
  | .ok v => .ok v
  | .error fault => .error { mnemonic := mnemonic, instruction := i, fault := fault }

def resolveGroup (resolve : Instruction → Except BuildFault Variant) (g : Group) :
    Except Failure LookupEntry := do
  let variants ← g.members.mapM (resolveMember resolve g.mnemonic)
  return { mnemonic := g.mnemonic, variants := variants }

def ofGroups (resolve : Instruction → Except BuildFault Variant) (groups : List Group) :
    Except Failure Lookup := do
  let entries ← groups.mapM (resolveGroup resolve)
  return ofEntries entries

end Lookup
end AssemblerTables
