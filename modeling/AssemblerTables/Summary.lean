/-
The summary of the tables: totals, and a line for every mnemonic with its place,
its number of variants and the modes that they use.
-/
import AssemblerTables.Tables
import AssemblerTables.Text.Padded

namespace AssemblerTables
namespace Summary

/-- The names of the modes that any variant of the entry uses, each once, by increasing
name. -/
def modeNames (e : LookupEntry) : List String :=
  (Mode.byName.filter fun m => e.variants.any fun v => v.modes.contains m).map Mode.name

def modesText (e : LookupEntry) : String :=
  let names := modeNames e
  if names.isEmpty then "-" else String.intercalate ", " names

def entryLine (place : Nat) (e : LookupEntry) : String :=
  s!"  {Text.padLeft 3 (toString place)}  {Text.padRight 6 e.mnemonic} " ++
    s!"{Text.padLeft 3 (toString e.count)}  {modesText e}"

/-- The lines of entries that stand in the table from `place` on. -/
def entryLines (place : Nat) : List LookupEntry → List String
  | [] => []
  | e :: rest => entryLine place e :: entryLines (place + 1) rest

def totals (t : Tables) : List String :=
  [s!"Instructions: {t.instructions.length}",
    s!"Keywords:     {t.keywords.size} ({t.keywords.mnemonicCount} mnemonics)",
    s!"Lookup:       {t.lookup.size} entries, {t.lookup.variantCount} variants",
    ""]

def text (t : Tables) : Except Lookup.Missing String := do
  let entries ← t.lookup.values
  return Text.unlines (totals t ++ entryLines 0 entries)

end Summary
end AssemblerTables
