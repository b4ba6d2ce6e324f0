/-
The tables as C source.

The source has a define for the code of every addressing mode, the keywords as an
enumeration and as an array of strings in the same order, and the look-up table as
an array with one block for every mnemonic.  Equal tables give equal text.
-/
import AssemblerTables.Columns
import AssemblerTables.Settings
import AssemblerTables.Tables

namespace AssemblerTables
namespace CSource

/-! ## Modes -/

/-- The define of a mode, its code in a column of its own. -/
def modeDefine (m : Mode) : String :=
  "#define " ++ Text.padRight (Columns.width (Mode.all.map Mode.tag)) m.tag ++ "0x" ++
    Numeral.hex m.code

def modeDefines : String :=
  Text.unlines (Mode.all.map modeDefine)

/-! ## Keywords -/

def keywordArray (s : Settings) (k : Keywords) : String :=
  let items := k.words.map fun w => "\"" ++ w ++ "\","
  Text.unlines
    (["// All keywords that occur.", s!"char *{s.stem}_iasm_keyw[] = \x7b"] ++
      Columns.lines items s.keywordsPerRow s.indent ++ ["\x7d;"])

/-- The enumeration of the keywords, and how many of them are mnemonics and how many
there are. -/
def keywordEnum (s : Settings) (k : Keywords) : String :=
  let items := (k.identifiers s.keywordStart).map (· ++ ",")
  let upper := Text.upper s.stem
  Text.unlines
    ([s!"typedef enum {s.stem}_iasm_keyw_id \x7b", s.indent ++ "// Keyword tokens."] ++
      Columns.lines items s.keywordsPerRow s.indent ++
      [s!"\x7d {s.stem}_iasm_keyw_id_t;",
        "",
        s!"#define {upper}_TKN_INSN_KEYWORDS {k.mnemonicCount}",
        s!"#define {upper}_NUM_KEYW {k.size}"])

/-! ## Look-up table -/

/-- A variant as an initialiser.  One without operands names no modes. -/
def variantLine (v : Variant) : String :=
  let modes :=
    if v.modes.isEmpty then ""
    else
      ", .arg_modes=\x7b" ++ String.intercalate ", " (v.modes.map Mode.tag) ++ "\x7d"
  "\x7b " ++ s!".n_args={v.operandCount}, .opcode=0x{Numeral.hex v.opcode}, " ++
    s!".n_words={v.wordCount}" ++ modes ++ "\x7d,"

def indentOf (s : Settings) (depth : Nat) : String :=
  String.join (List.replicate depth s.indent)

def block (s : Settings) (e : LookupEntry) : List String :=
  [indentOf s 1 ++ "\x7b // " ++ e.mnemonic,
    indentOf s 2 ++ s!".num = {e.count}, .modes = ({s.stem}_iasm_mode_t[]) \x7b"] ++
  e.variants.map (fun v => indentOf s 3 ++ variantLine v) ++
  [indentOf s 2 ++ "\x7d", indentOf s 1 ++ "\x7d,"]

/-- The array of the look-up table.  The entries are asked for one by one, so a table
with an entry that is not found has no source. -/
def lookupTable (s : Settings) (t : Lookup) : Except Lookup.Missing String := do
  let entries ← t.values
  return Text.unlines
    (["// Addressing modes belonging to instructions.",
        s!"{s.stem}_iasm_modes_t {s.stem}_insn_lut[{t.size}] = \x7b"] ++
      entries.flatMap (block s) ++ ["\x7d;"])

/-! ## All of it -/

def heading : String := "// Generated by isagen. Do not edit.\n"

def source (s : Settings) (t : Tables) : Except Lookup.Missing String := do
  let table ← lookupTable s t.lookup
  return String.intercalate "\n"
    [heading, modeDefines, keywordEnum s t.keywords, keywordArray s t.keywords, table]

end CSource
end AssemblerTables
