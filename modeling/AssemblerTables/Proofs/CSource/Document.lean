/-
What the generated source says.

A document has what a compiler would find in the source: the defines, the enumerators
and their counts, the strings, and the blocks of the look-up table with their variants.
`read?` takes a text apart into a document by its C syntax alone.  It knows the stem of
the names, it does not know the tables, and it believes no count: items are read up to
the brace that closes their list.
-/
import AssemblerTables.CSource
import AssemblerTables.Proofs.Text.Reading

namespace AssemblerTables
namespace CSource

open Text (Reading)
open Text.Reading

/-! ## Documents -/

/-- A variant in the source. -/
structure Initializer where
  argCount : Nat
  opcode : String
  wordCount : Nat
  /-- The names in `.arg_modes`, if it is there. -/
  tags : Option (List String)
deriving DecidableEq, Repr

structure Block where
  comment : String
  count : Nat
  lines : List Initializer
deriving DecidableEq, Repr

/-- The enumerators, and the two counts that stand with them. -/
structure Enumeration where
  names : List String
  mnemonicCount : Nat
  keywordCount : Nat
deriving DecidableEq, Repr

/-- The array of blocks, with the size that it is declared with. -/
structure Table where
  size : Nat
  blocks : List Block
deriving DecidableEq, Repr

structure Document where
  /-- The names that are defined, with their values. -/
  defines : List (String × String)
  enumeration : Enumeration
  strings : List String
  table : Table
deriving DecidableEq, Repr

/-! ## Lists -/

/-- The items of a list with commas.  One more comma may stand behind the last. -/
def listed (body : String) : List String :=
  let items := (Text.pieces ',' body.toList).map fun item => String.ofList (Text.trim item)
  if items.getLast? = some "" then items.dropLast else items

/-- The text in quotes. -/
def unquote? (s : String) : Option String :=
  match s.toList with
  | '"' :: rest =>
    if rest.getLast? = some '"' then some (String.ofList rest.dropLast) else none
  | _ => none

/-! ## Reading a document -/

namespace Reader

def define : Reading (String × String) := do
  expect "#define "
  let name ← before ' '
  let value ← before '\n'
  return (name, String.ofList (Text.trim value.toList))

def enumeration (stem : String) : Reading Enumeration := do
  expect s!"typedef enum {stem}_iasm_keyw_id \x7b\n"
  expect "\t// Keyword tokens.\n"
  let body ← before '}'
  expect s!" {stem}_iasm_keyw_id_t;\n"
  expect "\n"
  expect s!"#define {Text.upper stem}_TKN_INSN_KEYWORDS "
  let mnemonicCount ← number
  expect "\n"
  expect s!"#define {Text.upper stem}_NUM_KEYW "
  let keywordCount ← number
  expect "\n"
  return { names := listed body, mnemonicCount := mnemonicCount, keywordCount := keywordCount }

def strings (stem : String) : Reading (List String) := do
  expect "// All keywords that occur.\n"
  expect s!"char *{stem}_iasm_keyw[] = \x7b\n"
  let body ← before '}'
  expect ";\n"
  StateT.lift ((listed body).mapM unquote?)

/-- The names in `.arg_modes`, or the end of an initialiser without them. -/
def tags : Reading (Option (List String)) :=
  (do
    expect "\x7d,\n"
    return none) <|>
  (do
    expect ", .arg_modes=\x7b"
    let body ← before '}'
    expect "\x7d,\n"
    return some (listed body))

def initializer : Reading Initializer := do
  expect "\t\t\t\x7b .n_args="
  let argCount ← number
  expect ", .opcode=0x"
  let opcode ← before ','
  expect " .n_words="
  let wordCount ← number
  let names ← tags
  return { argCount := argCount, opcode := opcode, wordCount := wordCount, tags := names }

def block (stem : String) : Reading Block := do
  expect "\t\x7b // "
  let comment ← before '\n'
  expect "\t\t.num = "
  let count ← number
  expect s!", .modes = ({stem}_iasm_mode_t[]) \x7b\n"
  let lines ← itemsUntil "\t\t\x7d\n" initializer
  expect "\t\x7d,\n"
  return { comment := comment, count := count, lines := lines }

def table (stem : String) : Reading Table := do
  expect "// Addressing modes belonging to instructions.\n"
  expect s!"{stem}_iasm_modes_t {stem}_insn_lut["
  let size ← number
  expect "] = \x7b\n"
  let blocks ← itemsUntil "\x7d;\n" (block stem)
  return { size := size, blocks := blocks }

def document (stem : String) : Reading Document := do
  expect "// Generated by isagen. Do not edit.\n"
  expect "\n"
  let defines ← itemsUntil "\n" define
  let enumeration ← enumeration stem
  expect "\n"
  let strings ← strings stem
  expect "\n"
  let table ← table stem
  return { defines := defines, enumeration := enumeration, strings := strings, table := table }

end Reader

/-- The document that a text is, with nothing before it and nothing left behind it. -/
def read? (stem text : String) : Option Document :=
  match Reader.document stem text.toList with
  | some (d, []) => some d
  | _ => none

/-! ## Documents of tables -/

/-- What the source says of a variant.  It does not say its pattern. -/
def Initializer.ofVariant (v : Variant) : Initializer :=
  { argCount := v.operandCount.toNat,
    opcode := Numeral.hex v.opcode,
    wordCount := v.wordCount.toNat,
    tags := if v.modes.isEmpty then none else some (v.modes.map Mode.tag) }

theorem Initializer.getD_tags (v : Variant) :
    (Initializer.ofVariant v).tags.getD [] = v.modes.map Mode.tag := by
  show (if v.modes.isEmpty then none else some (v.modes.map Mode.tag)).getD [] = _
  cases v.modes <;> rfl

def Block.ofEntry (e : LookupEntry) : Block :=
  { comment := e.mnemonic,
    count := e.count,
    lines := e.variants.map Initializer.ofVariant }

def Document.ofTables (s : Settings) (t : Tables) : Document :=
  { defines := Mode.all.map fun m => (m.tag, "0x" ++ Numeral.hex m.code),
    enumeration :=
      { names := t.keywords.identifiers s.keywordStart,
        mnemonicCount := t.keywords.mnemonicCount.toNat,
        keywordCount := t.keywords.size },
    strings := t.keywords.words,
    table := { size := t.lookup.size, blocks := t.lookup.entries.map Block.ofEntry } }

end CSource
end AssemblerTables
