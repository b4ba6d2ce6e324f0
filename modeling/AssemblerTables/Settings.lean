/-
Settings of the generated source.

They change names and layout and never the tables.  Each can be left at its
default, come from the environment, or be changed field by field; a change that
leads to unusable settings is refused as a whole.
-/
import AssemblerTables.Number.Numeral
import AssemblerTables.Text.Case
import AssemblerTables.Text.Quoted
import AssemblerTables.Text.Word

namespace AssemblerTables

structure Settings where
  /-- What the names of the generated source start with. -/
  stem : String := "r3"
  /-- What the identifiers of keywords start with, if not the stem in upper case. -/
  keywordStem : Option String := none
  keywordsPerRow : Nat := 4
  indent : String := "\t"
deriving DecidableEq, Repr

inductive SettingsFault where
  | stem (s : String)
  | rowWidth
  | rowNumeral (s : String)
deriving DecidableEq, Repr

def SettingsFault.text : SettingsFault → String
  | .stem s => s!"prefix must be a C identifier, got {Text.quoted s}"
  | .rowWidth => "keywords_per_row must be at least 1"
  | .rowNumeral s => s!"ISAGEN_KEYWORDS_PER_ROW must be an integer, got {Text.quoted s}"

namespace Settings

/-! ## Stems -/

def isInitial (c : Char) : Bool :=
  c.isAlpha || c = '_'

/-- Word characters, and after them nothing or one line feed. -/
def isTail (s : List Char) : Bool :=
  match s.dropWhile Text.isWord with
  | [] => true
  | rest => rest = ['\n']

/-- A stem starts like a name and goes on with word characters of any script.  One line
feed at its end is let through. -/
def isStem (s : String) : Bool :=
  match s.toList with
  | [] => false
  | c :: rest => isInitial c && isTail rest

/-! ## Making and changing -/

def ofFields (stem : String) (keywordStem : Option String) (keywordsPerRow : Int)
    (indent : String) : Except SettingsFault Settings :=
  if !isStem stem then .error (.stem stem)
  else if keywordsPerRow < 1 then .error .rowWidth
  else
    .ok
      { stem := stem,
        keywordStem := keywordStem,
        keywordsPerRow := keywordsPerRow.toNat,
        indent := indent }

/-- Fields to change.  A field that is left out stays. -/
structure Changes where
  stem : Option String := none
  keywordStem : Option String := none
  keywordsPerRow : Option Int := none
  indent : Option String := none
deriving DecidableEq, Repr

/-- Changed settings.  The identifiers of keywords can be given another start, but not
be tied to the stem again. -/
def update (s : Settings) (c : Changes) : Except SettingsFault Settings :=
  ofFields (c.stem.getD s.stem) (c.keywordStem <|> s.keywordStem)
    (c.keywordsPerRow.getD s.keywordsPerRow) (c.indent.getD s.indent)

/-! ## The environment -/

abbrev Environment : Type := List (String × String)

/-- The value of a variable.  An empty value counts as none. -/
def valueOf? (env : Environment) (name : String) : Option String :=
  (env.lookup name).filter fun v => !v.isEmpty

/-- The changes that the environment asks for.  The numeral is read before anything is
checked. -/
def changesOf (env : Environment) : Except SettingsFault Changes :=
  let stem := valueOf? env "ISAGEN_PREFIX"
  match valueOf? env "ISAGEN_KEYWORDS_PER_ROW" with
  | none => .ok { stem := stem }
  | some s =>
    match Numeral.read? .decimal s with
    | some n => .ok { stem := stem, keywordsPerRow := some n }
    | none => .error (.rowNumeral s)

def ofEnvironment (env : Environment) : Except SettingsFault Settings := do
  let changes ← changesOf env
  update {} changes

/-! ## Names -/

def keywordStart (s : Settings) : String :=
  s.keywordStem.getD (Text.upper s.stem ++ "_KEYW_")

end Settings
end AssemblerTables
