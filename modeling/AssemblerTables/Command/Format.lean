/-
What the command line can write about the tables.
-/
import AssemblerTables.Text.Case

namespace AssemblerTables
namespace Command

inductive Format where
  | c
  | listing
  | summary
deriving DecidableEq, Repr

namespace Format

def all : List Format :=
  [c, listing, summary]

def name : Format → String
  | c => "c"
  | listing => "listing"
  | summary => "summary"

/-- The letters that a character stands for where case does not count, as far as format
names have them: the long `s` and its ligatures with `t` are the letters that they
are made of. -/
def foldChar (c : Char) : List Char :=
  if c = 'ſ' then ['s']
  else if c = 'ﬅ' ∨ c = 'ﬆ' then ['s', 't']
  else [c.toLower]

def fold (s : List Char) : List Char :=
  s.flatMap foldChar

def ofName? (s : String) : Option Format :=
  all.find? fun f => f.name.toList == fold s.toList

end Format
end Command
end AssemblerTables
