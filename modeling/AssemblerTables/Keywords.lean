/-
The keyword table: every word of an instruction set once, mnemonics first.

The place of a keyword in the table is its token in the generated assembler, so
the order matters: the mnemonics in the order in which they first appear, then the
other words of the patterns in the order in which they first appear.  A word that
is both stands with the mnemonics.
-/
import AssemblerTables.BuildFault
import AssemblerTables.Instruction
import AssemblerTables.Pattern

namespace AssemblerTables

def Instruction.mnemonic (i : Instruction) : Except BuildFault String :=
  match Pattern.mnemonic? i.pattern with
  | some m => .ok m
  | none => .error (.noMnemonic i.pattern)

structure Keywords where
  words : List String
  /-- How many of the words, from the first, are mnemonics. -/
  mnemonicCount : Int
deriving DecidableEq, Repr

namespace Keywords

/-- The table of an instruction set, unless one of its patterns has no mnemonic. -/
def ofInstructions (is : List Instruction) : Except BuildFault Keywords := do
  let roots ← is.mapM Instruction.mnemonic
  let mnemonics := roots.eraseDups
  let words := is.flatMap fun i => Pattern.words i.pattern
  return { words := (mnemonics ++ words).eraseDups, mnemonicCount := mnemonics.length }

def size (k : Keywords) : Nat :=
  k.words.length

/-! ## Places

A place is counted from the start of the table, or from its end by a negative
number.  The ends of a span may lie outside the table and are brought back to it. -/

/-- The end of a span as a number of words from the start. -/
def bound (k : Keywords) (place : Int) : Nat :=
  if place < 0 then (place + k.size).toNat else min place.toNat k.size

/-- The words from one place up to another; without an end the span is open there. -/
def span (k : Keywords) (first last : Option Int) : List String :=
  let low := (first.map k.bound).getD 0
  let high := (last.map k.bound).getD k.size
  (k.words.take high).drop low

def get? (k : Keywords) (place : Int) : Option String :=
  let i := if place < 0 then place + k.size else place
  if i < 0 then none else k.words[i.toNat]?

/-- The place of a word from `first` on and before `last`, if it is there. -/
def index? (k : Keywords) (word : String) (first : Int) (last : Option Int) : Option Nat :=
  let low := if first < 0 then (first + k.size).toNat else first.toNat
  let high : Nat :=
    match last with
    | none => k.size
    | some l => if l < 0 then (l + k.size).toNat else l.toNat
  ((k.words.take high).drop low).idxOf? word |>.map (· + low)

def count (k : Keywords) (word : String) : Nat :=
  k.words.count word

def contains (k : Keywords) (word : String) : Bool :=
  k.words.contains word

/-! ## Mnemonics and identifiers -/

def mnemonics (k : Keywords) : List String :=
  k.span none (some k.mnemonicCount)

/-- Is the word, in lower case, one of the mnemonics? -/
def isMnemonic (k : Keywords) (word : String) : Bool :=
  k.mnemonics.contains (Text.lower word)

/-- What identifiers start with when nothing else is asked for. -/
def defaultStart : String := "KEYW_"

def identifiers (k : Keywords) (start : String) : List String :=
  k.words.map fun w => start ++ Text.upper w

end Keywords
end AssemblerTables
