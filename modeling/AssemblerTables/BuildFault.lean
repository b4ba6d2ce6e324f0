/-
Why tables cannot be built from a set of instructions.

A fault names the instruction by its pattern and says what is wrong with it.  Its
report has the parts that a message shows, and one function lays them out.
-/

namespace AssemblerTables

/-- The parts of a message about one instruction. -/
structure FaultReport where
  description : String
  pattern : String
  mnemonic : Option String := none
  operand : Option String := none
  hint : Option String := none
deriving DecidableEq, Repr

namespace FaultReport

/-- The description, the pattern it is about, and the hint unless there is none or an
empty one. -/
def lines (r : FaultReport) : List String :=
  ["error: " ++ r.description, "  in: " ++ r.pattern] ++
    match r.hint with
    | some hint => if hint.isEmpty then [] else ["hint: " ++ hint]
    | none => []

def text (r : FaultReport) : String :=
  String.intercalate "\n" r.lines

end FaultReport

inductive BuildFault where
  /-- The pattern does not start with a word. -/
  | noMnemonic (pattern : String)
  /-- An operand is written in none of the known forms. -/
  | unknownForm (pattern mnemonic operand : String) (known : List String)
  /-- The number of operands, or of the values declared for them, is out of range. -/
  | arity (pattern mnemonic : String) (count : Int) (detail : String)
  /-- A value does not fill whole words. -/
  | width (pattern mnemonic : String) (bits : Int)
deriving DecidableEq, Repr

namespace BuildFault

def report : BuildFault → FaultReport
  | .noMnemonic pattern =>
    { description := "syntax string has no leading mnemonic",
      pattern := pattern,
      hint := some "instruction syntax must start with a word, e.g. 'NOP' or 'MOV A, X'" }
  | .unknownForm pattern mnemonic operand known =>
    { description := s!"'{mnemonic}' operand '{operand}' has no addressing mode",
      pattern := pattern,
      mnemonic := some mnemonic,
      operand := some operand,
      hint :=
        if known.isEmpty then none
        else some ("known operand forms: " ++ String.intercalate ", " known) }
  | .arity pattern mnemonic count detail =>
    { description :=
        s!"'{mnemonic}' has unsupported operand arity {count}" ++
          if detail.isEmpty then "" else s!" ({detail})",
      pattern := pattern,
      mnemonic := some mnemonic,
      hint := some "instructions take 0, 1 or 2 operands" }
  | .width pattern mnemonic bits =>
    { description :=
        s!"'{mnemonic}' operand width {bits} is not a positive multiple of 8 bits",
      pattern := pattern,
      mnemonic := some mnemonic }

def pattern (f : BuildFault) : String :=
  f.report.pattern

end BuildFault
end AssemblerTables
