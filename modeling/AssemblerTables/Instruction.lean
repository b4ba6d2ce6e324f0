/-
Instructions as a definition gives them: the pattern in which they are written,
the opcode, and the widths of the values that follow the opcode.
-/
import AssemblerTables.Number.Numeral
import AssemblerTables.Text.Quoted

namespace AssemblerTables

structure Instruction where
  pattern : String
  opcode : Int
  /-- The widths in bits of the values carried after the opcode, in order. -/
  widths : List Int
deriving DecidableEq, Repr

namespace Instruction

/-- The opcode as definitions write it: hexadecimal, in at least two places. -/
def hex (i : Instruction) : String :=
  Numeral.hex i.opcode

def summary (i : Instruction) : String :=
  s!"InstructionDef({Text.quoted i.pattern}, opcode=${i.hex}, args={i.widths.length})"

end Instruction
end AssemblerTables
