/-
Variants: instructions with their operands resolved to addressing modes.

`resolve` checks an instruction in a fixed order and reports the first fault: the
mnemonic, the number of operands, the number of declared values, the operands
from left to right, and last the width of the value.
-/
import AssemblerTables.Instruction
import AssemblerTables.Mode
import AssemblerTables.Pattern

namespace AssemblerTables

structure Variant where
  opcode : Int
  operandCount : Int
  wordCount : Int
  modes : List Mode
  pattern : String
deriving DecidableEq, Repr

namespace Variant

/-- The words of the whole instruction, the opcode among them. -/
def size (v : Variant) : Int :=
  1 + v.wordCount

def summary (v : Variant) : String :=
  let modes := String.intercalate ", " (v.modes.map Mode.name)
  s!"ResolvedVariant(opcode=${Numeral.hex v.opcode}, operands={v.operandCount}, " ++
    s!"words={v.wordCount}, modes=[{modes}])"

/-! ## Resolving -/

def maxOperands : Nat := 2

def wordBits : Int := 8

/-- The words of an instruction's value.  Only an instruction with a single value has
any: with two, their words are left to whoever writes the operands. -/
def wordsOf (mnemonic : String) (i : Instruction) : Except BuildFault Int :=
  match i.widths with
  | [bits] =>
    if bits ≤ 0 ∨ bits % wordBits ≠ 0 then .error (.width i.pattern mnemonic bits)
    else .ok (bits / wordBits)
  | _ => .ok 0

def modesOf (pattern mnemonic : String) : List String → Except BuildFault (List Mode)
  | [] => .ok []
  | operand :: rest => do
    let m ← Mode.resolve pattern mnemonic operand
    let ms ← modesOf pattern mnemonic rest
    return m :: ms

/-- Are there too many operands or too many values?  Each value belongs to an operand
of its own. -/
def checkArity (mnemonic : String) (i : Instruction) (operands : Nat) : Except BuildFault Unit :=
  let values := i.widths.length
  if maxOperands < operands then .error (.arity i.pattern mnemonic operands "")
  else if maxOperands < values then .error (.arity i.pattern mnemonic values "declared args")
  else if operands < values then
    .error (.arity i.pattern mnemonic values
      s!"{values} args declared for {operands} operands")
  else .ok ()

def resolve (i : Instruction) : Except BuildFault Variant :=
  match Pattern.split? i.pattern with
  | none => .error (.noMnemonic i.pattern)
  | some (mnemonic, text) => do
    let operands := Pattern.operands text
    checkArity mnemonic i operands.length
    let modes ← modesOf i.pattern mnemonic operands
    let words ← wordsOf mnemonic i
    return {
      opcode := i.opcode,
      operandCount := operands.length,
      wordCount := words,
      modes := modes,
      pattern := i.pattern }

end Variant
end AssemblerTables
