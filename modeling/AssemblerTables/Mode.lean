/-
Addressing modes: what an operand of an instruction refers to.

The set is closed.  Each mode has one code, by which the generated assembler
compares operands, and one surface form, by which patterns write it.  In the
codes the low digit tells the index registers and the high digit the kind of
access; the registers that index nothing have codes of their own at the top.
-/
import AssemblerTables.BuildFault
import AssemblerTables.Text.Blank

namespace AssemblerTables

inductive Mode where
  | imm
  | regA
  | regX
  | regY
  | mem
  | memX
  | memY
  | ptr
  | ptrX
  | ptrY
  | ptrXY
  | regF
  | regStl
  | regSth
deriving DecidableEq, Repr

namespace Mode

def all : List Mode :=
  [imm, regA, regX, regY, mem, memX, memY, ptr, ptrX, ptrY, ptrXY, regF, regStl, regSth]

def code : Mode → Nat
  | imm => 0x00
  | regA => 0x01
  | regX => 0x02
  | regY => 0x04
  | mem => 0x10
  | memX => 0x12
  | memY => 0x14
  | ptr => 0x20
  | ptrX => 0x22
  | ptrY => 0x24
  | ptrXY => 0x26
  | regF => 0xF1
  | regStl => 0xF2
  | regSth => 0xF3

def register? : Mode → Option String
  | regA => some "A"
  | regX => some "X"
  | regY => some "Y"
  | regF => some "F"
  | regStl => some "STL"
  | regSth => some "STH"
  | _ => none

def isRegister (m : Mode) : Bool :=
  m.register?.isSome

def name : Mode → String
  | imm => "IMM"
  | regA => "REG_A"
  | regX => "REG_X"
  | regY => "REG_Y"
  | mem => "MEM"
  | memX => "MEM_X"
  | memY => "MEM_Y"
  | ptr => "PTR"
  | ptrX => "PTR_X"
  | ptrY => "PTR_Y"
  | ptrXY => "PTR_XY"
  | regF => "REG_F"
  | regStl => "REG_STL"
  | regSth => "REG_STH"

/-- The name that generated source has for the mode. -/
def tag (m : Mode) : String :=
  "A_" ++ m.name

def surface : Mode → String
  | imm => "%"
  | regA => "A"
  | regX => "X"
  | regY => "Y"
  | mem => "[%]"
  | memX => "X[%]"
  | memY => "Y[%]"
  | ptr => "(%)"
  | ptrX => "X(%)"
  | ptrY => "(%)Y"
  | ptrXY => "X(%)Y"
  | regF => "F"
  | regStl => "STL"
  | regSth => "STH"

def describe : Mode → String
  | imm => "immediate"
  | regA => "register A"
  | regX => "register X"
  | regY => "register Y"
  | mem => "memory"
  | memX => "memory indexed by X"
  | memY => "memory indexed by Y"
  | ptr => "pointer"
  | ptrX => "pointer indexed by X"
  | ptrY => "pointer indexed by Y"
  | ptrXY => "pointer indexed by X and Y"
  | regF => "register F"
  | regStl => "register STL"
  | regSth => "register STH"

/-- The modes in the order in which hints list their surface forms: registers, values,
memory, pointers. -/
def bySurface : List Mode :=
  [regA, regX, regY, regF, regStl, regSth, imm, mem, memX, memY, ptr, ptrX, ptrY, ptrXY]

def byName : List Mode :=
  [imm, mem, memX, memY, ptr, ptrX, ptrXY, ptrY, regA, regF, regSth, regStl, regX, regY]

def surfaceForms : List String :=
  bySurface.map surface

def ofName? (s : String) : Option Mode :=
  all.find? fun m => m.name == s

def ofCode? (n : Int) : Option Mode :=
  all.find? fun m => (m.code : Int) == n

/-- The mode that an operand is written in.  Blanks around the operand do not count,
and all else has to be the surface form to the letter. -/
def ofOperand? (operand : String) : Option Mode :=
  bySurface.find? fun m => m.surface.toList == Text.trim operand.toList

/-- The mode of an operand, or the fault that the instruction has without one. -/
def resolve (pattern mnemonic operand : String) : Except BuildFault Mode :=
  match ofOperand? operand with
  | some m => .ok m
  | none =>
    .error (.unknownForm pattern mnemonic (String.ofList (Text.trim operand.toList)) surfaceForms)

end Mode
end AssemblerTables
