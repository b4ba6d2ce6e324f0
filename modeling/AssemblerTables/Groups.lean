/-
Instructions grouped by mnemonic.

A group holds the variants of one instruction, such as all the ways to write
`mov`.  Groups stand in the order of their first members, and members in the order
in which they are defined.
-/
import AssemblerTables.Keywords

namespace AssemblerTables

structure Group where
  mnemonic : String
  members : List Instruction
deriving DecidableEq, Repr

namespace Groups

/-- Adds an instruction to the group of its mnemonic, or after the other groups in one
of its own. -/
def add (mnemonic : String) (i : Instruction) : List Group → List Group
  | [] => [{ mnemonic := mnemonic, members := [i] }]
  | g :: rest =>
    if g.mnemonic = mnemonic then { g with members := g.members ++ [i] } :: rest
    else g :: add mnemonic i rest

def addAll : List Group → List Instruction → Except BuildFault (List Group)
  | groups, [] => .ok groups
  | groups, i :: rest => do
    let mnemonic ← i.mnemonic
    addAll (add mnemonic i groups) rest

/-- The groups of an instruction set, unless one of its patterns has no mnemonic. -/
def ofInstructions (is : List Instruction) : Except BuildFault (List Group) :=
  addAll [] is

end Groups
end AssemblerTables
