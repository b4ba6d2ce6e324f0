/-
A pattern split at the end of its mnemonic, with the fault of a pattern that has none.
-/
import AssemblerTables.BuildFault
import AssemblerTables.Pattern

namespace AssemblerTables
namespace Pattern

/-- The mnemonic and the text of the operands. -/
def split (pattern : String) : Except BuildFault (String × String) :=
  match split? pattern with
  | some parts => .ok parts
  | none => .error (.noMnemonic pattern)

def mnemonic (pattern : String) : Except BuildFault String := do
  let (m, _) ← split pattern
  return m

end Pattern
end AssemblerTables
