/-
The names and the surface forms of modes.

A mode is found again by its name, so the name that it has in the generated source
tells it from all others.  These names have no marks in them.  An operand has a mode
only if it is the surface form of the mode to the letter, blanks around it aside.
-/
import AssemblerTables.Mode
import AssemblerTables.Proofs.Text.Marks

namespace AssemblerTables
namespace Mode

theorem mem_all (m : Mode) : m ∈ all := by
  cases m <;> decide

theorem ofName?_name (m : Mode) : ofName? m.name = some m := by
  cases m <;> decide

theorem name_injective {m n : Mode} (h : m.name = n.name) : m = n := by
  have hsame : some m = some n := by rw [← ofName?_name m, h, ofName?_name]
  exact Option.some.inj hsame

theorem toList_tag (m : Mode) : m.tag.toList = 'A' :: '_' :: m.name.toList := by
  rw [tag, String.toList_append]
  rfl

theorem tag_injective {m n : Mode} (h : m.tag = n.tag) : m = n := by
  have hlists : m.tag.toList = n.tag.toList := congrArg String.toList h
  rw [toList_tag, toList_tag, List.cons.injEq, List.cons.injEq] at hlists
  exact name_injective (String.toList_inj.mp hlists.2.2)

theorem tag_ne_empty (m : Mode) : m.tag ≠ "" := by
  intro h
  have hlists : m.tag.toList = [] := by rw [h]; rfl
  rw [toList_tag] at hlists
  cases hlists

theorem unmarked_tag (m : Mode) : Text.Unmarked m.tag.toList := by
  cases m <;> decide

/-! ## Operands -/

theorem resolve_eq_ok {pattern m operand : String} {mode : Mode} :
    resolve pattern m operand = .ok mode ↔ ofOperand? operand = some mode := by
  rw [resolve]
  cases ofOperand? operand with
  | none => simp
  | some found => simp

theorem mem_bySurface (m : Mode) : m ∈ bySurface := by
  cases m <;> decide

theorem trim_surface (m : Mode) : Text.trim m.surface.toList = m.surface.toList := by
  cases m <;> decide

theorem ofOperand?_surface (m : Mode) : ofOperand? m.surface = some m := by
  cases m <;> decide

theorem mem_surfaceForms {s : String} : s ∈ surfaceForms ↔ ∃ m, Mode.surface m = s := by
  rw [surfaceForms, List.mem_map]
  exact ⟨fun ⟨m, _, hm⟩ => ⟨m, hm⟩, fun ⟨m, hm⟩ => ⟨m, mem_bySurface m, hm⟩⟩

/-- An operand without blanks around it is the surface form of its mode. -/
theorem surface_of_ofOperand? {operand : String} {mode : Mode}
    (htrim : Text.trim operand.toList = operand.toList) (h : ofOperand? operand = some mode) :
    mode.surface = operand := by
  have hfound := List.find?_some h
  rw [htrim, beq_iff_eq] at hfound
  exact String.toList_inj.mp hfound

theorem resolve_surface (pattern mnemonic : String) (m : Mode) :
    resolve pattern mnemonic m.surface = .ok m :=
  resolve_eq_ok.mpr (ofOperand?_surface m)

/-- An operand that is no surface form is told of as it stands. -/
theorem resolve_of_not_mem {operand : String}
    (htrim : Text.trim operand.toList = operand.toList) (h : operand ∉ surfaceForms)
    (pattern mnemonic : String) :
    resolve pattern mnemonic operand =
      .error (.unknownForm pattern mnemonic operand surfaceForms) := by
  cases hmode : ofOperand? operand with
  | some m => exact absurd (mem_surfaceForms.mpr ⟨m, surface_of_ofOperand? htrim hmode⟩) h
  | none => simp only [resolve, hmode, htrim, String.ofList_toList]

end Mode
end AssemblerTables
