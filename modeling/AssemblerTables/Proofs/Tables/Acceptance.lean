/-
Which instruction sets are accepted, and which fault is told of the others.

Two passes look for faults, in different orders and for different things.  The first goes
through the operand forms in the order of definition and asks neither how many operands
there are nor how wide the values are.  The second resolves group by group and asks for
the number of operands before it looks at any of them.  So an instruction whose form is
unknown is told of before one that stands earlier and has a fault of another kind, and
without such an instruction the order of the groups decides.
-/
import AssemblerTables.Proofs.Tables
import AssemblerTables.Proofs.Variant.Stages

namespace AssemblerTables

/-! ## Operand forms -/

namespace Instruction

/-- Does the pattern not start with a word, or has it an operand in none of the known
forms?  The number of operands does not count. -/
def IsUnformed (i : Instruction) : Prop :=
  Pattern.split? i.pattern = none ∨
    ∃ m text, Pattern.split? i.pattern = some (m, text) ∧
      ∃ operand ∈ Pattern.operands text, Mode.ofOperand? operand = none

/-- The fault in the form of an instruction: the missing mnemonic, or else the leftmost
operand in none of the known forms. -/
inductive FormFault (i : Instruction) : BuildFault → Prop
  | noMnemonic (h : Pattern.split? i.pattern = none) : FormFault i (.noMnemonic i.pattern)
  | unknownForm {m text operand : String} {before after : List String}
      (hsplit : Pattern.split? i.pattern = some (m, text))
      (hoperands : Pattern.operands text = before ++ operand :: after)
      (hbefore : ∀ o ∈ before, ∃ mode, Mode.ofOperand? o = some mode)
      (hoperand : Mode.ofOperand? operand = none) :
      FormFault i (.unknownForm i.pattern m operand Mode.surfaceForms)

theorem FormFault.isUnformed {i : Instruction} {e : BuildFault} (h : FormFault i e) :
    i.IsUnformed := by
  cases h with
  | noMnemonic h => exact .inl h
  | unknownForm hsplit hoperands hbefore hoperand =>
      refine .inr ⟨_, _, hsplit, _, ?_, hoperand⟩
      rw [hoperands]
      exact List.mem_append_right _ List.mem_cons_self

theorem FormFault.pattern_eq {i : Instruction} {e : BuildFault} (h : FormFault i e) :
    e.pattern = i.pattern := by
  cases h with
  | noMnemonic h => rfl
  | unknownForm hsplit hoperands hbefore hoperand => rfl

end Instruction

namespace Variant

/-- Faults of modes are those of the leftmost operand without one. -/
theorem formFault_of_modesOf {i : Instruction} {m text : String} {e : BuildFault}
    (hsplit : Pattern.split? i.pattern = some (m, text))
    (h : modesOf i.pattern m (Pattern.operands text) = .error e) : i.FormFault e := by
  rw [modesOf_eq_mapM] at h
  obtain ⟨operand, hfirst⟩ := Result.exists_failsFirst h
  have htrim := Pattern.trim_operand hfirst.mem
  obtain ⟨before, after, hoperands, hbefore, hoperand⟩ := hfirst
  rw [Mode.resolve, htrim, String.ofList_toList] at hoperand
  cases hmode : Mode.ofOperand? operand with
  | some mode =>
      rw [hmode] at hoperand
      cases hoperand
  | none =>
      rw [hmode] at hoperand
      cases hoperand
      refine .unknownForm hsplit hoperands (fun o ho => ?_) hmode
      exact (hbefore o ho).imp fun _ => Mode.resolve_eq_ok.mp

end Variant

/-! ## Numbers -/

/-- The fault in the numbers of an instruction: how many operands or values it has, or how
wide its value is. -/
def Instruction.NumberFault (i : Instruction) (e : BuildFault) : Prop :=
  ∃ m, (∃ count detail, e = .arity i.pattern m count detail) ∨ ∃ bits, e = .width i.pattern m bits

theorem Instruction.NumberFault.pattern_eq {i : Instruction} {e : BuildFault}
    (h : i.NumberFault e) : e.pattern = i.pattern := by
  obtain ⟨m, ⟨count, detail, rfl⟩ | ⟨bits, rfl⟩⟩ := h
  · rfl
  · rfl

/-- What is wrong with an instruction whose operands all have modes are its numbers. -/
theorem Variant.numberFault_of_resolve {i : Instruction} {e : BuildFault}
    (hform : ¬ i.IsUnformed) (h : resolve i = .error e) : i.NumberFault e := by
  rw [resolve] at h
  cases hsplit : Pattern.split? i.pattern with
  | none => exact absurd (.inl hsplit) hform
  | some s =>
      obtain ⟨m, text⟩ := s
      rw [hsplit] at h
      rcases Result.bind_eq_error.mp h with harity | ⟨_, -, h⟩
      · rcases checkArity_eq_error.mp harity with ⟨-, rfl⟩ | ⟨-, -, rfl⟩
        · exact ⟨m, .inl ⟨_, _, rfl⟩⟩
        · exact ⟨m, .inl ⟨_, _, rfl⟩⟩
      rcases Result.bind_eq_error.mp h with hmodes | ⟨modes, -, h⟩
      · exact absurd (formFault_of_modesOf hsplit hmodes).isUnformed hform
      rcases Result.bind_eq_error.mp h with hwords | ⟨words, -, h⟩
      · obtain ⟨bits, -, -, rfl⟩ := wordsOf_eq_error.mp hwords
        exact ⟨m, .inr ⟨bits, rfl⟩⟩
      · cases h

/-! ## The two passes -/

namespace Tables

theorem checkForms_of_split {i : Instruction} {m text : String}
    (h : Pattern.split? i.pattern = some (m, text)) :
    checkForms i = discard (Variant.modesOf i.pattern m (Pattern.operands text)) := by
  rw [checkForms, h]

theorem formFault_of_checkForms {i : Instruction} {e : BuildFault}
    (h : checkForms i = .error e) : i.FormFault e := by
  cases hsplit : Pattern.split? i.pattern with
  | none =>
      rw [checkForms, hsplit] at h
      cases h
      exact .noMnemonic hsplit
  | some s =>
      obtain ⟨m, text⟩ := s
      rw [checkForms_of_split hsplit, Result.discard_eq_error] at h
      exact Variant.formFault_of_modesOf hsplit h

/-- The first pass refuses exactly the unknown forms. -/
theorem checkForms_eq_ok {i : Instruction} : checkForms i = .ok () ↔ ¬ i.IsUnformed := by
  constructor
  · rintro h (hnone | ⟨m, text, hsplit, operand, hmem, hoperand⟩)
    · rw [checkForms, hnone] at h
      cases h
    · rw [checkForms_of_split hsplit, Variant.modesOf_eq_mapM] at h
      cases hmodes : (Pattern.operands text).mapM (Mode.resolve i.pattern m) with
      | error fault =>
          rw [hmodes] at h
          cases h
      | ok modes =>
          obtain ⟨mode, hmode⟩ := Result.exists_of_mapM hmodes operand hmem
          rw [Mode.resolve_eq_ok, hoperand] at hmode
          cases hmode
  · intro h
    cases hcheck : checkForms i with
    | ok u => rfl
    | error e => exact absurd (formFault_of_checkForms hcheck).isUnformed h

/-- An instruction in an unknown form is never resolved, whatever else is wrong with it. -/
theorem exists_error_of_isUnformed {i : Instruction} (h : i.IsUnformed) :
    ∃ e, Variant.resolve i = .error e :=
  Result.exists_error fun ⟨_, hv⟩ => checkForms_eq_ok.mp (checkForms_of_resolve hv) h

theorem exists_failsFirst_of_validate {is : List Instruction} {e : BuildFault}
    (h : validate is = .error e) : ∃ i, Result.FailsFirst checkForms is i e := by
  rw [validate, Result.forM_eq_discard, Result.discard_eq_error] at h
  exact Result.exists_failsFirst h

/-- With an unknown form among the instructions the first pass has the fault. -/
theorem validate_of_build {is : List Instruction} {e : BuildFault}
    (hform : ¬ ∀ i ∈ is, ¬ i.IsUnformed) (h : build is = .error e) : validate is = .error e := by
  cases hvalidate : validate is with
  | ok u =>
      exact absurd (fun i hi => checkForms_eq_ok.mp (validate_eq_ok.mp hvalidate i hi)) hform
  | error fault =>
      rw [build, hvalidate] at h
      exact congrArg Except.error (Except.error.inj h)

/-- Instructions that are all in known forms have groups, and a fault is then that of the
first one in the order of the groups that cannot be resolved. -/
theorem exists_failsFirst_of_build {is : List Instruction} {e : BuildFault}
    (hform : ∀ i ∈ is, ¬ i.IsUnformed) (h : build is = .error e) :
    ∃ i, Result.FailsFirst Variant.resolve ((Groups.partition is).flatMap Group.members) i e := by
  have hvalid : ∀ i ∈ is, checkForms i = .ok () := fun i hi => checkForms_eq_ok.mpr (hform i hi)
  have hroot : ∀ i ∈ is, ∃ m, i.root? = some m := fun i hi => root?_of_checkForms (hvalid i hi)
  rw [build, validate_eq_ok.mpr hvalid, Keywords.ofInstructions_eq hroot,
    Groups.ofInstructions_eq hroot] at h
  change (do
    let lookup ← (Lookup.ofGroups Variant.resolve (Groups.partition is)).mapError
      Lookup.Failure.fault
    return { ofAccepted is with lookup := lookup }) = Except.error e at h
  rcases Result.bind_eq_error.mp h with hlookup | ⟨lookup, -, h⟩
  · obtain ⟨failure, hfailure, rfl⟩ := Result.mapError_eq_error.mp hlookup
    exact Lookup.exists_failsFirst_of_ofGroups hfailure
  · cases h

/-- Tables are built exactly if every instruction can be resolved.  Otherwise, if any
instruction is in an unknown form, the fault told is in the form of the earliest one, also
where an instruction before it cannot be resolved for its numbers.  If none is, the fault is
the one in the numbers of the first instruction that cannot be resolved, group by group.
In both cases it is told of an instruction that cannot be resolved. -/
theorem acceptance_and_faults (is : List Instruction) :
    ((∃ t, build is = .ok t) ↔ ∀ i ∈ is, ∃ v, Variant.resolve i = .ok v) ∧
      ∀ e, build is = .error e →
        ((∃ i ∈ is, i.IsUnformed) →
          ∃ before i after, is = before ++ i :: after ∧ (∀ j ∈ before, ¬ j.IsUnformed) ∧
            i.FormFault e) ∧
        ((∀ i ∈ is, ¬ i.IsUnformed) →
          Groups.ofInstructions is = .ok (Groups.partition is) ∧
            ∃ i, Result.FailsFirst Variant.resolve
              ((Groups.partition is).flatMap Group.members) i e ∧ i.NumberFault e) ∧
        ∃ i ∈ is, e.pattern = i.pattern ∧ ∃ fault, Variant.resolve i = .error fault := by
  refine ⟨⟨fun ⟨t, ht⟩ => (build_eq_ok.mp ht).1, fun h => ⟨_, build_eq_ok.mpr ⟨h, rfl⟩⟩⟩, ?_⟩
  intro e he
  by_cases hform : ∀ i ∈ is, ¬ i.IsUnformed
  · obtain ⟨i, hfirst⟩ := exists_failsFirst_of_build hform he
    obtain ⟨g, hg, hmember⟩ := List.mem_flatMap.mp hfirst.mem
    obtain ⟨m, -, rfl⟩ := List.mem_map.mp hg
    have hi : i ∈ is := (Groups.mem_membersOf.mp hmember).1
    have hnumbers := Variant.numberFault_of_resolve (hform i hi) hfirst.eq_error
    have hroot : ∀ j ∈ is, ∃ m, j.root? = some m :=
      fun j hj => root?_of_checkForms (checkForms_eq_ok.mpr (hform j hj))
    exact ⟨fun ⟨j, hj, hunformed⟩ => absurd hunformed (hform j hj),
      fun _ => ⟨Groups.ofInstructions_eq hroot, i, hfirst, hnumbers⟩,
      i, hi, hnumbers.pattern_eq, e, hfirst.eq_error⟩
  · obtain ⟨i, hfirst⟩ := exists_failsFirst_of_validate (validate_of_build hform he)
    have hfault : i.FormFault e := formFault_of_checkForms hfirst.eq_error
    have hi : i ∈ is := hfirst.mem
    obtain ⟨before, after, his, hbefore, -⟩ := hfirst
    refine ⟨fun _ => ⟨before, i, after, his, fun j hj => ?_, hfault⟩, fun h => absurd h hform,
      i, hi, hfault.pattern_eq, exists_error_of_isUnformed hfault.isUnformed⟩
    obtain ⟨u, hu⟩ := hbefore j hj
    exact checkForms_eq_ok.mp hu

/-- Two values for one operand stand before four operands, two of them in unknown forms. -/
def misformed : List Instruction :=
  [{ pattern := "psh A", opcode := 0, widths := [8, 8] },
    { pattern := "mov A, B, [%], Z", opcode := 1, widths := [] },
    { pattern := "(%) ld", opcode := 2, widths := [] }]

/-- The group of `mov` has its second member behind an instruction with half a word. -/
def interleaved : List Instruction :=
  [{ pattern := "mov A, X", opcode := 0, widths := [] },
    { pattern := "inc [%]", opcode := 1, widths := [12] },
    { pattern := "MOV A, X, Y", opcode := 2, widths := [] }]

theorem acceptance_and_faults_mixed :
    (∃ before i after, misformed = before ++ i :: after ∧ (∀ j ∈ before, ¬ j.IsUnformed) ∧
        i.FormFault (.unknownForm "mov A, B, [%], Z" "mov" "B" Mode.surfaceForms)) ∧
      ∃ i, Result.FailsFirst Variant.resolve
        ((Groups.partition interleaved).flatMap Group.members) i
          (.arity "MOV A, X, Y" "mov" 3 "") := by
  have hmisformed : build misformed =
      .error (.unknownForm "mov A, B, [%], Z" "mov" "B" Mode.surfaceForms) :=
    rfl
  have hinterleaved : build interleaved = .error (.arity "MOV A, X, Y" "mov" 3 "") :=
    rfl
  have hunformed : ∃ i ∈ misformed, i.IsUnformed :=
    ⟨_, List.mem_cons_of_mem _ List.mem_cons_self, .inr ⟨_, _, rfl, "B", by decide, rfl⟩⟩
  have hformed : ∀ i ∈ interleaved, ¬ i.IsUnformed := by
    have hvalid : validate interleaved = .ok () := rfl
    exact fun i hi => checkForms_eq_ok.mp (validate_eq_ok.mp hvalid i hi)
  obtain ⟨-, i, hfirst, -⟩ := ((acceptance_and_faults interleaved).2 _ hinterleaved).2.1 hformed
  exact ⟨((acceptance_and_faults misformed).2 _ hmisformed).1 hunformed, i, hfirst⟩

end Tables
end AssemblerTables
