/-
What the exit code of a run tells.

An exit code tells what kind of exception ended the run, and the stages follow each other,
so it is the first stage that fails which counts: the settings before the instruction set,
the instruction set before the files.  A run that gets to its text fails only in writing.
-/
import AssemblerTables.Proofs.Command.Ending

namespace AssemblerTables
namespace Command

/-! ## Kinds of exceptions -/

/-- The kinds of exceptions that are told apart. -/
inductive Kind where
  /-- The instruction set is at fault. -/
  | instructionSet
  /-- A parameter is at fault. -/
  | parameter
  | notFound
  | denied
  | other
deriving DecidableEq, Repr

def Kind.exitCode : Kind → Nat
  | .instructionSet => 1
  | .parameter => 2
  | .notFound => 2
  | .denied => 2
  | .other => 3

namespace Raised

def kindOfFile (fault : Files.Fault) : Kind :=
  match fault.cause with
  | .notFound => .notFound
  | .denied => .denied
  | _ => .other

def kind : Raised → Kind
  | .settings _ => .parameter
  | .load (.definition _) => .instructionSet
  | .load (.file fault) => kindOfFile fault
  | .load (.tooManyDigits _) => .other
  | .build _ => .instructionSet
  | .write fault => kindOfFile fault

theorem exitCode_ofFile (fault : Files.Fault) :
    (Failure.ofFile fault).exitCode = (kindOfFile fault).exitCode := by
  rw [Failure.ofFile, kindOfFile]
  cases fault.cause <;> rfl

/-- The exit code is that of the kind. -/
theorem exitCode_eq (e : Raised) : Command.exitCode (some e) = e.kind.exitCode := by
  cases e with
  | settings fault => rfl
  | load fault =>
      cases fault with
      | definition fault => rfl
      | file fault => exact exitCode_ofFile fault
      | tooManyDigits count => rfl
  | build fault => rfl
  | write fault => exact exitCode_ofFile fault

end Raised

theorem Kind.eq_other {k : Kind} (h : k.exitCode = 3) : k = .other := by
  cases k with
  | other => rfl
  | instructionSet => cases h
  | parameter => cases h
  | notFound => cases h
  | denied => cases h

/-! ## First failures -/

section Classification

variable {env : Settings.Environment} {files : Files.OctetStore} {r : Request}

/-- Does the environment or the request make settings that are refused? -/
def Request.SettingsRefused (r : Request) (env : Settings.Environment) : Prop :=
  (∃ fault, Settings.ofEnvironment env = .error fault) ∨
    ∃ s fault, Settings.ofEnvironment env = .ok s ∧
      s.update { stem := r.stem, keywordsPerRow := r.keywordsPerRow } = .error fault

/-- Is the instruction set one that cannot be loaded as such, or has no tables? -/
def Request.SetRefused (r : Request) (files : Files.OctetStore) : Prop :=
  (∃ fault, r.load files = .error (.definition fault)) ∨
    ∃ is fault, r.load files = .ok is ∧ Tables.build is = .error fault

/-- Can all that is asked for be written, the listing into the files as they are then? -/
def Request.Delivers (r : Request) (files : Files.OctetStore) (s : Settings) (t : Tables) : Prop :=
  ∃ files₁ files₂, files.writeTo r.output (octets (outputText s t r.format)) = .ok files₁ ∧
    files₁.writeTo r.listing (octets (listingText t)) = .ok files₂

/-- Is this the fault of the output, or else of the listing? -/
def Request.FailsToDeliver (r : Request) (files : Files.OctetStore) (s : Settings) (t : Tables)
    (fault : Files.Fault) : Prop :=
  files.writeTo r.output (octets (outputText s t r.format)) = .error fault ∨
    ∃ files₁, files.writeTo r.output (octets (outputText s t r.format)) = .ok files₁ ∧
      files₁.writeTo r.listing (octets (listingText t)) = .error fault

theorem Request.settingsRefused_iff :
    r.SettingsRefused env ↔ ∃ fault, r.settings env = .error fault := by
  rw [SettingsRefused, settings]
  cases Settings.ofEnvironment env with
  | error fault => simp [Except.bind]
  | ok s => simp [Except.bind]

/-- A set that is refused ends the run before anything is written. -/
theorem Request.SetRefused.exists_ends (h : r.SetRefused files) {s : Settings}
    (hs : r.settings env = .ok s) :
    ∃ raised, Ends env files r (some raised) "" files ∧ raised.kind = .instructionSet := by
  rcases h with ⟨fault, hload⟩ | ⟨is, fault, hload, hbuild⟩
  · exact ⟨_, .load hs hload, rfl⟩
  · exact ⟨_, .build hs hload hbuild, rfl⟩

theorem Request.FailsToDeliver.exists_ends {s : Settings} {t : Tables} {fault : Files.Fault}
    (h : r.FailsToDeliver files s t fault) (hready : Prepared env files r s t) :
    ∃ out files', Ends env files r (some (.write fault)) out files' := by
  rcases h with houtput | ⟨files₁, houtput, hlisting⟩
  · exact ⟨_, _, .output hready houtput⟩
  · exact ⟨_, _, .listing hready houtput hlisting⟩

/-- Nothing is raised exactly if all stages before the text succeed and all that is asked for
is written. -/
theorem ends_none_iff :
    (∃ out files', Ends env files r none out files') ↔
      ∃ s t, Prepared env files r s t ∧ r.Delivers files s t := by
  constructor
  · rintro ⟨out, files', h⟩
    cases h with
    | done hready houtput hlisting => exact ⟨_, _, hready, _, _, houtput, hlisting⟩
  · rintro ⟨s, t, hready, files₁, files₂, houtput, hlisting⟩
    exact ⟨_, _, .done hready houtput hlisting⟩

/-- The exit code of a call that is followed, by the first stage that fails.  Refused
settings give 2, whatever else is at fault; after them a refused instruction set gives 1 and
leaves nothing behind; and then the run succeeds exactly if the set can be loaded and all
that is asked for can be written.  A file that is not found or not to be written gives 2,
and 3 is left for what is none of these. -/
theorem exit_code_classifies {args : List String} (hcalls : Calls files args r)
    (env : Settings.Environment) :
    ∃ o, run args env files = .ok o ∧
      (r.SettingsRefused env → o.exitCode = 2) ∧
      (¬ r.SettingsRefused env → r.SetRefused files →
        o.exitCode = 1 ∧ o.stdout = "" ∧ o.files = files) ∧
      (¬ r.SettingsRefused env → ¬ r.SetRefused files →
        (o.exitCode = 0 ↔ ∃ is, r.load files = .ok is ∧
          ∀ s t, r.settings env = .ok s → Tables.build is = .ok t → r.Delivers files s t)) ∧
      (∀ s t fault, Prepared env files r s t → r.FailsToDeliver files s t fault →
        fault.cause = .notFound ∨ fault.cause = .denied → o.exitCode = 2) ∧
      (o.exitCode = 3 →
        ∃ e, Ends env files r (some e) o.stdout o.files ∧ e.kind = .other) := by
  have hrun := run_of_calls hcalls env
  generalize (follow env files r).outcome r.verbose = o at hrun
  have hsettings (h : ¬ r.SettingsRefused env) : ∃ s, r.settings env = .ok s := by
    cases hs : r.settings env with
    | error fault => exact absurd (Request.settingsRefused_iff.mpr ⟨fault, hs⟩) h
    | ok s => exact ⟨s, rfl⟩
  have hzero : o.exitCode = 0 ↔ ∃ s t, Prepared env files r s t ∧ r.Delivers files s t := by
    rw [← ends_none_iff]
    constructor
    · intro h
      obtain ⟨raised, hends, hexit⟩ := hcalls.exists_ends hrun
      rw [exitCode_eq_zero.mp (hexit.symm.trans h)] at hends
      exact ⟨_, _, hends⟩
    · rintro ⟨out, files', hends⟩
      exact (hends.outcome_eq hcalls hrun).1
  refine ⟨o, hrun, fun h => ?_, fun h hset => ?_, fun h hset => ?_, ?_, fun h => ?_⟩
  · obtain ⟨fault, hfault⟩ := Request.settingsRefused_iff.mp h
    exact ((Ends.settings hfault).outcome_eq hcalls hrun).1
  · obtain ⟨s, hs⟩ := hsettings h
    obtain ⟨raised, hends, hkind⟩ := hset.exists_ends hs
    obtain ⟨hexit, hout, hfiles⟩ := hends.outcome_eq hcalls hrun
    refine ⟨?_, hout, hfiles⟩
    rw [hexit, raised.exitCode_eq, hkind]
    rfl
  · obtain ⟨s, hs⟩ := hsettings h
    rw [hzero]
    constructor
    · rintro ⟨s', t, ⟨hs', is, hload, hbuild⟩, hdelivers⟩
      refine ⟨is, hload, fun s'' t'' hs'' hbuild'' => ?_⟩
      cases hs'.symm.trans hs''
      cases hbuild.symm.trans hbuild''
      exact hdelivers
    · rintro ⟨is, hload, hdelivers⟩
      cases hbuild : Tables.build is with
      | error fault => exact absurd (.inr ⟨is, fault, hload, hbuild⟩) hset
      | ok t => exact ⟨s, t, ⟨hs, is, hload, hbuild⟩, hdelivers s t hs hbuild⟩
  · intro s t fault hready hfails hcause
    obtain ⟨out, files', hends⟩ := hfails.exists_ends hready
    rw [(hends.outcome_eq hcalls hrun).1, Raised.exitCode_eq, Raised.kind, Raised.kindOfFile]
    rcases hcause with hcause | hcause <;> rw [hcause] <;> rfl
  · obtain ⟨raised, hends, hexit⟩ := hcalls.exists_ends hrun
    cases raised with
    | none => rw [h] at hexit; cases hexit
    | some e =>
        rw [h, e.exitCode_eq] at hexit
        exact ⟨e, hends, Kind.eq_other hexit.symm⟩

end Classification

/-- An instruction with an operand that has no mode. -/
def modeless : List Instruction :=
  [{ pattern := "LD A, Z[%]", opcode := 16, widths := [] }]

def modelessFiles : Files.OctetStore :=
  specimen "[\x7b\"name\": \"LD A, Z[%]\", \"hex\": \"10\"\x7d]"

def modelessArgs : List String :=
  ["isa.json", "-o", "out.c"]

def modelessRequest : Request :=
  { source := some (.ofText "isa.json"), output := some (.ofText "out.c") }

/-- An operand without a mode gives 1, and 2 as soon as the stem is no name either. -/
theorem exit_code_classifies_overlapping :
    (∃ o, run modelessArgs [("ISAGEN_PREFIX", "no-dashes")] modelessFiles = .ok o ∧
        o.exitCode = 2) ∧
      ∃ o, run modelessArgs [] modelessFiles = .ok o ∧
        o.exitCode = 1 ∧ o.stdout = "" ∧ o.files = modelessFiles := by
  have hcalls : Calls modelessFiles modelessArgs modelessRequest :=
    ⟨_, rfl, rfl, by decide +kernel⟩
  have hload : modelessRequest.load modelessFiles = .ok modeless :=
    Result.toOption_eq_some.mp (by decide +kernel)
  obtain ⟨fault, hbuild⟩ : ∃ fault, Tables.build modeless = .error fault :=
    Result.exists_error fun ⟨t, ht⟩ =>
      absurd (Tables.build_eq_ok.mp ht).1 (by decide +kernel)
  obtain ⟨o, hrun, hsettings, -⟩ :=
    exit_code_classifies hcalls [("ISAGEN_PREFIX", "no-dashes")]
  obtain ⟨o', hrun', -, hset, -⟩ := exit_code_classifies hcalls []
  have husual : ¬ modelessRequest.SettingsRefused [] := by
    have hdefault : modelessRequest.settings [] = .ok {} :=
      Result.toOption_eq_some.mp (by decide +kernel)
    rw [Request.settingsRefused_iff]
    rintro ⟨fault, hfault⟩
    cases hdefault.symm.trans hfault
  exact ⟨⟨o, hrun, hsettings (.inl ⟨_, rfl⟩)⟩, o', hrun',
    hset husual (.inr ⟨modeless, fault, hload, hbuild⟩)⟩

end Command
end AssemblerTables
