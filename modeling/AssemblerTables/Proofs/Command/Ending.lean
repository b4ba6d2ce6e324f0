/-
How a run ends, by the stage that fails first.

`Ends` has a rule for every stage that can fail, and one for a run that gets through.  A
rule says what has been printed and written by then, and what is raised.  Every run that is
followed ends by one of the rules, and by each rule only as it says, so a statement about
runs is proved rule by rule.  There is no rule for the text: tables that have been built
have one in every format.
-/
import AssemblerTables.Proofs.Command.Request
import AssemblerTables.Proofs.Command.Text

namespace AssemblerTables

/-- Writes to a file, if there is one to write to. -/
def Files.Store.writeTo {α : Type} (s : Store α) (path : Option Path) (content : α) :
    Except Fault (Store α) :=
  match path with
  | none => .ok s
  | some path => s.write path content

namespace Command

/-! ## Stages -/

/-- What can be raised while a request is followed. -/
inductive Raised where
  | settings (fault : SettingsFault)
  | load (fault : LoadFault)
  | build (fault : BuildFault)
  | write (fault : Files.Fault)

def Raised.failure : Raised → Failure
  | .settings fault => .parameter fault.text
  | .load fault => .ofLoad fault
  | .build fault => .build fault.report
  | .write fault => .ofFile fault

def exitCode (raised : Option Raised) : Nat :=
  (raised.map fun e => e.failure.exitCode).getD 0

theorem Failure.exitCode_ne_zero (f : Failure) : f.exitCode ≠ 0 := by
  cases f <;> simp [exitCode]

/-- A run succeeds if nothing is raised. -/
theorem exitCode_eq_zero {raised : Option Raised} : exitCode raised = 0 ↔ raised = none := by
  cases raised with
  | none => exact iff_of_true rfl rfl
  | some e => exact iff_of_false e.failure.exitCode_ne_zero (Option.some_ne_none e)

def octets (text : String) : List UInt8 :=
  text.toUTF8.toList

namespace Request

/-- The settings that the environment and the request make. -/
def settings (r : Request) (env : Settings.Environment) : Except SettingsFault Settings :=
  (Settings.ofEnvironment env).bind fun s =>
    s.update { stem := r.stem, keywordsPerRow := r.keywordsPerRow }

def load (r : Request) (files : Files.OctetStore) : Except LoadFault (List Instruction) :=
  match r.source with
  | none => Bundled.find Bundled.defaultName
  | some path => Definition.load files path

/-- What stands on the standard output once the text has been delivered. -/
def printed (r : Request) (text : String) : String :=
  match r.output with
  | none => text
  | some _ => ""

end Request

section Stages

variable {env : Settings.Environment} {files : Files.OctetStore} {r : Request}

theorem settingsOf_eq :
    settingsOf env r = (r.settings env).mapError fun fault => (Raised.settings fault).failure :=
  rfl

theorem instructionsOf_eq :
    instructionsOf files r = (r.load files).mapError fun fault => (Raised.load fault).failure := by
  rw [instructionsOf, Request.load]
  cases r.source <;> rfl

end Stages

/-- Everything a request needs before it writes. -/
structure Prepared (env : Settings.Environment) (files : Files.OctetStore) (r : Request)
    (s : Settings) (t : Tables) : Prop where
  settings : r.settings env = .ok s
  build : ∃ is, r.load files = .ok is ∧ Tables.build is = .ok t

theorem Prepared.unique {env : Settings.Environment} {files : Files.OctetStore} {r : Request}
    {s s' : Settings} {t t' : Tables} (h : Prepared env files r s t)
    (h' : Prepared env files r s' t') : s = s' ∧ t = t' := by
  obtain ⟨hsettings, is, hload, hbuild⟩ := h
  obtain ⟨hsettings', is', hload', hbuild'⟩ := h'
  cases hload.symm.trans hload'
  exact ⟨Except.ok.inj (hsettings.symm.trans hsettings'),
    Except.ok.inj (hbuild.symm.trans hbuild')⟩

/-- How following a request ends: with what is raised, if anything is, what has been printed
and the files as they are then. -/
inductive Ends (env : Settings.Environment) (files : Files.OctetStore) (r : Request) :
    Option Raised → String → Files.OctetStore → Prop where
  | settings {fault : SettingsFault} (h : r.settings env = .error fault) :
      Ends env files r (some (.settings fault)) "" files
  | load {s : Settings} {fault : LoadFault} (hsettings : r.settings env = .ok s)
      (h : r.load files = .error fault) : Ends env files r (some (.load fault)) "" files
  | build {s : Settings} {is : List Instruction} {fault : BuildFault}
      (hsettings : r.settings env = .ok s) (hload : r.load files = .ok is)
      (h : Tables.build is = .error fault) : Ends env files r (some (.build fault)) "" files
  | output {s : Settings} {t : Tables} {fault : Files.Fault} (hready : Prepared env files r s t)
      (h : files.writeTo r.output (octets (outputText s t r.format)) = .error fault) :
      Ends env files r (some (.write fault)) "" files
  | listing {s : Settings} {t : Tables} {files₁ : Files.OctetStore} {fault : Files.Fault}
      (hready : Prepared env files r s t)
      (houtput : files.writeTo r.output (octets (outputText s t r.format)) = .ok files₁)
      (h : files₁.writeTo r.listing (octets (listingText t)) = .error fault) :
      Ends env files r (some (.write fault)) (r.printed (outputText s t r.format)) files₁
  | done {s : Settings} {t : Tables} {files₁ files₂ : Files.OctetStore}
      (hready : Prepared env files r s t)
      (houtput : files.writeTo r.output (octets (outputText s t r.format)) = .ok files₁)
      (hlisting : files₁.writeTo r.listing (octets (listingText t)) = .ok files₂) :
      Ends env files r none (r.printed (outputText s t r.format)) files₂

section Ends

variable {env : Settings.Environment} {files files' : Files.OctetStore} {r : Request}
  {raised : Option Raised} {out : String}

/-- Every request ends by one of the rules. -/
theorem exists_ends (env : Settings.Environment) (files : Files.OctetStore) (r : Request) :
    ∃ raised out files', Ends env files r raised out files' := by
  cases hsettings : r.settings env with
  | error fault => exact ⟨_, _, _, .settings hsettings⟩
  | ok s =>
      cases hload : r.load files with
      | error fault => exact ⟨_, _, _, .load hsettings hload⟩
      | ok is =>
          cases hbuild : Tables.build is with
          | error fault => exact ⟨_, _, _, .build hsettings hload hbuild⟩
          | ok t =>
              have hready : Prepared env files r s t := ⟨hsettings, is, hload, hbuild⟩
              cases houtput : files.writeTo r.output (octets (outputText s t r.format)) with
              | error fault => exact ⟨_, _, _, .output hready houtput⟩
              | ok files₁ =>
                  cases hlisting : files₁.writeTo r.listing (octets (listingText t)) with
                  | error fault => exact ⟨_, _, _, .listing hready houtput hlisting⟩
                  | ok files₂ => exact ⟨_, _, _, .done hready houtput hlisting⟩

/-! ## Following a request -/

namespace Progress

variable {p : Progress} {path : Files.Path} {text : String} {t : Tables} {fault : Files.Fault}

theorem exists_write (h : p.files.write path (octets text) = .ok files') (n : Note) :
    ∃ p', p.write path text n = .ok p' ∧ p'.stdout = p.stdout ∧ p'.files = files' := by
  have hwrite : p.files.write path text.toUTF8.toList = .ok files' := h
  rw [write, hwrite]
  exact ⟨_, rfl, rfl, rfl⟩

theorem write_of_error (h : p.files.write path (octets text) = .error fault) (n : Note) :
    p.write path text n = .error (Raised.write fault).failure := by
  have hwrite : p.files.write path text.toUTF8.toList = .error fault := h
  rw [write, hwrite]
  rfl

theorem deliver_of_ok (hp : p.stdout = "") (hplain : Text.Plain text)
    (h : p.files.writeTo r.output (octets text) = .ok files') :
    ∃ p', p.deliver r text = .ok p' ∧ p'.stdout = r.printed text ∧ p'.files = files' := by
  rw [deliver, Request.printed]
  cases houtput : r.output with
  | none =>
      rw [houtput] at h
      refine ⟨_, rfl, ?_, Except.ok.inj h⟩
      show p.stdout ++ Text.withoutEscapes text = text
      rw [hp, String.empty_append, Text.withoutEscapes_eq_self hplain]
  | some path =>
      rw [houtput] at h
      rw [← hp]
      exact exists_write h _

theorem deliver_of_error (h : p.files.writeTo r.output (octets text) = .error fault) :
    p.deliver r text = .error (Raised.write fault).failure := by
  rw [deliver]
  cases houtput : r.output with
  | none =>
      rw [houtput] at h
      cases h
  | some path =>
      rw [houtput] at h
      exact write_of_error h _

theorem deliverListing_of_ok
    (h : p.files.writeTo r.listing (octets (listingText t)) = .ok files') :
    ∃ p', p.deliverListing r t = .ok p' ∧ p'.stdout = p.stdout ∧ p'.files = files' := by
  rw [deliverListing]
  cases hlisting : r.listing with
  | none =>
      rw [hlisting] at h
      exact ⟨p, rfl, rfl, Except.ok.inj h⟩
  | some path =>
      rw [hlisting] at h
      exact exists_write h _

theorem deliverListing_of_error
    (h : p.files.writeTo r.listing (octets (listingText t)) = .error fault) :
    p.deliverListing r t = .error (Raised.write fault).failure := by
  rw [deliverListing]
  cases hlisting : r.listing with
  | none =>
      rw [hlisting] at h
      cases h
  | some path =>
      rw [hlisting] at h
      exact write_of_error h _

end Progress

/-- Does following a request end so? -/
structure Ending.Is (e : Ending) (raised : Option Raised) (out : String)
    (files : Files.OctetStore) : Prop where
  failure : e.failure = raised.map Raised.failure
  stdout : e.progress.stdout = out
  files : e.progress.files = files

/-- Prepared requests only have to be finished. -/
theorem Prepared.follow_eq {s : Settings} {t : Tables} (h : Prepared env files r s t) :
    Text.Plain (outputText s t r.format) ∧ ∃ p : Progress, p.stdout = "" ∧ p.files = files ∧
      follow env files r = finish r t (outputText s t r.format) p := by
  obtain ⟨hsettings, is, hload, hbuild⟩ := h
  have husual : settingsOf env r = .ok s := by
    rw [settingsOf_eq, hsettings]
    rfl
  refine ⟨plain_outputText hbuild (Settings.usual_of_settingsOf husual) r.format, ?_⟩
  refine ⟨(Progress.note { files := files } (loadNotes files r)).note (Journal.ofBuild is),
    rfl, rfl, ?_⟩
  have hinstructions : instructionsOf files r = .ok is := by
    rw [instructionsOf_eq, hload]
    rfl
  have htables : tablesOf is = .ok t := by
    rw [tablesOf, hbuild]
    rfl
  simp only [follow, husual, hinstructions, htables, textOf_eq_ok hbuild, Progress.continue]

/-- A run ends by a rule only as the rule says. -/
theorem Ends.follow_is (h : Ends env files r raised out files') :
    (follow env files r).Is raised out files' := by
  cases h with
  | settings h =>
      rw [follow, settingsOf_eq, h]
      exact ⟨rfl, rfl, rfl⟩
  | load hsettings h =>
      simp only [follow, settingsOf_eq, hsettings, instructionsOf_eq, h, Progress.continue,
        Except.mapError]
      exact ⟨rfl, rfl, rfl⟩
  | build hsettings hload h =>
      simp only [follow, settingsOf_eq, hsettings, instructionsOf_eq, hload, tablesOf, h,
        Progress.continue, Except.mapError]
      exact ⟨rfl, rfl, rfl⟩
  | output hready h =>
      obtain ⟨-, p, hout, hfiles, hfollow⟩ := hready.follow_eq
      rw [← hfiles] at h
      rw [hfollow, finish, Progress.deliver_of_error h]
      exact ⟨rfl, hout, hfiles⟩
  | listing hready houtput h =>
      obtain ⟨hplain, p, hout, hfiles, hfollow⟩ := hready.follow_eq
      rw [← hfiles] at houtput
      obtain ⟨p₁, hdeliver, hout₁, hfiles₁⟩ := Progress.deliver_of_ok hout hplain houtput
      rw [← hfiles₁] at h
      rw [hfollow, finish, hdeliver]
      dsimp only [Progress.continue]
      rw [Progress.deliverListing_of_error h]
      exact ⟨rfl, hout₁, hfiles₁⟩
  | done hready houtput hlisting =>
      obtain ⟨hplain, p, hout, hfiles, hfollow⟩ := hready.follow_eq
      rw [← hfiles] at houtput
      obtain ⟨p₁, hdeliver, hout₁, hfiles₁⟩ := Progress.deliver_of_ok hout hplain houtput
      rw [← hfiles₁] at hlisting
      obtain ⟨p₂, hlast, hout₂, hfiles₂⟩ := Progress.deliverListing_of_ok hlisting
      rw [hfollow, finish, hdeliver]
      dsimp only [Progress.continue]
      rw [hlast]
      exact ⟨rfl, hout₂.trans hout₁, hfiles₂⟩

/-! ## Runs -/

/-- A call that ends by a rule has the outcome that the rule says. -/
theorem Ends.exists_outcome {args : List String} (h : Ends env files r raised out files')
    (hcalls : Calls files args r) :
    ∃ o, run args env files = .ok o ∧ o.exitCode = exitCode raised ∧ o.stdout = out ∧
      o.files = files' := by
  obtain ⟨hfailure, hout, hfiles⟩ := h.follow_is
  refine ⟨_, run_of_calls hcalls env, ?_, hout, hfiles⟩
  rw [Ending.outcome, hfailure, Option.map_map]
  rfl

/-- A rule by which a call ends says what its outcome is. -/
theorem Ends.outcome_eq {args : List String} {o : Outcome}
    (h : Ends env files r raised out files') (hcalls : Calls files args r)
    (hrun : run args env files = .ok o) :
    o.exitCode = exitCode raised ∧ o.stdout = out ∧ o.files = files' := by
  obtain ⟨o', hrun', ho'⟩ := h.exists_outcome hcalls
  cases hrun.symm.trans hrun'
  exact ho'

/-- Every call ends by a rule, and its outcome is what the rule says. -/
theorem Calls.exists_ends {args : List String} {o : Outcome} (hcalls : Calls files args r)
    (h : run args env files = .ok o) :
    ∃ raised, Ends env files r raised o.stdout o.files ∧ o.exitCode = exitCode raised := by
  obtain ⟨raised, out, files', hends⟩ := Command.exists_ends env files r
  obtain ⟨hexit, rfl, rfl⟩ := hends.outcome_eq hcalls h
  exact ⟨raised, hends, hexit⟩

end Ends

/-- A working directory with one definition in it. -/
def specimen (definition : String) : Files.OctetStore :=
  { here := ["work"], entries := [(["work", "isa.json"], .file (octets definition))] }

/-- The definition of one instruction without operands. -/
def nopDefinition : String :=
  "[\x7b\"name\": \"NOP\", \"hex\": \"00\"\x7d]"

end Command
end AssemblerTables
