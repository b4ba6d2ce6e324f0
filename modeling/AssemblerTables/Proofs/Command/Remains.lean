/-
What a failing run leaves behind.

The output is delivered before the listing is written, and nothing takes it back.  So a
listing that cannot be written leaves the output behind, printed or in its file, though the
run fails.  That is the only way: in every other failing run nothing has been printed, and
all files are as they were.
-/
import AssemblerTables.Proofs.Command.Ending

namespace AssemblerTables
namespace Command

variable {env : Settings.Environment} {files : Files.OctetStore} {args : List String}
  {o : Outcome}

/-- A run that is not followed changes no file, and it prints something only to answer. -/
theorem run_cases (h : run args env files = .ok o) :
    (∃ r, Calls files args r) ∨ o.files = files ∧ (o.exitCode = 0 ∨ o.stdout = "") := by
  rw [run] at h
  cases hscan : scan args with
  | error fault =>
      rw [hscan] at h
      cases h
      exact .inr ⟨rfl, .inr rfl⟩
  | ok items =>
      rw [hscan] at h
      change runItems env files items = .ok o at h
      rw [runItems] at h
      cases himmediate : Request.immediate? items with
      | some s =>
          rw [himmediate] at h
          cases s <;> cases h <;> exact .inr ⟨rfl, .inl rfl⟩
      | none =>
          rw [himmediate] at h
          cases hitems : Request.ofItems files items with
          | ok r => exact .inl ⟨r, items, hscan, himmediate, hitems⟩
          | error fault =>
              rw [hitems] at h
              cases fault <;> cases h <;> exact .inr ⟨rfl, .inr rfl⟩

/-- Is the text delivered, and the listing then not to be written? -/
def Request.LosesListing (r : Request) (env : Settings.Environment) (files : Files.OctetStore)
    (text : String) : Prop :=
  ∃ s t files₁ fault, Prepared env files r s t ∧ text = outputText s t r.format ∧
    files.writeTo r.output (octets text) = .ok files₁ ∧
    files₁.writeTo r.listing (octets (listingText t)) = .error fault

/-- Delivering a text leaves no trace only in a file that held the text before. -/
theorem delivered_unchanged_iff {r : Request} {text : String} {files₁ : Files.OctetStore}
    (hne : text ≠ "") (h : files.writeTo r.output (octets text) = .ok files₁) :
    (r.printed text = "" ∧ files₁ = files) ↔
      ∃ path, r.output = some path ∧ files.read path = .ok (octets text) := by
  rw [Request.printed]
  cases houtput : r.output with
  | none =>
      refine iff_of_false (fun h => hne h.1) ?_
      rintro ⟨path, hpath, -⟩
      cases hpath
  | some path =>
      rw [houtput] at h
      have hwrite := Files.Store.write_eq_self_iff h
      constructor
      · exact fun hsame => ⟨path, rfl, hwrite.mp hsame.2⟩
      · rintro ⟨_, hpath, hread⟩
        cases hpath
        exact ⟨rfl, hwrite.mpr hread⟩

/-- A failing run leaves nothing behind, unless it loses its listing: then it has delivered its
output, which shows except in a file that held just this text. -/
theorem nothing_left_iff (h : run args env files = .ok o) (hexit : o.exitCode ≠ 0) :
    (o.stdout = "" ∧ o.files = files) ↔
      ∀ r text, Calls files args r → r.LosesListing env files text →
        ∃ path, r.output = some path ∧ files.read path = .ok (octets text) := by
  constructor
  · rintro hleft r text hcalls ⟨s, t, files₁, fault, hready, rfl, houtput, hlisting⟩
    obtain ⟨-, hout, hfiles⟩ := (Ends.listing hready houtput hlisting).outcome_eq hcalls h
    rw [hout, hfiles] at hleft
    exact (delivered_unchanged_iff (outputText_ne_empty s t r.format) houtput).mp hleft
  · intro hkept
    rcases run_cases h with ⟨r, hcalls⟩ | ⟨hfiles, hzero | hout⟩
    · obtain ⟨raised, hends, hcode⟩ := hcalls.exists_ends h
      generalize o.stdout = out, o.files = files' at hends
      cases hends with
      | settings => exact ⟨rfl, rfl⟩
      | load => exact ⟨rfl, rfl⟩
      | build => exact ⟨rfl, rfl⟩
      | output => exact ⟨rfl, rfl⟩
      | @listing s t files₁ fault hready houtput hlisting =>
          have hlost : r.LosesListing env files (outputText s t r.format) :=
            ⟨s, t, _, fault, hready, rfl, houtput, hlisting⟩
          exact (delivered_unchanged_iff (outputText_ne_empty s t r.format) houtput).mpr
            (hkept r _ hcalls hlost)
      | done => exact absurd hcode hexit
    · exact absurd hzero hexit
    · exact ⟨hout, hfiles⟩

/-! ## A listing that is lost -/

def nop : List Instruction :=
  [{ pattern := "NOP", opcode := 0, widths := [] }]

/-- A working directory with the definition of one instruction, and its listing. -/
def listed : Files.OctetStore :=
  { specimen nopDefinition with
    entries := (specimen nopDefinition).entries ++
      [(["work", "out.txt"], .file (octets "nop:\n  NOP\n"))] }

/-- The listing is asked for twice, and the second time in a directory that is missing. -/
def losingArgs : List String :=
  ["isa.json", "-f", "listing", "-o", "out.txt", "-l", "missing/l.txt"]

def losingRequest : Request :=
  { source := some (.ofText "isa.json"),
    output := some (.ofText "out.txt"),
    listing := some (.ofText "missing/l.txt"),
    format := .listing }

def losingOutcome : Outcome :=
  { exitCode := 2,
    stdout := "",
    stderr := "Error: [Errno 2] No such file or directory: 'missing/l.txt'\n",
    files := listed }

/-- The listing is lost, and the output file holds the output already. -/
theorem nothing_left_iff_listed :
    run losingArgs [] listed = .ok losingOutcome ∧ losingOutcome.exitCode ≠ 0 ∧
      losingOutcome.stdout = "" ∧ losingOutcome.files = listed := by
  have hrun : run losingArgs [] listed = .ok losingOutcome :=
    Result.toOption_eq_some.mp (by decide +kernel)
  have hexit : losingOutcome.exitCode ≠ 0 := by decide
  have hcalls : Calls listed losingArgs losingRequest := ⟨_, rfl, rfl, by decide +kernel⟩
  have hready : Prepared [] listed losingRequest {} (Tables.ofAccepted nop) :=
    ⟨Result.toOption_eq_some.mp (by decide +kernel), nop,
      Result.toOption_eq_some.mp (by decide +kernel),
      Tables.build_eq_ok.mpr ⟨by decide +kernel, rfl⟩⟩
  refine ⟨hrun, hexit, (nothing_left_iff hrun hexit).mpr ?_⟩
  rintro r' text hcalls' ⟨s, t, files₁, fault, hready', rfl, -, -⟩
  cases hcalls.unique hcalls'
  obtain ⟨rfl, rfl⟩ := hready.unique hready'
  exact ⟨_, rfl, Result.toOption_eq_some.mp (by decide +kernel)⟩

/-- Where there was no output file, a lost listing leaves one behind. -/
theorem lost_listing_leaves_output :
    run losingArgs [] (specimen nopDefinition) = .ok losingOutcome ∧
      losingOutcome.exitCode ≠ 0 ∧ losingOutcome.files = listed ∧
      ¬ (losingOutcome.stdout = "" ∧ losingOutcome.files = specimen nopDefinition) := by
  refine ⟨Result.toOption_eq_some.mp (by decide +kernel), by decide, rfl, fun h => ?_⟩
  have hlength := congrArg (fun files : Files.OctetStore => files.entries.length) h.2
  cases hlength

end Command
end AssemblerTables
