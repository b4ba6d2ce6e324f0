/-
The routes of a text: to the standard output, to the output file, to the listing file.

All routes carry the same text.  The standard output leaves escape sequences out and files
do not, but there are none to leave out.  A file to write changes neither what is loaded
nor what is built of it, and writing one file leaves another as it was, so a run with more
files to write says what the run without them says.
-/
import AssemblerTables.Proofs.Command.Ending

namespace AssemblerTables
namespace Command

variable {env : Settings.Environment} {files : Files.OctetStore} {r : Request} {s : Settings}
  {t : Tables}

/-! ## Written files -/

theorem exists_writeTo {path? : Option Files.Path}
    (h : ∀ path, path? = some path → files.Writable path) (content : List UInt8) :
    ∃ files', files.writeTo path? content = .ok files' := by
  cases path? with
  | none => exact ⟨files, rfl⟩
  | some path => exact (h path rfl).exists_write content

/-- Two files can be written one after the other, if they are not the same, and then each holds
its own content. -/
theorem exists_writeTo_both {path? other? : Option Files.Path} {content other : List UInt8}
    (hpath : ∀ path, path? = some path → files.Writable path)
    (hother : ∀ path, other? = some path → files.Writable path)
    (hdifferent : ∀ p q, path? = some p → other? = some q →
      files.locate p.text ≠ files.locate q.text) :
    ∃ files₁ files₂, files.writeTo path? content = .ok files₁ ∧
      files₁.writeTo other? other = .ok files₂ ∧
      (∀ p, path? = some p → files₂.read p = .ok content) ∧
      ∀ q, other? = some q → files₂.read q = .ok other := by
  cases path? with
  | none =>
      obtain ⟨files₂, hwrite⟩ := exists_writeTo hother other
      refine ⟨files, files₂, rfl, hwrite, fun p hp => (by cases hp), fun q hq => ?_⟩
      rw [hq] at hwrite
      exact Files.Store.read_write hwrite
  | some p =>
      have hp := hpath p rfl
      obtain ⟨files₁, hfirst⟩ := hp.exists_write content
      have hread : ∀ p', some p = some p' → files₁.read p' = .ok content := by
        rintro _ ⟨⟩
        exact Files.Store.read_write hfirst
      cases other? with
      | none => exact ⟨files₁, files₁, hfirst, rfl, hread, fun q hq => (by cases hq)⟩
      | some q =>
          have hq := hother q rfl
          have hne := hdifferent p q rfl rfl
          obtain ⟨files₂, hsecond⟩ :=
            (Files.Store.writable_write hfirst hne.symm hq).exists_write other
          -- Both paths lead on to where they led before the first file was written.
          have hkept : files₁.locate p.text ≠ files₁.locate q.text := by
            obtain ⟨a, ha, -⟩ := hp
            obtain ⟨b, hb, -⟩ := hq
            rw [Files.Store.locate_write hfirst ha, Files.Store.locate_write hfirst hb, ← ha, ← hb]
            exact hne
          refine ⟨files₁, files₂, hfirst, hsecond, ?_, ?_⟩
          · rintro _ ⟨⟩
            exact Files.Store.read_write_other hsecond hkept (hread p rfl)
          · rintro _ ⟨⟩
            exact Files.Store.read_write hsecond

/-- A request whose files can be written, and are not the same, ends with its text in each of
them. -/
theorem Prepared.exists_done (hready : Prepared env files r s t)
    (houtput : ∀ path, r.output = some path → files.Writable path)
    (hlisting : ∀ path, r.listing = some path → files.Writable path)
    (hdifferent : ∀ p q, r.output = some p → r.listing = some q →
      files.locate p.text ≠ files.locate q.text) :
    ∃ files', Ends env files r none (r.printed (outputText s t r.format)) files' ∧
      (∀ p, r.output = some p → files'.read p = .ok (octets (outputText s t r.format))) ∧
      ∀ q, r.listing = some q → files'.read q = .ok (octets (listingText t)) := by
  obtain ⟨files₁, files₂, hfirst, hsecond, hout, hlist⟩ :=
    exists_writeTo_both houtput hlisting hdifferent
  exact ⟨files₂, .done hready hfirst hsecond, hout, hlist⟩

/-! ## Requests with more files -/

/-- The files and the format that are asked for change nothing that is needed before. -/
theorem Prepared.set (hready : Prepared env files r s t) {switch : Switch} (value : String)
    (hswitch : switch = .output ∨ switch = .listing ∨ switch = .format) :
    Prepared env files (r.set switch value) s t := by
  rcases hswitch with rfl | rfl | rfl
  · exact ⟨hready.settings, hready.build⟩
  · exact ⟨hready.settings, hready.build⟩
  · exact ⟨hready.settings, hready.build⟩

/-- A run that succeeds without any files to write has printed its text. -/
theorem Calls.exists_prepared {args : List String} {o : Outcome} (hcalls : Calls files args r)
    (houtput : r.output = none) (hrun : run args env files = .ok o) (hexit : o.exitCode = 0) :
    ∃ s t, Prepared env files r s t ∧ o.stdout = outputText s t r.format := by
  obtain ⟨raised, hends, hcode⟩ := hcalls.exists_ends hrun
  rw [exitCode_eq_zero.mp (hcode.symm.trans hexit)] at hends
  generalize o.stdout = out, o.files = files' at hends
  cases hends with
  | @done s t files₁ files₂ hready houtput' hlisting =>
      refine ⟨s, t, hready, ?_⟩
      rw [Request.printed, houtput]

/-- The run with files to write that can be written, and are not the same file. -/
theorem Calls.exists_outcome {args : List String} (hcalls : Calls files args r)
    (hready : Prepared env files r s t)
    (houtput : ∀ path, r.output = some path → files.Writable path)
    (hlisting : ∀ path, r.listing = some path → files.Writable path)
    (hdifferent : ∀ p q, r.output = some p → r.listing = some q →
      files.locate p.text ≠ files.locate q.text) :
    ∃ o, run args env files = .ok o ∧ o.exitCode = 0 ∧
      o.stdout = r.printed (outputText s t r.format) ∧
      (∀ p, r.output = some p → o.files.read p = .ok (octets (outputText s t r.format))) ∧
      ∀ q, r.listing = some q → o.files.read q = .ok (octets (listingText t)) := by
  obtain ⟨files', hends, hout, hlist⟩ := hready.exists_done houtput hlisting hdifferent
  obtain ⟨o, hrun, hexit, hstdout, rfl⟩ := hends.exists_outcome hcalls
  exact ⟨o, hrun, hexit, hstdout, hout, hlist⟩

/-! ## Routes -/

theorem Request.printed_of_none (h : r.output = none) (text : String) : r.printed text = text := by
  rw [printed, h]

section Routes

variable {args args' : List String}

/-- No file is asked for, so there is none that cannot be written. -/
theorem writable_of_none {path? : Option Files.Path} (h : path? = none) :
    ∀ path, path? = some path → files.Writable path := by
  intro path hpath
  cases h.symm.trans hpath

section Added

variable (hcalls : Calls files args r) (hready : Prepared env files r s t)
include hcalls hready

/-- The run in the format of listings. -/
theorem Calls.exists_listing (houtput : r.output = none) (hlisting : r.listing = none)
    (hsets : Sets .format "listing" args args') :
    ∃ o, run args' env files = .ok o ∧ o.exitCode = 0 ∧ o.stdout = listingText t := by
  have hcalls' := hcalls.sets hsets rfl ⟨.listing, rfl⟩
  obtain ⟨o, hrun, hexit, hout, -⟩ := hcalls'.exists_outcome
    (hready.set "listing" (.inr (.inr rfl))) (writable_of_none houtput)
    (writable_of_none hlisting) fun p q hp => by cases houtput.symm.trans hp
  exact ⟨o, hrun, hexit, hout.trans (Request.printed_of_none houtput _)⟩

/-- The run with an output file. -/
theorem Calls.exists_output (hlisting : r.listing = none) {F : String}
    (hF : files.Writable (.ofText F)) (hsets : Sets .output F args args') :
    ∃ o, run args' env files = .ok o ∧ o.exitCode = 0 ∧ o.stdout = "" ∧
      o.files.read (.ofText F) = .ok (octets (outputText s t r.format)) := by
  have hcalls' := hcalls.sets hsets rfl ⟨_, Request.outputPath_of_writable hF⟩
  obtain ⟨o, hrun, hexit, hout, hread, -⟩ := hcalls'.exists_outcome
    (hready.set F (.inl rfl)) (by rintro _ ⟨⟩; exact hF) (writable_of_none hlisting)
    fun p q _ hq => by cases hlisting.symm.trans hq
  exact ⟨o, hrun, hexit, hout, hread _ rfl⟩

/-- The run with a listing file. -/
theorem Calls.exists_withListing (houtput : r.output = none) {L : String}
    (hL : files.Writable (.ofText L)) (hsets : Sets .listing L args args') :
    ∃ o, run args' env files = .ok o ∧ o.exitCode = 0 ∧
      o.stdout = outputText s t r.format ∧
      o.files.read (.ofText L) = .ok (octets (listingText t)) := by
  have hcalls' := hcalls.sets hsets rfl ⟨_, Request.outputPath_of_writable hL⟩
  obtain ⟨o, hrun, hexit, hout, -, hread⟩ := hcalls'.exists_outcome
    (hready.set L (.inr (.inl rfl))) (writable_of_none houtput) (by rintro _ ⟨⟩; exact hL)
    fun p q hp => by cases houtput.symm.trans hp
  exact ⟨o, hrun, hexit, hout.trans (Request.printed_of_none houtput _), hread _ rfl⟩

/-- The run with an output file and another listing file. -/
theorem Calls.exists_both {F L : String} {args'' : List String}
    (hF : files.Writable (.ofText F)) (hL : files.Writable (.ofText L))
    (hne : files.locate (Files.Path.ofText F).text ≠ files.locate (Files.Path.ofText L).text)
    (hsets : Sets .output F args args') (hsets' : Sets .listing L args' args'') :
    ∃ o, run args'' env files = .ok o ∧ o.exitCode = 0 ∧ o.stdout = "" ∧
      o.files.read (.ofText F) = .ok (octets (outputText s t r.format)) ∧
      o.files.read (.ofText L) = .ok (octets (listingText t)) := by
  have hcalls' := hcalls.sets hsets rfl ⟨_, Request.outputPath_of_writable hF⟩
  have hcalls'' := hcalls'.sets hsets' rfl ⟨_, Request.outputPath_of_writable hL⟩
  obtain ⟨o, hrun, hexit, hout, hread, hread'⟩ := hcalls''.exists_outcome
    ((hready.set F (.inl rfl)).set L (.inr (.inl rfl)))
    (by rintro _ ⟨⟩; exact hF) (by rintro _ ⟨⟩; exact hL) (by rintro _ _ ⟨⟩ ⟨⟩; exact hne)
  exact ⟨o, hrun, hexit, hout, hread _ rfl, hread' _ rfl⟩

end Added

/-- A run without files to write that succeeds has the same text on every route.  With an output
file it prints nothing and the file has the text; with a listing file it prints what it
printed and the file has what the run prints in the format of listings; and with both, each
is as with the one alone. -/
theorem routes_agree {o : Outcome} (hcalls : Calls files args r)
    (houtput : r.output = none) (hlisting : r.listing = none)
    (hrun : run args env files = .ok o) (hexit : o.exitCode = 0) :
    (∀ F argsF, files.Writable (.ofText F) → Sets .output F args argsF →
      ∃ oF, run argsF env files = .ok oF ∧ oF.exitCode = 0 ∧ oF.stdout = "" ∧
        oF.files.read (.ofText F) = .ok (octets o.stdout)) ∧
    (∀ L argsL argsT, files.Writable (.ofText L) → Sets .listing L args argsL →
      Sets .format "listing" args argsT →
      ∃ oL oT, run argsL env files = .ok oL ∧ run argsT env files = .ok oT ∧
        oL.exitCode = 0 ∧ oT.exitCode = 0 ∧ oL.stdout = o.stdout ∧
        oL.files.read (.ofText L) = .ok (octets oT.stdout)) ∧
    ∀ F L argsF argsFL argsT, files.Writable (.ofText F) → files.Writable (.ofText L) →
      files.locate (Files.Path.ofText F).text ≠ files.locate (Files.Path.ofText L).text →
      Sets .output F args argsF → Sets .listing L argsF argsFL →
      Sets .format "listing" args argsT →
      ∃ oF oFL oT, run argsF env files = .ok oF ∧ run argsFL env files = .ok oFL ∧
        run argsT env files = .ok oT ∧ oFL.exitCode = 0 ∧ oT.exitCode = 0 ∧
        oFL.stdout = oF.stdout ∧
        oFL.files.read (.ofText F) = oF.files.read (.ofText F) ∧
        oFL.files.read (.ofText L) = .ok (octets oT.stdout) := by
  obtain ⟨s, t, hready, hout⟩ := hcalls.exists_prepared houtput hrun hexit
  rw [hout]
  refine ⟨fun F argsF hF hsets => hcalls.exists_output hready hlisting hF hsets,
    fun L argsL argsT hL hsets hT => ?_, fun F L argsF argsFL argsT hF hL hne hsets hsets' hT => ?_⟩
  · obtain ⟨oT, hrunT, hexitT, houtT⟩ := hcalls.exists_listing hready houtput hlisting hT
    obtain ⟨oL, hrunL, hexitL, houtL, hreadL⟩ :=
      hcalls.exists_withListing hready houtput hL hsets
    exact ⟨oL, oT, hrunL, hrunT, hexitL, hexitT, houtL, houtT ▸ hreadL⟩
  · obtain ⟨oT, hrunT, hexitT, houtT⟩ := hcalls.exists_listing hready houtput hlisting hT
    obtain ⟨oF, hrunF, -, houtF, hreadF⟩ := hcalls.exists_output hready hlisting hF hsets
    obtain ⟨oFL, hrunFL, hexitFL, houtFL, hreadFL, hreadL⟩ :=
      hcalls.exists_both hready hF hL hne hsets hsets'
    exact ⟨oF, oFL, oT, hrunF, hrunFL, hrunT, hexitFL, hexitT, houtFL.trans houtF.symm,
      hreadFL.trans hreadF.symm, houtT ▸ hreadL⟩

/-- A working directory with the definition of one instruction. -/
def nopFiles : Files.OctetStore :=
  specimen nopDefinition

def nopArgs : List String :=
  ["isa.json"]

def nopRequest : Request :=
  { source := some (.ofText "isa.json") }

def fileArgs : List String :=
  ["isa.json", "-o", "out.c"]

def bothArgs : List String :=
  ["isa.json", "--listing=syntax.txt", "-oout.c"]

def listingArgs : List String :=
  ["-f", "LISTING", "--format", "listing", "isa.json"]

/-- One instruction on three routes, with the options spelled in different ways. -/
theorem routes_agree_nop :
    ∃ oF oFL oT, run fileArgs [] nopFiles = .ok oF ∧ run bothArgs [] nopFiles = .ok oFL ∧
      run listingArgs [] nopFiles = .ok oT ∧
      oFL.exitCode = 0 ∧ oT.exitCode = 0 ∧ oFL.stdout = oF.stdout ∧
      oFL.files.read (.ofText "out.c") = oF.files.read (.ofText "out.c") ∧
      oFL.files.read (.ofText "syntax.txt") = .ok (octets oT.stdout) := by
  have hcalls : Calls nopFiles nopArgs nopRequest := ⟨_, rfl, rfl, by decide +kernel⟩
  have hexit : ((follow [] nopFiles nopRequest).outcome nopRequest.verbose).exitCode = 0 := by
    decide +kernel
  have hF : nopFiles.Writable (.ofText "out.c") :=
    ⟨["work", "out.c"], Result.toOption_eq_some.mp (by decide +kernel), by decide, by decide⟩
  have hL : nopFiles.Writable (.ofText "syntax.txt") :=
    ⟨["work", "syntax.txt"], Result.toOption_eq_some.mp (by decide +kernel), by decide, by decide⟩
  have hne : nopFiles.locate (Files.Path.ofText "out.c").text ≠
      nopFiles.locate (Files.Path.ofText "syntax.txt").text := by decide +kernel
  have hsets : Sets .output "out.c" nopArgs fileArgs :=
    ⟨_, _, rfl, rfl, rfl, funext fun s => by cases s <;> rfl⟩
  have hsets' : Sets .listing "syntax.txt" fileArgs bothArgs :=
    ⟨_, _, rfl, rfl, rfl, funext fun s => by cases s <;> rfl⟩
  have hT : Sets .format "listing" nopArgs listingArgs :=
    ⟨_, _, rfl, rfl, rfl, funext fun s => by cases s <;> rfl⟩
  obtain ⟨-, -, hboth⟩ := routes_agree hcalls rfl rfl (run_of_calls hcalls []) hexit
  exact hboth _ _ _ _ _ hF hL hne hsets hsets' hT

end Routes

end Command
end AssemblerTables
