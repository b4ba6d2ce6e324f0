/-
What a command line asks for.

Of an option only the last use counts.  So a command line is known by the value that each
switch has in it and by its operands, however the options are spelled and in whatever order
they stand: these decide whether it is accepted and what request it makes.  To give a
switch another value is then to change one field of the request.
-/
import AssemblerTables.Command.Run
import AssemblerTables.Proofs.Files.Path
import AssemblerTables.Proofs.Result
import Mathlib.Logic.Function.Basic

namespace AssemblerTables
namespace Command

/-- The values of the switches that are used. -/
abbrev Values : Type := Switch → Option String

namespace Request

/-! ## Values -/

/-- Can the switch have the value? -/
def Accepts (files : Files.OctetStore) (s : Switch) (value : String) : Prop :=
  match s with
  | .output => ∃ path, outputPath files .output value = .ok path
  | .listing => ∃ path, outputPath files .listing value = .ok path
  | .format => ∃ f, formatOf value = .ok f
  | .keywordsPerRow => ∃ n, rowWidth value = .ok n
  | _ => True

/-- The request with an accepted value for a switch. -/
def set (r : Request) (s : Switch) (value : String) : Request :=
  match s with
  | .output => { r with output := some (.ofText value) }
  | .listing => { r with listing := some (.ofText value) }
  | .format => { r with format := (Format.ofName? value).getD .c }
  | .stem => { r with stem := some value }
  | .keywordsPerRow => { r with keywordsPerRow := Numeral.read? .decimal value }
  | .verbose => { r with verbose := true }
  | .version => r
  | .help => r

section Apply

variable {files : Files.OctetStore} {s : Switch} {value : String}

theorem outputPath_eq_ok {path : Files.Path} (h : outputPath files s value = .ok path) :
    path = .ofText value := by
  rw [outputPath] at h
  split at h
  · cases h
  · cases h
  · exact (Except.ok.inj h).symm

/-- What is written to in the end can be asked for. -/
theorem outputPath_of_writable (h : files.Writable (.ofText value)) :
    outputPath files s value = .ok (.ofText value) := by
  obtain ⟨place, hlocate, hdirectory, -⟩ := h
  rw [outputPath]
  split
  · rename_i hfind
    obtain ⟨raw, hraw, hat⟩ := Result.bind_eq_ok.mp hfind
    rw [← Files.Store.locate_plain hraw hlocate] at hdirectory
    cases hentry : files.at? raw with
    | none =>
        rw [hentry] at hat
        cases hat
    | some entry =>
        rw [hentry] at hat hdirectory
        cases hat
        exact absurd rfl hdirectory
  · rename_i hfind
    exact absurd hfind (Files.Store.find_ne_nullCharacter hlocate)
  · rfl

theorem formatOf_eq_ok {f : Format} : formatOf value = .ok f ↔ Format.ofName? value = some f := by
  rw [formatOf]
  cases Format.ofName? value with
  | none => simp
  | some g => simp

theorem rowWidth_eq_ok {n : Int} (h : rowWidth value = .ok n) :
    Numeral.read? .decimal value = some n := by
  rw [rowWidth] at h
  cases hread : Numeral.read? .decimal value with
  | none =>
      rw [hread] at h
      cases h
  | some m =>
      rw [hread] at h
      dsimp only at h
      split at h
      · cases h
      · rw [Except.ok.inj h]

theorem apply_eq_ok {r r' : Request} :
    apply files r s value = .ok r' ↔ Accepts files s value ∧ r' = r.set s value := by
  cases s with
  | output => exact Result.bind_pure_eq_ok fun path h => by rw [outputPath_eq_ok h]; rfl
  | listing => exact Result.bind_pure_eq_ok fun path h => by rw [outputPath_eq_ok h]; rfl
  | format => exact Result.bind_pure_eq_ok fun f h => by rw [set, formatOf_eq_ok.mp h]; rfl
  | keywordsPerRow => exact Result.bind_pure_eq_ok fun n h => by rw [set, rowWidth_eq_ok h]
  | stem => simp [apply, Accepts, set, eq_comm]
  | verbose => simp [apply, Accepts, set, eq_comm]
  | version => simp [apply, Accepts, set, eq_comm]
  | help => simp [apply, Accepts, set, eq_comm]

end Apply

/-! ## All values of a command line -/

/-- The request that values and operands make. -/
def ofValues (values : Values) (operands : List String) : Request :=
  { source := operands.head?.map .ofText,
    output := (values .output).map .ofText,
    listing := (values .listing).map .ofText,
    format := ((values .format).bind Format.ofName?).getD .c,
    stem := values .stem,
    keywordsPerRow := (values .keywordsPerRow).bind (Numeral.read? .decimal),
    verbose := (values .verbose).isSome }

theorem ofValues_update (values : Values) (operands : List String) {s : Switch} (value : String) :
    ofValues (Function.update values s (some value)) operands =
      (ofValues values operands).set s value := by
  cases s <;> rfl

theorem lookup_eq_none {uses : List (Switch × String)} {s : Switch} :
    uses.lookup s = none ↔ s ∉ uses.map Prod.fst := by
  rw [List.lookup_eq_none_iff]
  constructor
  · intro h hmem
    obtain ⟨u, hu, rfl⟩ := List.mem_map.mp hmem
    exact bne_iff_ne.mp (h u hu) rfl
  · exact fun h u hu => bne_iff_ne.mpr fun hsame => h (hsame ▸ List.mem_map_of_mem hu)

/-- The values after the last of the uses. -/
theorem lookup_concat {uses : List (Switch × String)} {s : Switch} (hs : s ∉ uses.map Prod.fst)
    (value : String) :
    (fun t => (uses ++ [(s, value)]).lookup t) =
      Function.update (fun t => uses.lookup t) s (some value) := by
  funext t
  rw [List.lookup_append, Arrival.lookup_cons]
  by_cases ht : t = s
  · rw [ht, Function.update_self, lookup_eq_none.mpr hs, if_pos rfl, Option.none_or]
  · rw [Function.update_of_ne ht, if_neg ht, List.lookup_nil, Option.or_none]

theorem applyAll_concat (files : Files.OctetStore) (r : Request) (uses : List (Switch × String))
    (s : Switch) (value : String) :
    applyAll files r (uses ++ [(s, value)]) =
      applyAll files r uses >>= fun r => apply files r s value := by
  induction uses generalizing r with
  | nil =>
      show (apply files r s value >>= fun r => Except.ok r) = apply files r s value
      cases apply files r s value <;> rfl
  | cons u rest ih =>
      show (apply files r u.1 u.2 >>= fun r => applyAll files r (rest ++ [(s, value)])) =
        (apply files r u.1 u.2 >>= fun r => applyAll files r rest) >>= _
      cases apply files r u.1 u.2 with
      | error f => rfl
      | ok next => exact ih next

def AllAccepted (files : Files.OctetStore) (values : Values) : Prop :=
  ∀ s value, values s = some value → Accepts files s value

section Accepted

variable {files : Files.OctetStore} {values : Values} {s : Switch} {value : String}

theorem AllAccepted.update (h : AllAccepted files values) (hvalue : Accepts files s value) :
    AllAccepted files (Function.update values s (some value)) := by
  intro t v hv
  by_cases ht : t = s
  · rw [ht, Function.update_self] at hv
    rw [ht, ← Option.some.inj hv]
    exact hvalue
  · rw [Function.update_of_ne ht] at hv
    exact h t v hv

theorem allAccepted_update (hs : values s = none) :
    AllAccepted files (Function.update values s (some value)) ↔
      AllAccepted files values ∧ Accepts files s value := by
  refine ⟨fun h => ⟨fun t v hv => ?_, ?_⟩, fun h => h.1.update h.2⟩
  · have hne : t ≠ s := by
      rintro rfl
      rw [hs] at hv
      cases hv
    exact h t v (by rw [Function.update_of_ne hne, hv])
  · exact h s value (Function.update_self ..)

end Accepted

/-- Values are accepted one by one, and their order decides nothing but the fault. -/
theorem applyAll_eq_ok {files : Files.OctetStore} {uses : List (Switch × String)} {r : Request}
    (h : (uses.map Prod.fst).Nodup) :
    applyAll files {} uses = .ok r ↔
      AllAccepted files (fun s => uses.lookup s) ∧ r = ofValues (fun s => uses.lookup s) [] := by
  induction uses using List.reverseRecOn generalizing r with
  | nil =>
      have haccepted : AllAccepted files fun s => [].lookup s := fun _ _ h => by cases h
      show Except.ok {} = Except.ok r ↔ _
      rw [Except.ok.injEq]
      exact ⟨fun h => ⟨haccepted, h.symm⟩, fun h => h.2.symm⟩
  | append_singleton before u ih =>
      obtain ⟨s, value⟩ := u
      rw [List.map_append, List.nodup_append] at h
      have hs : s ∉ before.map Prod.fst := fun hmem => h.2.2 s hmem s List.mem_cons_self rfl
      rw [applyAll_concat, Result.bind_eq_ok, lookup_concat hs, ofValues_update,
        allAccepted_update (lookup_eq_none.mpr hs)]
      constructor
      · rintro ⟨r₀, hr₀, happly⟩
        obtain ⟨hbefore, rfl⟩ := (ih h.1).mp hr₀
        obtain ⟨hlast, rfl⟩ := apply_eq_ok.mp happly
        exact ⟨⟨hbefore, hlast⟩, rfl⟩
      · rintro ⟨⟨hbefore, hlast⟩, rfl⟩
        exact ⟨_, (ih h.1).mpr ⟨hbefore, rfl⟩, apply_eq_ok.mpr ⟨hlast, rfl⟩⟩

/-! ## Operands -/

/-- Can these be the operands?  There may be one, and it has to be a file to read. -/
def OperandsAccepted (files : Files.OctetStore) : List String → Prop
  | [] => True
  | [text] => ∃ path, sourcePath files text = .ok path
  | _ => False

theorem sourcePath_eq_ok {files : Files.OctetStore} {text : String} {path : Files.Path}
    (h : sourcePath files text = .ok path) : path = .ofText text := by
  rw [sourcePath] at h
  split at h
  · cases h
  · cases h
  · cases h
  · cases h
  · exact (Except.ok.inj h).symm

theorem withOperands_eq_ok {files : Files.OctetStore} {values : Values} {operands : List String}
    {r : Request} :
    withOperands files (ofValues values []) operands = .ok r ↔
      OperandsAccepted files operands ∧ r = ofValues values operands := by
  cases operands with
  | nil =>
      show Except.ok (ofValues values []) = Except.ok r ↔ _
      rw [Except.ok.injEq]
      exact ⟨fun h => ⟨trivial, h.symm⟩, fun h => h.2.symm⟩
  | cons text extra =>
      cases extra with
      | nil => exact Result.bind_pure_eq_ok fun path h => by rw [sourcePath_eq_ok h]; rfl
      | cons next others =>
          refine iff_of_false (fun h => ?_) fun h => h.1
          obtain ⟨path, -, h⟩ := Result.bind_eq_ok.mp h
          cases h

/-! ## Command lines -/

def valuesOf (items : List Item) : Values :=
  fun s => (uses items).lookup s

theorem nodup_uses (items : List Item) : ((uses items).map Prod.fst).Nodup :=
  Arrival.nodup_keys_ofList Prod.fst _

/-- The request of a command line, if there is one. -/
theorem ofItems_eq_ok {files : Files.OctetStore} {items : List Item} {r : Request} :
    ofItems files items = .ok r ↔
      (AllAccepted files (valuesOf items) ∧ OperandsAccepted files (operands items)) ∧
        r = ofValues (valuesOf items) (operands items) := by
  rw [ofItems, Result.bind_eq_ok]
  constructor
  · rintro ⟨r₀, hr₀, h⟩
    obtain ⟨hvalues, rfl⟩ := (applyAll_eq_ok (nodup_uses items)).mp hr₀
    obtain ⟨hoperands, rfl⟩ := withOperands_eq_ok.mp h
    exact ⟨⟨hvalues, hoperands⟩, rfl⟩
  · rintro ⟨⟨hvalues, hoperands⟩, rfl⟩
    exact ⟨_, (applyAll_eq_ok (nodup_uses items)).mpr ⟨hvalues, rfl⟩,
      withOperands_eq_ok.mpr ⟨hoperands, rfl⟩⟩

/-- No option answers at once if none of those that would is used. -/
theorem immediate?_eq_none {items : List Item} :
    immediate? items = none ↔ ∀ s, s.isImmediate = true → valuesOf items s = none := by
  rw [immediate?, List.find?_eq_none]
  constructor
  · exact fun h s hs => lookup_eq_none.mpr fun hmem => h s hmem hs
  · exact fun h s hmem hs => lookup_eq_none.mp (h s hs) hmem

end Request

/-! ## Calls -/

/-- Are the arguments a call that is followed, with this request? -/
def Calls (files : Files.OctetStore) (args : List String) (r : Request) : Prop :=
  ∃ items, scan args = .ok items ∧ Request.immediate? items = none ∧
    Request.ofItems files items = .ok r

/-- Do the second arguments say what the first say, but that the switch has the value? -/
def Sets (s : Switch) (value : String) (args args' : List String) : Prop :=
  ∃ items items', scan args = .ok items ∧ scan args' = .ok items' ∧
    Request.operands items' = Request.operands items ∧
    Request.valuesOf items' = Function.update (Request.valuesOf items) s (some value)

/-- A call has one request. -/
theorem Calls.unique {files : Files.OctetStore} {args : List String} {r r' : Request}
    (h : Calls files args r) (h' : Calls files args r') : r = r' := by
  obtain ⟨items, hscan, -, hitems⟩ := h
  obtain ⟨items', hscan', -, hitems'⟩ := h'
  cases hscan.symm.trans hscan'
  exact Except.ok.inj (hitems.symm.trans hitems')

theorem run_of_calls {files : Files.OctetStore} {args : List String} {r : Request}
    (h : Calls files args r) (env : Settings.Environment) :
    run args env files = .ok ((follow env files r).outcome r.verbose) := by
  obtain ⟨items, hscan, himmediate, hitems⟩ := h
  rw [run, hscan]
  show runItems env files items = _
  rw [runItems, himmediate, hitems]

/-- Giving a switch another value changes the request in the field of the switch. -/
theorem Calls.sets {files : Files.OctetStore} {args args' : List String} {r : Request}
    {s : Switch} {value : String} (h : Calls files args r) (hargs : Sets s value args args')
    (hs : s.isImmediate = false) (hvalue : Request.Accepts files s value) :
    Calls files args' (r.set s value) := by
  obtain ⟨items, hscan, himmediate, hitems⟩ := h
  obtain ⟨_, items', hscan', hargs', hoperands, hvalues⟩ := hargs
  cases hscan.symm.trans hscan'
  obtain ⟨⟨haccepted, hsource⟩, rfl⟩ := Request.ofItems_eq_ok.mp hitems
  refine ⟨items', hargs', ?_, ?_⟩
  · rw [Request.immediate?_eq_none] at himmediate ⊢
    intro t ht
    have hne : t ≠ s := by
      rintro rfl
      rw [hs] at ht
      cases ht
    rw [hvalues, Function.update_of_ne hne]
    exact himmediate t ht
  · rw [Request.ofItems_eq_ok, hvalues, hoperands, Request.ofValues_update]
    exact ⟨⟨haccepted.update hvalue, hsource⟩, rfl⟩

end Command
end AssemblerTables
