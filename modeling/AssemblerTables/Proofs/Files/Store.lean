/-
What writing a file changes in a store: the place that the path leads to, and nothing else.

A path is followed through directories only, and a file is never written over one.  So a
path that led somewhere before the write leads there still, and what can be read, written
or found at any other place stays as it was.  For this the way to the place has to be there
already (`WayTo`), or writing would make directories; following a path sees to it.
-/
import AssemblerTables.Files.Store
import AssemblerTables.Proofs.Result

namespace AssemblerTables

namespace Arrival

variable {κ β : Type} [DecidableEq κ] [BEq κ] [LawfulBEq κ]

theorem lookup_cons (k : κ) (x : κ × β) (l : List (κ × β)) :
    (x :: l).lookup k = if k = x.1 then some x.2 else l.lookup k := by
  show (match k == x.1 with | true => some x.2 | false => l.lookup k) = _
  by_cases hk : k = x.1
  · have hsame : (k == x.1) = true := beq_iff_eq.mpr hk
    rw [hsame, if_pos hk]
  · have hother : (k == x.1) = false := beq_eq_false_iff_ne.mpr hk
    rw [hother, if_neg hk]

theorem lookup_put (k : κ) (x : κ × β) (l : List (κ × β)) :
    (put Prod.fst x l).lookup k = if k = x.1 then some x.2 else l.lookup k := by
  induction l with
  | nil => rw [put, lookup_cons]
  | cons y rest ih =>
      rw [put]
      by_cases hy : y.1 = x.1
      · rw [if_pos hy, lookup_cons, lookup_cons, hy]
        by_cases hk : k = x.1
        · rw [if_pos hk, if_pos hk]
        · rw [if_neg hk, if_neg hk, if_neg hk]
      · rw [if_neg hy, lookup_cons, lookup_cons, ih]
        by_cases hk : k = x.1
        · have hne : ¬ k = y.1 := fun h => hy (h.symm.trans hk)
          rw [if_neg hne, if_pos hk, if_pos hk]
        · rw [if_neg hk, if_neg hk]

/-- Putting what is there already changes nothing. -/
theorem put_eq_self {x : κ × β} {l : List (κ × β)} (h : l.lookup x.1 = some x.2) :
    put Prod.fst x l = l := by
  induction l with
  | nil => cases h
  | cons y rest ih =>
      rw [lookup_cons] at h
      rw [put]
      by_cases hy : y.1 = x.1
      · rw [if_pos hy.symm] at h
        rw [if_pos hy, Prod.ext hy (Option.some.inj h)]
      · have hne : ¬ x.1 = y.1 := fun e => hy e.symm
        rw [if_neg hne] at h
        rw [if_neg hy, ih h]

end Arrival

namespace Files
namespace Store

variable {α : Type} {s s' : Store α} {place : Place} {path : Path} {content : α}

/-! ## What is at a place -/

/-- Does the way to the working directory or to an entry lead through the place? -/
def Passes (s : Store α) (p : Place) : Prop :=
  p <+: s.here ∨ ∃ e ∈ s.entries, p <+: e.1

theorem at?_of_lookup {p : Place} {entry : Entry α} (h : s.entries.lookup p = some entry) :
    s.at? p = some entry := by
  rw [at?, h]

theorem passes_iff {p : Place} :
    (p.isPrefixOf s.here || s.entries.any fun e => p.isPrefixOf e.1) = true ↔ s.Passes p := by
  simp only [Passes, Bool.or_eq_true, List.any_eq_true, List.isPrefixOf_iff_prefix]

theorem at?_of_passes {p : Place} (h : s.entries.lookup p = none) (hp : s.Passes p) :
    s.at? p = some .directory := by
  rw [at?, h]
  exact if_pos (passes_iff.mpr hp)

theorem at?_of_not_passes {p : Place} (h : s.entries.lookup p = none) (hp : ¬ s.Passes p) :
    s.at? p = none := by
  rw [at?, h]
  exact if_neg fun hpass => hp (passes_iff.mp hpass)

theorem passes_of_lookup {p : Place} {entry : Entry α} (h : s.entries.lookup p = some entry) :
    s.Passes p := by
  apply Classical.byContradiction
  intro hp
  have hnone : s.entries.lookup p = none := by
    rw [List.lookup_eq_none_iff]
    intro e he
    have hne : p ≠ e.1 := fun hsame => hp (.inr ⟨e, he, hsame ▸ List.prefix_refl _⟩)
    exact bne_iff_ne.mpr hne
  rw [hnone] at h
  cases h

/-- There is something exactly where a way leads through. -/
theorem at?_eq_none {p : Place} : s.at? p = none ↔ ¬ s.Passes p := by
  cases hlookup : s.entries.lookup p with
  | some entry =>
      rw [at?_of_lookup hlookup]
      exact iff_of_false (Option.some_ne_none _) fun h => h (passes_of_lookup hlookup)
  | none =>
      by_cases hp : s.Passes p
      · rw [at?_of_passes hlookup hp]
        exact iff_of_false (Option.some_ne_none _) fun h => h hp
      · exact iff_of_true (at?_of_not_passes hlookup hp) hp

theorem Passes.of_prefix {p q : Place} (hpq : p <+: q) (hq : s.Passes q) : s.Passes p := by
  rcases hq with hhere | ⟨e, he, hqe⟩
  · exact .inl (hpq.trans hhere)
  · exact .inr ⟨e, he, hpq.trans hqe⟩

/-! ## Ways -/

/-- Is there something at every place before the last on the way to this one? -/
def WayTo (s : Store α) (place : Place) : Prop :=
  ∀ p, p <+: place → p ≠ place → s.Passes p

theorem Passes.wayTo (h : s.Passes place) : s.WayTo place :=
  fun _ hp _ => h.of_prefix hp

theorem passes_of_at? {entry : Entry α} (h : s.at? place = some entry) : s.Passes place := by
  apply Classical.byContradiction
  intro hp
  rw [at?_eq_none.mpr hp] at h
  cases h

theorem wayTo_nil : s.WayTo [] :=
  fun _ hp hne => absurd (List.prefix_nil.mp hp) hne

theorem wayTo_here : s.WayTo s.here :=
  Passes.wayTo (.inl (List.prefix_refl _))

/-! ## Steps -/

/-- What a step can do, and where it can be taken. -/
theorem step_cases {p next : Place} {name : String} (h : s.step p name = .ok next) :
    s.at? p = some .directory ∧ (next = p ∨ next = p.dropLast ∨ next = p ++ [name]) := by
  rw [step] at h
  cases hat : s.at? p with
  | none =>
      rw [hat] at h
      cases h
  | some entry =>
      rw [hat] at h
      cases entry with
      | file content => cases h
      | locked => cases h
      | directory =>
          refine ⟨rfl, ?_⟩
          dsimp only at h
          split at h
          · exact .inl (Except.ok.inj h).symm
          · split at h
            · exact .inr (.inl (Except.ok.inj h).symm)
            · split at h
              · cases h
              · exact .inr (.inr (Except.ok.inj h).symm)

/-- A step that stays where it is. -/
theorem step_stay {p : Place} {name : String} (hp : s.at? p = some .directory)
    (hname : name = "" ∨ name = ".") : s.step p name = .ok p := by
  rw [step, hp]
  exact if_pos hname

theorem wayTo_of_step {p next : Place} {name : String} (h : s.step p name = .ok next) :
    s.WayTo next := by
  obtain ⟨hat, hnext⟩ := step_cases h
  have hpass : s.Passes p := passes_of_at? hat
  rcases hnext with rfl | rfl | rfl
  · exact hpass.wayTo
  · exact (hpass.of_prefix (List.dropLast_prefix p)).wayTo
  · intro q hq hne
    rcases List.prefix_concat_iff.mp hq with rfl | hbefore
    · exact absurd rfl hne
    · exact hpass.of_prefix hbefore

theorem wayTo_of_walk {p q : Place} {names : List String} (hp : s.WayTo p)
    (h : s.walk p names = .ok q) : s.WayTo q := by
  induction names generalizing p with
  | nil =>
      cases h
      exact hp
  | cons name rest ih =>
      obtain ⟨next, hstep, hrest⟩ := Result.bind_eq_ok.mp h
      exact ih (wayTo_of_step hstep) hrest

/-- A path that leads anywhere is followed from the top or from the working directory. -/
theorem locate_eq_ok {path : String} :
    s.locate path = .ok place ↔ '\x00' ∉ path.toList ∧ path ≠ "" ∧
      path.utf8ByteSize ≤ pathLimit ∧
      s.walk (if path.toList.head? = some '/' then [] else s.here)
        ((Text.pieces '/' path.toList).map String.ofList) = .ok place := by
  rw [locate]
  split
  · rename_i hnull
    simp_all
  · split
    · rename_i hempty
      simp_all
    · split
      · rename_i hlong
        simp
        omega
      · rename_i hnull hempty hshort
        simp_all

theorem wayTo_of_locate {path : String} (h : s.locate path = .ok place) : s.WayTo place := by
  obtain ⟨-, -, -, hwalk⟩ := locate_eq_ok.mp h
  refine wayTo_of_walk ?_ hwalk
  split
  · exact wayTo_nil
  · exact wayTo_here

/-! ## Putting an entry at the end of a way -/

theorem lookup_entries_put (p : Place) (entry : Entry α) :
    (s.put place entry).entries.lookup p =
      if p = place then some entry else s.entries.lookup p :=
  Arrival.lookup_put p (place, entry) s.entries

theorem passes_put {p : Place} {entry : Entry α} :
    (s.put place entry).Passes p ↔ s.Passes p ∨ p <+: place := by
  have hkeys (l : List (Place × Entry α)) :
      (∃ e ∈ l, p <+: e.1) ↔ ∃ k ∈ l.map Prod.fst, p <+: k := by
    constructor
    · rintro ⟨e, he, hpe⟩
      exact ⟨e.1, List.mem_map_of_mem he, hpe⟩
    · rintro ⟨k, hk, hpk⟩
      obtain ⟨e, he, rfl⟩ := List.mem_map.mp hk
      exact ⟨e, he, hpk⟩
  rw [Passes, Passes, hkeys, hkeys, or_assoc]
  refine or_congr_right ?_
  simp only [put, Arrival.mem_keys_put]
  constructor
  · rintro ⟨k, hk | rfl, hpk⟩
    · exact .inl ⟨k, hk, hpk⟩
    · exact .inr hpk
  · rintro (⟨k, hk, hpk⟩ | hpk)
    · exact ⟨k, .inl hk, hpk⟩
    · exact ⟨place, .inr rfl, hpk⟩

/-- The new entry is found at its place, and at all other places what was there before. -/
theorem at?_put (h : s.WayTo place) (entry : Entry α) (p : Place) :
    (s.put place entry).at? p = if p = place then some entry else s.at? p := by
  by_cases hp : p = place
  · rw [if_pos hp, at?, lookup_entries_put, if_pos hp]
  · have hlookup : (s.put place entry).entries.lookup p = s.entries.lookup p := by
      rw [lookup_entries_put, if_neg hp]
    rw [if_neg hp]
    cases hold : s.entries.lookup p with
    | some found => rw [at?_of_lookup hold, at?_of_lookup (hlookup.trans hold)]
    | none =>
        rw [hold] at hlookup
        by_cases hpass : s.Passes p
        · rw [at?_of_passes hold hpass, at?_of_passes hlookup (passes_put.mpr (.inl hpass))]
        · have hnew : ¬ (s.put place entry).Passes p := fun hput =>
            hpass ((passes_put.mp hput).elim id fun hprefix => h p hprefix hp)
          rw [at?_of_not_passes hold hpass, at?_of_not_passes hlookup hnew]

/-! ## Following paths past a new entry -/

/-- A step that can be taken can be taken after a file has been put where no directory is. -/
theorem step_put {entry : Entry α} (h : s.WayTo place) (hplace : s.at? place ≠ some .directory)
    {p next : Place} {name : String} (hstep : s.step p name = .ok next) :
    (s.put place entry).step p name = .ok next := by
  have hat := (step_cases hstep).1
  have hne : p ≠ place := fun hsame => hplace (hsame ▸ hat)
  have hput := at?_put h entry p
  rw [if_neg hne] at hput
  rw [step, hput]
  exact hstep

theorem walk_put {entry : Entry α} (h : s.WayTo place) (hplace : s.at? place ≠ some .directory)
    {p q : Place} {names : List String} (hwalk : s.walk p names = .ok q) :
    (s.put place entry).walk p names = .ok q := by
  induction names generalizing p with
  | nil => exact hwalk
  | cons name rest ih =>
      obtain ⟨next, hstep, hrest⟩ := Result.bind_eq_ok.mp hwalk
      exact Result.bind_eq_ok.mpr ⟨next, step_put h hplace hstep, ih hrest⟩

theorem locate_put {entry : Entry α} (h : s.WayTo place) (hplace : s.at? place ≠ some .directory)
    {path : String} {q : Place} (hq : s.locate path = .ok q) :
    (s.put place entry).locate path = .ok q := by
  rw [locate_eq_ok] at hq ⊢
  obtain ⟨hnull, hempty, hlength, hwalk⟩ := hq
  exact ⟨hnull, hempty, hlength, walk_put h hplace hwalk⟩

/-! ## Writing and reading -/

/-- Does the path lead to a place where a file can be written? -/
def Writable (s : Store α) (path : Path) : Prop :=
  ∃ place, s.locate path.text = .ok place ∧ s.at? place ≠ some .directory ∧
    s.at? place ≠ some .locked

theorem writeCause_eq_ok {path : String} :
    s.writeCause path content = .ok s' ↔ ∃ place, s.locate path = .ok place ∧
      s.at? place ≠ some .directory ∧ s.at? place ≠ some .locked ∧
        s' = s.put place (.file content) := by
  rw [writeCause, Result.bind_eq_ok]
  refine exists_congr fun place => and_congr_right fun _ => ?_
  cases hat : s.at? place with
  | none => simp [pure, Except.pure, eq_comm]
  | some entry =>
      cases entry with
      | directory => simp
      | locked => simp
      | file old => simp [pure, Except.pure, eq_comm]

theorem write_eq_ok :
    s.write path content = .ok s' ↔ ∃ place, s.locate path.text = .ok place ∧
      s.at? place ≠ some .directory ∧ s.at? place ≠ some .locked ∧
        s' = s.put place (.file content) := by
  rw [write, Result.mapError_eq_ok, writeCause_eq_ok]

/-- What can be written does not depend on the content. -/
theorem Writable.exists_write (h : s.Writable path) (content : α) :
    ∃ s', s.write path content = .ok s' := by
  obtain ⟨place, hlocate, hdirectory, hlocked⟩ := h
  exact ⟨_, write_eq_ok.mpr ⟨place, hlocate, hdirectory, hlocked, rfl⟩⟩

theorem readCause_eq_ok {path : String} :
    s.readCause path = .ok content ↔ ∃ place, s.locate path = .ok place ∧
      s.at? place = some (.file content) := by
  rw [readCause, find]
  cases s.locate path with
  | error cause => simp [bind, Except.bind]
  | ok place =>
      cases hat : s.at? place with
      | none => simp [bind, Except.bind, hat]
      | some entry => cases entry <;> simp [bind, Except.bind, pure, Except.pure, hat]

theorem read_eq_ok :
    s.read path = .ok content ↔ ∃ place, s.locate path.text = .ok place ∧
      s.at? place = some (.file content) := by
  rw [read, Result.mapError_eq_ok, readCause_eq_ok]

/-- What was written is read. -/
theorem read_write (h : s.write path content = .ok s') : s'.read path = .ok content := by
  obtain ⟨place, hlocate, hdirectory, -, rfl⟩ := write_eq_ok.mp h
  have hway := wayTo_of_locate hlocate
  refine read_eq_ok.mpr ⟨place, locate_put hway hdirectory hlocate, ?_⟩
  rw [at?_put hway, if_pos rfl]

theorem lookup_of_at? (h : s.at? place = some (.file content)) :
    s.entries.lookup place = some (.file content) := by
  cases hlookup : s.entries.lookup place with
  | some entry => rw [← at?_of_lookup hlookup, h]
  | none =>
      rw [at?_of_passes hlookup (passes_of_at? h)] at h
      cases h

/-- Writing what a file holds already changes nothing, and writing anything else does. -/
theorem write_eq_self_iff (h : s.write path content = .ok s') :
    s' = s ↔ s.read path = .ok content := by
  constructor
  · intro hsame
    have hread := read_write h
    rw [hsame] at hread
    exact hread
  · intro hread
    obtain ⟨place, hlocate, -, -, rfl⟩ := write_eq_ok.mp h
    obtain ⟨place', hlocate', hat⟩ := read_eq_ok.mp hread
    cases hlocate.symm.trans hlocate'
    rw [put, Arrival.put_eq_self (lookup_of_at? hat)]

/-- A path that led somewhere leads there still. -/
theorem locate_write (h : s.write path content = .ok s') {other : String} {q : Place}
    (hq : s.locate other = .ok q) : s'.locate other = .ok q := by
  obtain ⟨place, hlocate, hdirectory, -, rfl⟩ := write_eq_ok.mp h
  exact locate_put (wayTo_of_locate hlocate) hdirectory hq

section Other

variable {other : Path} (h : s.write path content = .ok s')
  (hother : s.locate other.text ≠ s.locate path.text)
include h hother

/-- What was at another place is there still. -/
theorem at?_write {q : Place} (hq : s.locate other.text = .ok q) : s'.at? q = s.at? q := by
  obtain ⟨place, hlocate, -, -, rfl⟩ := write_eq_ok.mp h
  have hne : q ≠ place := by
    intro hsame
    rw [hq, hlocate, hsame] at hother
    exact hother rfl
  rw [at?_put (wayTo_of_locate hlocate), if_neg hne]

theorem writable_write (hwritable : s.Writable other) : s'.Writable other := by
  obtain ⟨q, hq, hdirectory, hlocked⟩ := hwritable
  rw [← at?_write h hother hq] at hdirectory hlocked
  exact ⟨q, locate_write h hq, hdirectory, hlocked⟩

theorem read_write_other {old : α} (hread : s.read other = .ok old) :
    s'.read other = .ok old := by
  obtain ⟨q, hq, hat⟩ := read_eq_ok.mp hread
  exact read_eq_ok.mpr ⟨q, locate_write h hq, (at?_write h hother hq).trans hat⟩

end Other

end Store
end Files
end AssemblerTables
