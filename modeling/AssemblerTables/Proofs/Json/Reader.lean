/-
Values in JSON text, apart from the bound on nested calls.

One call is a step over the readers that it calls in turn.  A step takes at least one
character before it calls itself again, so the nesting of calls is bounded by the length of
the text, and every bound that is large enough gives the same reading.  `valueAt`, `itemsAt`
and `membersAt` are the readings under enough calls, and their equations no longer speak of
the bound.
-/
import AssemblerTables.Proofs.Json.Scalars

namespace AssemblerTables
namespace Json

/-! ## Readers put together -/

section Parts

variable {α β : Type}

/-- What a reader reads, under another form. -/
def mapped (f : α → β) (r : List Char → Reading α) (s : List Char) : Reading β :=
  (r s).map fun (a, rest) => (f a, rest)

/-- One reader and then another, with space between them. -/
def followed (r : List Char → Reading α) (k : α → List Char → Reading β) (s : List Char) :
    Reading β :=
  (r s).bind fun (a, rest) => k a (skipSpace rest)

/-- What stands behind an opening bracket: the closing one, or parts. -/
def opened (close : Char) (empty : α) (parts : List Char → Reading α) :
    List Char → Reading α
  | [] => parts []
  | c :: rest => if c = close then .ok (empty, rest) else parts (c :: rest)

/-- What stands behind a part: the closing bracket, or a comma and further parts. -/
def continued (close : Char) (done : α) (parts : List Char → Reading α) :
    List Char → Reading α
  | [] => stop .comma []
  | c :: rest =>
    if c = close then .ok (done, rest)
    else if c = ',' then parts (skipSpace rest)
    else stop .comma (c :: rest)

variable {r r' : List Char → Reading α} {k k' : α → List Char → Reading β}
variable {close : Char} {done : α} {s : List Char}

theorem opened_of_head (h : s.head? ≠ some close) : opened close done r s = r s := by
  cases s with
  | nil => rfl
  | cons c rest => rw [opened, if_neg fun hc => h (congrArg some hc)]

theorem continued_of_head (hclose : s.head? ≠ some close) (hcomma : s.head? ≠ some ',') :
    continued close done r s = stop .comma s := by
  cases s with
  | nil => rfl
  | cons c rest =>
      rw [continued, if_neg fun hc => hclose (congrArg some hc),
        if_neg fun hc => hcomma (congrArg some hc)]

theorem head?_ne_of {c : Char} (h : ∀ rest, s = c :: rest → False) : s.head? ≠ some c :=
  fun hc => Exists.elim (List.head?_eq_some_iff.mp hc) h

/-! ### They take characters -/

theorem mapped_consumes (h : Consumes r) (f : α → β) : Consumes (mapped f r) := by
  intro s b rest hs
  obtain ⟨⟨a, left⟩, ha, hb⟩ := Result.map_eq_ok.mp hs
  cases hb
  exact h ha

theorem followed_consumes (h : Consumes r) (hk : ∀ a, Consumes (k a)) :
    Consumes (followed r k) := by
  intro s b rest hs
  obtain ⟨⟨a, left⟩, ha, hb⟩ := Result.bind_eq_ok.mp hs
  exact (h ha).of_isSuffix ((hk a hb).isSuffix.trans (skipSpace_isSuffix left))

theorem opened_consumes (h : Consumes r) : Consumes (opened close done r) := by
  intro s a rest hs
  cases s with
  | nil => exact h hs
  | cons c tail =>
      rw [opened] at hs
      split at hs
      · cases hs
        exact .cons List.suffix_rfl c
      · exact h hs

theorem continued_consumes (h : Consumes r) : Consumes (continued close done r) := by
  intro s a rest hs
  cases s with
  | nil => cases hs
  | cons c tail =>
      rw [continued] at hs
      split at hs
      · cases hs
        exact .cons List.suffix_rfl c
      · split at hs
        · exact (h hs).mono ((skipSpace_isSuffix tail).trans (List.suffix_cons c tail))
        · cases hs

/-! ### They depend on what they call where they call it -/

theorem mapped_congr (f : α → β) (h : r s = r' s) : mapped f r s = mapped f r' s := by
  rw [mapped, mapped, h]

theorem followed_congr (hr : r s = r' s) (hconsumes : Consumes r)
    (hk : ∀ a t, t.length < s.length → k a t = k' a t) : followed r k s = followed r' k' s := by
  rw [followed, followed, ← hr]
  cases hs : r s with
  | error e => rfl
  | ok read =>
      obtain ⟨a, rest⟩ := read
      exact hk a _ ((hconsumes hs).of_isSuffix (skipSpace_isSuffix rest)).length_lt

theorem opened_congr (h : r s = r' s) : opened close done r s = opened close done r' s := by
  cases s with
  | nil => exact h
  | cons c rest => rw [opened, opened, h]

theorem continued_congr (h : ∀ t, t.length < s.length → r t = r' t) :
    continued close done r s = continued close done r' s := by
  cases s with
  | nil => rfl
  | cons c rest =>
      have hshort : (skipSpace rest).length < (c :: rest).length :=
        (IsBehind.cons (skipSpace_isSuffix rest) c).length_lt
      rw [continued, continued, h _ hshort]

end Parts

/-! ## The name of a member -/

def colon (name : String) : List Char → Reading String
  | ':' :: rest => .ok (name, rest)
  | rest => stop .colon rest

def memberName : List Char → Reading String
  | '"' :: rest => followed string colon rest
  | s => stop .memberName s

theorem colon_settles (name : String) (s : List Char) : Settles s (colon name s) := by
  fun_cases colon name s with
  | case1 rest => exact .read (.cons List.suffix_rfl ':')
  | case2 => exact .stop _ _

theorem memberName_settles (s : List Char) : Settles s (memberName s) := by
  fun_cases memberName s with
  | case1 rest =>
      have hcolon := (string_settles rest).bind (k := fun name left => colon name (skipSpace left))
        fun name left => (colon_settles name (skipSpace left)).mono (skipSpace_isSuffix left)
      exact hcolon.mono (List.suffix_cons '"' rest)
  | case2 => exact .stop _ _

theorem memberName_consumes : Consumes memberName :=
  fun s _ _ h => (h ▸ memberName_settles s).isBehind

/-! ## One call -/

/-- A list, behind its bracket. -/
def listStep (items : List Char → Reading (List Value)) (s : List Char) : Reading Value :=
  opened ']' (.list []) (mapped .list items) (skipSpace s)

/-- An object, behind its brace. -/
def objectStep (members : List Char → Reading (List (String × Value))) (s : List Char) :
    Reading Value :=
  opened '\x7d' (.object []) (mapped .object members) (skipSpace s)

/-- The items of a list, at least one, and the closing bracket. -/
def itemsStep (value : List Char → Reading Value) (items : List Char → Reading (List Value)) :
    List Char → Reading (List Value) :=
  followed value fun v => continued ']' [v] (mapped (v :: ·) items)

/-- The members of an object, at least one, added to those read so far, and the closing
brace. -/
def membersStep (value : List Char → Reading Value)
    (members : List (String × Value) → List Char → Reading (List (String × Value)))
    (before : List (String × Value)) : List Char → Reading (List (String × Value)) :=
  followed memberName fun name =>
    followed value fun v => continued '\x7d' (put before name v) (members (put before name v))

/-- Does `s` start neither a list nor an object? -/
def IsFlat (s : List Char) : Prop :=
  s.head? ≠ some '[' ∧ s.head? ≠ some '\x7b'

theorem opens_or_isFlat (s : List Char) :
    (∃ rest, s = '[' :: rest) ∨ (∃ rest, s = '\x7b' :: rest) ∨ IsFlat s := by
  by_cases hlist : s.head? = some '['
  · exact .inl (List.head?_eq_some_iff.mp hlist)
  · by_cases hobject : s.head? = some '\x7b'
    · exact .inr (.inl (List.head?_eq_some_iff.mp hobject))
    · exact .inr (.inr ⟨hlist, hobject⟩)

theorem value_flat {s : List Char} (h : IsFlat s) (fuel : Nat) :
    value (fuel + 1) s = value 1 s := by
  rw [value.eq_def, value.eq_def]
  dsimp only
  split
  · rfl
  · exact absurd rfl h.1
  · exact absurd rfl h.2
  all_goals rfl

theorem value_list (fuel : Nat) (rest : List Char) :
    value (fuel + 1) ('[' :: rest) = listStep (items fuel) rest := by
  rw [value, listStep]
  generalize skipSpace rest = s
  split
  · rfl
  · rename_i hclose
    rw [opened_of_head (head?_ne_of hclose)]
    rfl

theorem value_object (fuel : Nat) (rest : List Char) :
    value (fuel + 1) ('\x7b' :: rest) = objectStep (members fuel []) rest := by
  rw [value, objectStep]
  generalize skipSpace rest = s
  split
  · rfl
  · rename_i hclose
    rw [opened_of_head (head?_ne_of hclose)]
    rfl

theorem items_succ (fuel : Nat) (s : List Char) :
    items (fuel + 1) s = itemsStep (value fuel) (items fuel) s := by
  rw [items, itemsStep, followed]
  cases value fuel s with
  | error e => rfl
  | ok read =>
      obtain ⟨v, rest⟩ := read
      dsimp only [Except.bind]
      generalize skipSpace rest = t
      split
      · rfl
      · rfl
      · rename_i hclose hcomma
        exact (continued_of_head (head?_ne_of hclose) (head?_ne_of hcomma)).symm

theorem members_succ (fuel : Nat) (before : List (String × Value)) (s : List Char) :
    members (fuel + 1) before s = membersStep (value fuel) (members fuel) before s := by
  rw [members.eq_def, membersStep, followed]
  dsimp only
  split
  · rename_i rest
    rw [memberName, followed]
    cases string rest with
    | error e => rfl
    | ok read =>
        obtain ⟨name, left⟩ := read
        dsimp only [Except.bind]
        generalize skipSpace left = t
        split
        · rename_i rest'
          rw [colon]
          dsimp only
          rw [followed]
          cases value fuel (skipSpace rest') with
          | error e => rfl
          | ok read =>
              obtain ⟨v, rest⟩ := read
              dsimp only [Except.bind]
              generalize skipSpace rest = t
              split
              · rfl
              · rfl
              · rename_i hclose hcomma
                exact (continued_of_head (head?_ne_of hclose) (head?_ne_of hcomma)).symm
        · rename_i hcolon
          rw [colon]
          · rfl
          · exact hcolon
  · rename_i hquote
    rw [memberName]
    · rfl
    · exact hquote

/-! ## Calls take characters -/

theorem flat_consumes {s rest : List Char} {v : Value} (hs : IsFlat s)
    (h : value 1 s = .ok (v, rest)) : IsBehind rest s := by
  have hword : ∀ (c : Char) (more : List Char) {tail : List Char} {w : Value},
      (.ok (w, tail) : Reading Value) = .ok (v, rest) → IsBehind rest (c :: (more ++ tail)) := by
    intro c more tail w hw
    cases hw
    exact .cons (List.suffix_append more rest) c
  rw [value.eq_def] at h
  dsimp only at h
  split at h
  · rename_i tail
    exact ((mapped_consumes string_consumes Value.text) h).mono (List.suffix_cons '"' tail)
  · exact absurd rfl hs.1
  · exact absurd rfl hs.2
  · exact hword 'n' ['u', 'l', 'l'] h
  · exact hword 't' ['r', 'u', 'e'] h
  · exact hword 'f' ['a', 'l', 's', 'e'] h
  · exact hword 'N' ['a', 'N'] h
  · exact hword 'I' ['n', 'f', 'i', 'n', 'i', 't', 'y'] h
  · exact hword '-' ['I', 'n', 'f', 'i', 'n', 'i', 't', 'y'] h
  · exact number_consumes h

theorem calls_consume (fuel : Nat) :
    Consumes (value fuel) ∧ Consumes (items fuel) ∧ ∀ before, Consumes (members fuel before) := by
  induction fuel with
  | zero =>
      refine ⟨fun s a rest h => ?_, fun s a rest h => ?_, fun before s a rest h => ?_⟩ <;> cases h
  | succ fuel ih =>
      obtain ⟨hvalue, hitems, hmembers⟩ := ih
      refine ⟨fun s v rest h => ?_, fun s vs rest h => ?_, fun before s ms rest h => ?_⟩
      · rcases opens_or_isFlat s with ⟨tail, rfl⟩ | ⟨tail, rfl⟩ | hflat
        · rw [value_list] at h
          have hparts := opened_consumes (mapped_consumes hitems Value.list) h
          exact hparts.mono ((skipSpace_isSuffix tail).trans (List.suffix_cons '[' tail))
        · rw [value_object] at h
          have hparts := opened_consumes (mapped_consumes (hmembers []) Value.object) h
          exact hparts.mono ((skipSpace_isSuffix tail).trans (List.suffix_cons '\x7b' tail))
        · rw [value_flat hflat] at h
          exact flat_consumes hflat h
      · rw [items_succ] at h
        exact followed_consumes hvalue
          (fun v => continued_consumes (mapped_consumes hitems (v :: ·))) h
      · rw [members_succ] at h
        exact followed_consumes memberName_consumes
          (fun _ => followed_consumes hvalue fun _ => continued_consumes (hmembers _)) h

/-! ## Enough calls -/

/-- Every bound that is large enough for the length of the text gives the same reading. -/
theorem fuel_agrees (fuel : Nat) :
    (∀ s other, 2 * s.length + 1 ≤ fuel → 2 * s.length + 1 ≤ other →
      value fuel s = value other s) ∧
    (∀ s other, 2 * s.length + 2 ≤ fuel → 2 * s.length + 2 ≤ other →
      items fuel s = items other s) ∧
    (∀ before s other, 2 * s.length + 2 ≤ fuel → 2 * s.length + 2 ≤ other →
      members fuel before s = members other before s) := by
  induction fuel with
  | zero =>
      exact ⟨fun s _ h => by omega, fun s _ h => by omega, fun _ s _ h => by omega⟩
  | succ fuel ih =>
      obtain ⟨hvalue, hitems, hmembers⟩ := ih
      obtain ⟨hconsumes, -, -⟩ := calls_consume fuel
      have hless : ∀ {s : List Char} {other : Nat}, 2 * s.length + 1 ≤ other → ∃ n, other = n + 1 :=
        fun h => Nat.exists_eq_add_of_le' (by omega)
      refine ⟨fun s other hfuel hother => ?_, fun s other hfuel hother => ?_,
        fun before s other hfuel hother => ?_⟩
      · obtain ⟨other, rfl⟩ := hless hother
        rcases opens_or_isFlat s with ⟨tail, rfl⟩ | ⟨tail, rfl⟩ | hflat
        · have hshort := (skipSpace_isSuffix tail).length_le
          rw [List.length_cons] at hfuel hother
          rw [value_list, value_list]
          exact opened_congr (mapped_congr _ (hitems _ _ (by omega) (by omega)))
        · have hshort := (skipSpace_isSuffix tail).length_le
          rw [List.length_cons] at hfuel hother
          rw [value_object, value_object]
          exact opened_congr (mapped_congr _ (hmembers _ _ _ (by omega) (by omega)))
        · rw [value_flat hflat, value_flat hflat other]
      · obtain ⟨other, rfl⟩ := hless (Nat.le_of_succ_le hother)
        rw [items_succ, items_succ]
        refine followed_congr (hvalue _ _ (by omega) (by omega)) hconsumes fun v rest hrest => ?_
        exact continued_congr fun t ht => mapped_congr _ (hitems _ _ (by omega) (by omega))
      · obtain ⟨other, rfl⟩ := hless (Nat.le_of_succ_le hother)
        rw [members_succ, members_succ]
        refine followed_congr rfl memberName_consumes fun name behind hbehind => ?_
        refine followed_congr (hvalue _ _ (by omega) (by omega)) hconsumes fun v rest hrest => ?_
        exact continued_congr fun t ht => hmembers _ _ _ (by omega) (by omega)

/-- A value at the start of the text, under enough calls. -/
def valueAt (s : List Char) : Reading Value :=
  value (2 * s.length + 1) s

def itemsAt (s : List Char) : Reading (List Value) :=
  items (2 * s.length + 2) s

def membersAt (before : List (String × Value)) (s : List Char) :
    Reading (List (String × Value)) :=
  members (2 * s.length + 2) before s

theorem value_eq_valueAt {fuel : Nat} {s : List Char} (h : 2 * s.length + 1 ≤ fuel) :
    value fuel s = valueAt s :=
  (fuel_agrees fuel).1 s _ h (Nat.le_refl _)

theorem items_eq_itemsAt {fuel : Nat} {s : List Char} (h : 2 * s.length + 2 ≤ fuel) :
    items fuel s = itemsAt s :=
  (fuel_agrees fuel).2.1 s _ h (Nat.le_refl _)

theorem members_eq_membersAt {fuel : Nat} {before : List (String × Value)} {s : List Char}
    (h : 2 * s.length + 2 ≤ fuel) : members fuel before s = membersAt before s :=
  (fuel_agrees fuel).2.2 before s _ h (Nat.le_refl _)

theorem valueAt_consumes : Consumes valueAt :=
  fun _ _ _ h => (calls_consume _).1 h

theorem valueAt_flat {s : List Char} (h : IsFlat s) : valueAt s = value 1 s :=
  value_flat h (2 * s.length)

theorem valueAt_list (rest : List Char) : valueAt ('[' :: rest) = listStep itemsAt rest := by
  have hshort := (skipSpace_isSuffix rest).length_le
  rw [valueAt, List.length_cons, value_list]
  exact opened_congr (mapped_congr _ (items_eq_itemsAt (by omega)))

theorem valueAt_object (rest : List Char) :
    valueAt ('\x7b' :: rest) = objectStep (membersAt []) rest := by
  have hshort := (skipSpace_isSuffix rest).length_le
  rw [valueAt, List.length_cons, value_object]
  exact opened_congr (mapped_congr _ (members_eq_membersAt (by omega)))

theorem itemsAt_eq (s : List Char) : itemsAt s = itemsStep valueAt itemsAt s := by
  rw [itemsAt, items_succ]
  refine followed_congr (value_eq_valueAt (by omega)) (calls_consume _).1 fun v rest hrest => ?_
  exact continued_congr fun t ht => mapped_congr _ (items_eq_itemsAt (by omega))

theorem membersAt_eq (before : List (String × Value)) (s : List Char) :
    membersAt before s = membersStep valueAt membersAt before s := by
  rw [membersAt, members_succ]
  refine followed_congr rfl memberName_consumes fun name behind hbehind => ?_
  refine followed_congr (value_eq_valueAt (by omega)) (calls_consume _).1 fun v rest hrest => ?_
  exact continued_congr fun t ht => members_eq_membersAt (by omega)

end Json
end AssemblerTables
