/-
Where reading JSON text stops over the length of a numeral.

The reader goes through a text from left to right and begins a value at certain places,
each reached once everything before it has been read.  It stops over the number of digits
exactly when it comes to an overlong integer at one of them.
-/
import AssemblerTables.Proofs.Json.Reader

namespace AssemblerTables
namespace Json

/-! ## Where a part stops -/

section Parts

variable {α β : Type} {r : List Char → Reading α} {k : α → List Char → Reading β}
variable {close : Char} {done : α} {s : List Char} {e : Stop} {n : Nat}

theorem mapped_eq_error {f : α → β} : mapped f r s = .error e ↔ r s = .error e :=
  Result.map_eq_error

theorem followed_eq_error :
    followed r k s = .error e ↔
      r s = .error e ∨ ∃ a rest, r s = .ok (a, rest) ∧ k a (skipSpace rest) = .error e := by
  refine Result.bind_eq_error.trans (or_congr_right ?_)
  exact ⟨fun ⟨(a, rest), h⟩ => ⟨a, rest, h⟩, fun ⟨a, rest, h⟩ => ⟨(a, rest), h⟩⟩

theorem opened_eq_error :
    opened close done r s = .error e ↔ s.head? ≠ some close ∧ r s = .error e := by
  cases s with
  | nil => exact (and_iff_right fun hnil => by cases hnil).symm
  | cons c rest =>
      by_cases hc : c = close
      · rw [opened, if_pos hc]
        exact iff_of_false (fun h => by cases h) fun h => h.1 (congrArg some hc)
      · rw [opened, if_neg hc]
        exact ⟨fun h => ⟨fun hhead => hc (Option.some.inj hhead), h⟩, And.right⟩

theorem continued_eq_tooManyDigits (hclose : close ≠ ',') :
    continued close done r s = .error (.tooManyDigits n) ↔
      ∃ more, s = ',' :: more ∧ r (skipSpace more) = .error (.tooManyDigits n) := by
  constructor
  · intro h
    cases s with
    | nil => cases h
    | cons c rest =>
        rw [continued] at h
        split at h
        · cases h
        · split at h
          · rename_i hcomma
            exact ⟨rest, by rw [hcomma], h⟩
          · cases h
  · rintro ⟨more, rfl, h⟩
    rw [continued, if_neg hclose.symm, if_pos rfl, h]

theorem Settles.ne_tooManyDigits {r : Reading α} (h : Settles s r) :
    r ≠ .error (.tooManyDigits n) := by
  rintro rfl
  cases h

end Parts

/-! ## Places of values -/

/-- Does an item of a list begin at `t`, where its first begins at `s`? -/
inductive ItemAt : List Char → List Char → Prop where
  | first (s : List Char) : ItemAt s s
  | next {s rest more t : List Char} {v : Value} (hvalue : valueAt s = .ok (v, rest))
      (hcomma : skipSpace rest = ',' :: more) (h : ItemAt (skipSpace more) t) : ItemAt s t

/-- Does the value of a member of an object begin at `t`, where the first name begins at
`s`? -/
inductive MemberAt : List Char → List Char → Prop where
  | first {s rest : List Char} {name : String} (hname : memberName s = .ok (name, rest)) :
      MemberAt s (skipSpace rest)
  | next {s left rest more t : List Char} {name : String} {v : Value}
      (hname : memberName s = .ok (name, left)) (hvalue : valueAt (skipSpace left) = .ok (v, rest))
      (hcomma : skipSpace rest = ',' :: more) (h : MemberAt (skipSpace more) t) : MemberAt s t

/-- Does the reader come to a value at `t` when it begins with the one at `s`? -/
inductive Reaches : List Char → List Char → Prop where
  | here (s : List Char) : Reaches s s
  | item {rest s t : List Char} (hopen : (skipSpace rest).head? ≠ some ']')
      (hitem : ItemAt (skipSpace rest) s) (h : Reaches s t) : Reaches ('[' :: rest) t
  | member {rest s t : List Char} (hmember : MemberAt (skipSpace rest) s) (h : Reaches s t) :
      Reaches ('\x7b' :: rest) t

theorem isBehind_of_comma {s rest more : List Char} (hrest : IsBehind rest s)
    (hcomma : skipSpace rest = ',' :: more) : IsBehind (skipSpace more) s := by
  have hmore : skipSpace more <:+ skipSpace rest :=
    hcomma ▸ (skipSpace_isSuffix more).trans (List.suffix_cons ',' more)
  exact hrest.of_isSuffix (hmore.trans (skipSpace_isSuffix rest))

theorem ItemAt.isSuffix {s t : List Char} (h : ItemAt s t) : t <:+ s := by
  induction h with
  | first => exact List.suffix_rfl
  | next hvalue hcomma _ ih =>
      exact ih.trans (isBehind_of_comma (valueAt_consumes hvalue) hcomma).isSuffix

theorem MemberAt.isSuffix {s t : List Char} (h : MemberAt s t) : t <:+ s := by
  induction h with
  | first hname =>
      exact (skipSpace_isSuffix _).trans (memberName_consumes hname).isSuffix
  | next hname hvalue hcomma _ ih =>
      have hbehind := (isBehind_of_comma (valueAt_consumes hvalue) hcomma).isSuffix
      have hname := (skipSpace_isSuffix _).trans (memberName_consumes hname).isSuffix
      exact (ih.trans hbehind).trans hname

theorem MemberAt.head?_ne {s t : List Char} (h : MemberAt s t) : s.head? ≠ some '\x7d' := by
  have hne : ∀ {rest : List Char} {name : String}, memberName s = .ok (name, rest) →
      s.head? ≠ some '\x7d' := by
    intro rest name hname hhead
    obtain ⟨tail, rfl⟩ := List.head?_eq_some_iff.mp hhead
    cases hname
  cases h with
  | first hname => exact hne hname
  | next hname => exact hne hname

theorem Reaches.isSuffix {s t : List Char} (h : Reaches s t) : t <:+ s := by
  induction h with
  | here => exact List.suffix_rfl
  | item _ hitem _ ih =>
      exact (ih.trans hitem.isSuffix).trans
        ((skipSpace_isSuffix _).trans (List.suffix_cons _ _))
  | member hmember _ ih =>
      exact (ih.trans hmember.isSuffix).trans
        ((skipSpace_isSuffix _).trans (List.suffix_cons _ _))

/-! ## Items and members -/

theorem itemsAt_eq_tooManyDigits {s : List Char} {n : Nat} :
    itemsAt s = .error (.tooManyDigits n) ↔
      ∃ t, ItemAt s t ∧ valueAt t = .error (.tooManyDigits n) := by
  constructor
  · intro h
    induction hlength : s.length using Nat.strongRecOn generalizing s with
    | ind length ih =>
        subst hlength
        rw [itemsAt_eq] at h
        rcases followed_eq_error.mp h with hvalue | ⟨v, rest, hvalue, hmore⟩
        · exact ⟨s, .first s, hvalue⟩
        · obtain ⟨more, hcomma, hmore⟩ := (continued_eq_tooManyDigits (by decide)).mp hmore
          have hshort := (isBehind_of_comma (valueAt_consumes hvalue) hcomma).length_lt
          obtain ⟨t, hitem, ht⟩ := ih _ hshort (mapped_eq_error.mp hmore) rfl
          exact ⟨t, .next hvalue hcomma hitem, ht⟩
  · rintro ⟨t, hitem, ht⟩
    induction hitem with
    | first s =>
        rw [itemsAt_eq]
        exact followed_eq_error.mpr (.inl ht)
    | next hvalue hcomma _ ih =>
        rw [itemsAt_eq]
        refine followed_eq_error.mpr (.inr ⟨_, _, hvalue, ?_⟩)
        exact (continued_eq_tooManyDigits (by decide)).mpr
          ⟨_, hcomma, mapped_eq_error.mpr (ih ht)⟩

theorem membersAt_eq_tooManyDigits {before : List (String × Value)} {s : List Char} {n : Nat} :
    membersAt before s = .error (.tooManyDigits n) ↔
      ∃ t, MemberAt s t ∧ valueAt t = .error (.tooManyDigits n) := by
  constructor
  · intro h
    induction hlength : s.length using Nat.strongRecOn generalizing s before with
    | ind length ih =>
        subst hlength
        rw [membersAt_eq] at h
        rcases followed_eq_error.mp h with hname | ⟨name, left, hname, hbehind⟩
        · exact absurd hname (memberName_settles s).ne_tooManyDigits
        · rcases followed_eq_error.mp hbehind with hvalue | ⟨v, rest, hvalue, hmore⟩
          · exact ⟨_, .first hname, hvalue⟩
          · obtain ⟨more, hcomma, hmore⟩ := (continued_eq_tooManyDigits (by decide)).mp hmore
            have hleft := (memberName_consumes hname).of_isSuffix (skipSpace_isSuffix left)
            have hshort := (isBehind_of_comma (valueAt_consumes hvalue) hcomma).length_lt
            obtain ⟨t, hmember, ht⟩ := ih _ (Nat.lt_trans hshort hleft.length_lt) hmore rfl
            exact ⟨t, .next hname hvalue hcomma hmember, ht⟩
  · rintro ⟨t, hmember, ht⟩
    induction hmember generalizing before with
    | first hname =>
        rw [membersAt_eq]
        exact followed_eq_error.mpr (.inr ⟨_, _, hname, followed_eq_error.mpr (.inl ht)⟩)
    | next hname hvalue hcomma _ ih =>
        rw [membersAt_eq]
        refine followed_eq_error.mpr
          (.inr ⟨_, _, hname, followed_eq_error.mpr (.inr ⟨_, _, hvalue, ?_⟩)⟩)
        exact (continued_eq_tooManyDigits (by decide)).mpr ⟨_, hcomma, ih ht⟩

/-! ## Values -/

theorem IsOverlong.exists_digit {s : List Char} {n : Nat} (h : IsOverlong n s) :
    ∃ c tail, c.isDigit ∧ (s = c :: tail ∨ s = '-' :: c :: tail) := by
  obtain ⟨sign, digits, rest, rfl, hsign, rfl, hlimit, -, hdigits, -⟩ := h
  cases digits with
  | nil => exact absurd hlimit (by decide)
  | cons c tail =>
      refine ⟨c, tail ++ rest, hdigits c List.mem_cons_self, ?_⟩
      rcases hsign with rfl | rfl
      · exact .inl rfl
      · exact .inr rfl

theorem IsOverlong.isFlat {s : List Char} {n : Nat} (h : IsOverlong n s) : IsFlat s := by
  obtain ⟨c, tail, hc, rfl | rfl⟩ := h.exists_digit
  · refine ⟨fun hhead => ?_, fun hhead => ?_⟩ <;> cases hhead <;> exact absurd hc (by decide)
  · exact ⟨nofun, nofun⟩

theorem flat_eq_tooManyDigits {s : List Char} {n : Nat} (hs : IsFlat s) :
    value 1 s = .error (.tooManyDigits n) ↔ IsOverlong n s := by
  constructor
  · intro h
    rw [value.eq_def] at h
    dsimp only at h
    split at h
    · exact absurd (Result.map_eq_error.mp h) (string_settles _).ne_tooManyDigits
    · exact absurd rfl hs.1
    · exact absurd rfl hs.2
    iterate 6 cases h
    exact number_eq_tooManyDigits.mp h
  · intro h
    have hnumber : value 1 s = number s := by
      obtain ⟨c, tail, hc, hs⟩ := h.exists_digit
      rw [value.eq_def]
      dsimp only
      split
      -- The other cases begin with a character that is neither a digit nor a sign before one.
      all_goals first
        | rfl
        | rcases hs with hs | hs <;> cases hs <;> exact absurd hc (by decide)
    rw [hnumber]
    exact number_eq_tooManyDigits.mpr h

/-- Reading a value stops over the number of digits exactly when it comes to an overlong
integer. -/
theorem valueAt_eq_tooManyDigits {s : List Char} {n : Nat} :
    valueAt s = .error (.tooManyDigits n) ↔ ∃ t, Reaches s t ∧ IsOverlong n t := by
  constructor
  · intro h
    induction hlength : s.length using Nat.strongRecOn generalizing s with
    | ind length ih =>
        subst hlength
        rcases opens_or_isFlat s with ⟨rest, rfl⟩ | ⟨rest, rfl⟩ | hflat
        · rw [valueAt_list] at h
          obtain ⟨hopen, hitems⟩ := opened_eq_error.mp h
          obtain ⟨s, hitem, hs⟩ := itemsAt_eq_tooManyDigits.mp (mapped_eq_error.mp hitems)
          have hwithin := hitem.isSuffix.trans (skipSpace_isSuffix rest)
          have hshort := (IsBehind.cons hwithin '[').length_lt
          obtain ⟨t, hreaches, ht⟩ := ih _ hshort hs rfl
          exact ⟨t, .item hopen hitem hreaches, ht⟩
        · rw [valueAt_object] at h
          obtain ⟨-, hmembers⟩ := opened_eq_error.mp h
          obtain ⟨s, hmember, hs⟩ := membersAt_eq_tooManyDigits.mp (mapped_eq_error.mp hmembers)
          have hwithin := hmember.isSuffix.trans (skipSpace_isSuffix rest)
          have hshort := (IsBehind.cons hwithin '\x7b').length_lt
          obtain ⟨t, hreaches, ht⟩ := ih _ hshort hs rfl
          exact ⟨t, .member hmember hreaches, ht⟩
        · rw [valueAt_flat hflat] at h
          exact ⟨s, .here s, (flat_eq_tooManyDigits hflat).mp h⟩
  · rintro ⟨t, hreaches, ht⟩
    induction hreaches with
    | here s =>
        rw [valueAt_flat ht.isFlat]
        exact (flat_eq_tooManyDigits ht.isFlat).mpr ht
    | item hopen hitem _ ih =>
        rw [valueAt_list]
        refine opened_eq_error.mpr ⟨hopen, mapped_eq_error.mpr ?_⟩
        exact itemsAt_eq_tooManyDigits.mpr ⟨_, hitem, ih ht⟩
    | member hmember _ ih =>
        rw [valueAt_object]
        refine opened_eq_error.mpr ⟨hmember.head?_ne, mapped_eq_error.mpr ?_⟩
        exact membersAt_eq_tooManyDigits.mpr ⟨_, hmember, ih ht⟩

/-! ## Texts -/

theorem document_eq_tooManyDigits {s : List Char} {n : Nat} :
    document s = .error (.tooManyDigits n) ↔
      valueAt (skipSpace s) = .error (.tooManyDigits n) := by
  have hshort := (skipSpace_isSuffix s).length_le
  have hvalue : value (2 * s.length + 2) (skipSpace s) = valueAt (skipSpace s) :=
    value_eq_valueAt (by omega)
  rw [← hvalue]
  fun_cases document s with
  | case1 rest =>
      have hskip : skipSpace ('\ufeff' :: rest) = '\ufeff' :: rest := rfl
      have hflat : IsFlat ('\ufeff' :: rest) := ⟨nofun, nofun⟩
      rw [hskip, value_flat hflat]
      exact iff_of_false (fun h => by cases h) (fun h => by cases h)
  | case2 _ e he =>
      rw [he]
      exact ⟨fun h => by cases h; rfl, fun h => by cases h; rfl⟩
  | case3 _ v rest hv hend | case4 _ v rest hv hend =>
      rw [hv]
      dsimp only
      cases skipSpace rest <;> exact iff_of_false nofun nofun

/-- Reading a text stops over the number of digits exactly when it comes to an overlong
integer where a value begins. -/
theorem read_eq_tooManyDigits {s : List Char} {n : Nat} :
    read s = .error (.tooManyDigits n) ↔ ∃ t, Reaches (skipSpace s) t ∧ IsOverlong n t := by
  rw [← valueAt_eq_tooManyDigits, ← document_eq_tooManyDigits, read]
  cases document s with
  | ok v => exact iff_of_false nofun nofun
  | error e =>
      cases e with
      | malformed => exact iff_of_false nofun nofun
      | tooManyDigits count => exact ⟨fun h => by cases h; rfl, fun h => by cases h; rfl⟩

/-- The digits of the integer stand in the text without a break. -/
theorem exists_digits_of_read {s : List Char} {n : Nat} (h : read s = .error (.tooManyDigits n)) :
    Radix.decimalLimit < n ∧
      ∃ digits, digits <:+: s ∧ digits.length = n ∧ ∀ c ∈ digits, c.isDigit := by
  obtain ⟨t, hreaches, sign, digits, rest, rfl, -, rfl, hlimit, -, hdigits, -⟩ :=
    read_eq_tooManyDigits.mp h
  have hwithin : digits <:+: sign ++ digits ++ rest := ⟨sign, rest, rfl⟩
  have htext := (hreaches.isSuffix.trans (skipSpace_isSuffix s)).isInfix
  exact ⟨hlimit, digits, hwithin.trans htext, rfl, hdigits⟩

end Json
end AssemblerTables
