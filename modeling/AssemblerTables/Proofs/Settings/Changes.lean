/-
Changes of settings, one after the other.

A change leads to the settings that follow it field by field, if their stem and their row
width are accepted, and is refused otherwise.  The checks are made on the changed settings as
a whole.  So all settings that are ever reached have passed them, and two changes that are
both accepted come to one change with the fields of both.  The converse does not hold: the
one change never makes the settings in between, and these alone may be refused.
-/
import AssemblerTables.Proofs.Settings

namespace AssemblerTables
namespace Settings

/-! ## One change -/

/-- Are the stem and the row width such as are accepted? -/
structure IsChecked (s : Settings) : Prop where
  stem : isStem s.stem = true
  rowWidth : 1 ≤ s.keywordsPerRow

/-- Has a field after a change the value that is given for it, or else the one before? -/
structure Takes {α : Type} (change : Option α) (before after : α) : Prop where
  given : ∀ v, change = some v → after = v
  kept : change = none → after = before

/-- Do settings follow from others by a change, field by field? -/
structure Follows (s : Settings) (c : Changes) (s' : Settings) : Prop where
  stem : Takes c.stem s.stem s'.stem
  keywordStem : Takes (c.keywordStem.map some) s.keywordStem s'.keywordStem
  keywordsPerRow : Takes c.keywordsPerRow (s.keywordsPerRow : Int) s'.keywordsPerRow
  indent : Takes c.indent s.indent s'.indent

theorem takes_iff {α : Type} {change : Option α} {before after : α} :
    Takes change before after ↔ after = change.getD before := by
  constructor
  · intro h
    cases hchange : change with
    | none => exact h.kept hchange
    | some v => exact h.given v hchange
  · rintro rfl
    exact ⟨fun v hv => by rw [hv, Option.getD_some], fun hnone => by rw [hnone, Option.getD_none]⟩

theorem takes_map_some {change before after : Option String} :
    Takes (change.map some) before after ↔ after = (change <|> before) := by
  rw [takes_iff]
  cases change <;> rfl

theorem follows_iff {s s' : Settings} {c : Changes} :
    s.Follows c s' ↔ s'.stem = c.stem.getD s.stem ∧
      s'.keywordStem = (c.keywordStem <|> s.keywordStem) ∧
      s'.keywordsPerRow = c.keywordsPerRow.getD s.keywordsPerRow ∧
      s'.indent = c.indent.getD s.indent := by
  rw [← takes_iff, ← takes_map_some, ← takes_iff, ← takes_iff]
  exact ⟨fun h => ⟨h.stem, h.keywordStem, h.keywordsPerRow, h.indent⟩,
    fun ⟨hstem, hkeywordStem, hwidth, hindent⟩ => ⟨hstem, hkeywordStem, hwidth, hindent⟩⟩

theorem ofFields_eq_ok_iff {stem indent : String} {keywordStem : Option String} {width : Int}
    {s : Settings} :
    ofFields stem keywordStem width indent = .ok s ↔
      s.IsChecked ∧ s.stem = stem ∧ s.keywordStem = keywordStem ∧ s.keywordsPerRow = width ∧
        s.indent = indent := by
  constructor
  · intro h
    obtain ⟨hstem, hwidth, rfl⟩ := ofFields_eq_ok h
    refine ⟨⟨hstem, ?_⟩, rfl, rfl, ?_, rfl⟩
    · show 1 ≤ width.toNat
      omega
    · show (width.toNat : Int) = width
      omega
  · rintro ⟨⟨hstem, hwidth⟩, rfl, rfl, rfl, rfl⟩
    rw [ofFields, hstem, if_neg (by decide), if_neg (by omega), Int.toNat_natCast]

/-- A change is accepted exactly if settings that pass the checks follow from it, and it
leads to these. -/
theorem update_eq_ok {s s' : Settings} {c : Changes} :
    s.update c = .ok s' ↔ s.Follows c s' ∧ s'.IsChecked := by
  rw [update, ofFields_eq_ok_iff, follows_iff, and_comm]

/-! ## Two changes -/

/-- The fields of two changes.  Where both give a value, the later counts. -/
def Changes.followedBy (c d : Changes) : Changes :=
  { stem := d.stem <|> c.stem,
    keywordStem := d.keywordStem <|> c.keywordStem,
    keywordsPerRow := d.keywordsPerRow <|> c.keywordsPerRow,
    indent := d.indent <|> c.indent }

theorem Takes.trans {α : Type} {c d : Option α} {x y z : α} (h : Takes c x y)
    (h' : Takes d y z) : Takes (d <|> c) x z := by
  rw [takes_iff] at h h' ⊢
  subst h h'
  cases d <;> rfl

theorem Follows.trans {s s' s'' : Settings} {c d : Changes} (h : s.Follows c s')
    (h' : s'.Follows d s'') : s.Follows (c.followedBy d) s'' where
  stem := h.stem.trans h'.stem
  keywordStem := by
    have hmap : (d.keywordStem <|> c.keywordStem).map some =
        (d.keywordStem.map some <|> c.keywordStem.map some) := by
      cases d.keywordStem <;> rfl
    rw [Changes.followedBy, hmap]
    exact h.keywordStem.trans h'.keywordStem
  keywordsPerRow := h.keywordsPerRow.trans h'.keywordsPerRow
  indent := h.indent.trans h'.indent

theorem update_followedBy {s s' s'' : Settings} {c d : Changes} (h : s.update c = .ok s')
    (h' : s'.update d = .ok s'') : s.update (c.followedBy d) = .ok s'' := by
  obtain ⟨hfollows, -⟩ := update_eq_ok.mp h
  obtain ⟨hfollows', hchecked⟩ := update_eq_ok.mp h'
  exact update_eq_ok.mpr ⟨hfollows.trans hfollows', hchecked⟩

/-! ## Many changes -/

/-- The settings after a change.  One that is refused leaves them as they are. -/
def change (s : Settings) (c : Changes) : Settings :=
  (s.update c).toOption.getD s

/-- The settings after changes one by one. -/
def changeAll (s : Settings) (cs : List Changes) : Settings :=
  cs.foldl change s

theorem changeAll_concat (s : Settings) (cs : List Changes) (c : Changes) :
    s.changeAll (cs ++ [c]) = (s.changeAll cs).change c :=
  List.foldl_concat ..

theorem change_of_error {s : Settings} {c : Changes} {fault : SettingsFault}
    (h : s.update c = .error fault) : s.change c = s := by
  rw [change, h]
  rfl

theorem change_of_ok {s s' : Settings} {c : Changes} (h : s.update c = .ok s') :
    s.change c = s' := by
  rw [change, h]
  rfl

theorem IsChecked.change {s : Settings} (h : s.IsChecked) (c : Changes) :
    (s.change c).IsChecked := by
  cases hupdate : s.update c with
  | error fault =>
      rw [change_of_error hupdate]
      exact h
  | ok s' =>
      rw [change_of_ok hupdate]
      exact (update_eq_ok.mp hupdate).2

theorem IsChecked.changeAll {s : Settings} (h : s.IsChecked) (cs : List Changes) :
    (s.changeAll cs).IsChecked := by
  induction cs using List.reverseRecOn with
  | nil => exact h
  | append_singleton cs c ih =>
      rw [changeAll_concat]
      exact ih.change c

/-! ## Where settings come from -/

/-- What the environment says of the row width, if that can be read: a variable that is not
empty, or else the default. -/
def environmentWidth? (env : Environment) : Option Int :=
  match valueOf? env "ISAGEN_KEYWORDS_PER_ROW" with
  | none => some 4
  | some v => Numeral.read? .decimal v

/-- Are these the settings that an environment and a request ask for?  What the request says
goes before what the environment says, and that before the default. -/
structure AskedFor (env : Environment) (r : Command.Request) (s : Settings) : Prop where
  stem : s.stem = (r.stem <|> valueOf? env "ISAGEN_PREFIX").getD "r3"
  keywordsPerRow : ∃ n, environmentWidth? env = some n ∧ s.keywordsPerRow = r.keywordsPerRow.getD n
  keywordStem : s.keywordStem = none
  indent : s.indent = "\t"

/-- With a row width the environment makes settings of it, the stem and the defaults. -/
theorem ofEnvironment_of_width {env : Environment} {n : Int}
    (h : environmentWidth? env = some n) :
    ofEnvironment env = ofFields ((valueOf? env "ISAGEN_PREFIX").getD "r3") none n "\t" := by
  rw [environmentWidth?] at h
  rw [ofEnvironment, changesOf]
  cases hvalue : valueOf? env "ISAGEN_KEYWORDS_PER_ROW" with
  | none =>
      rw [hvalue] at h
      cases h
      rfl
  | some v =>
      rw [hvalue] at h
      change Numeral.read? .decimal v = some n at h
      simp only [h]
      rfl

theorem ofEnvironment_of_no_width {env : Environment} (h : environmentWidth? env = none) :
    ∃ fault, ofEnvironment env = .error fault := by
  rw [environmentWidth?] at h
  rw [ofEnvironment, changesOf]
  cases hvalue : valueOf? env "ISAGEN_KEYWORDS_PER_ROW" with
  | none =>
      rw [hvalue] at h
      cases h
  | some v =>
      rw [hvalue] at h
      change Numeral.read? .decimal v = none at h
      simp only [h]
      exact ⟨_, rfl⟩

theorem ofEnvironment_eq_ok {env : Environment} {s : Settings} :
    ofEnvironment env = .ok s ↔ AskedFor env {} s ∧ s.IsChecked := by
  cases hwidth : environmentWidth? env with
  | none =>
      obtain ⟨fault, hfault⟩ := ofEnvironment_of_no_width hwidth
      rw [hfault]
      refine iff_of_false (fun h => by cases h) fun h => ?_
      obtain ⟨n, hn, -⟩ := h.1.keywordsPerRow
      rw [hwidth] at hn
      cases hn
  | some n =>
      rw [ofEnvironment_of_width hwidth, ofFields_eq_ok_iff, and_comm]
      refine and_congr_left fun _ => ⟨?_, fun h => ?_⟩
      · rintro ⟨hstem, hkeywordStem, hrow, hindent⟩
        exact ⟨hstem, ⟨n, hwidth, hrow⟩, hkeywordStem, hindent⟩
      · obtain ⟨m, hm, hrow⟩ := h.keywordsPerRow
        cases hwidth.symm.trans hm
        exact ⟨h.stem, h.keywordStem, hrow, h.indent⟩

/-- What a request asks for follows from what the environment alone asks for. -/
theorem askedFor_iff {env : Environment} {r : Command.Request} {s₀ s : Settings}
    (h : AskedFor env {} s₀) :
    AskedFor env r s ↔ s₀.Follows { stem := r.stem, keywordsPerRow := r.keywordsPerRow } s := by
  obtain ⟨hstem₀, ⟨n, hn, hwidth₀⟩, hkeywordStem₀, hindent₀⟩ := h
  change s₀.stem = (valueOf? env "ISAGEN_PREFIX").getD "r3" at hstem₀
  change (s₀.keywordsPerRow : Int) = n at hwidth₀
  have hstem : (r.stem <|> valueOf? env "ISAGEN_PREFIX").getD "r3" = r.stem.getD s₀.stem := by
    rw [hstem₀]
    cases r.stem <;> rfl
  rw [follows_iff, ← hstem, hwidth₀]
  constructor
  · rintro ⟨hs, ⟨m, hm, hwidth⟩, hkeywordStem, hindent⟩
    cases hm.symm.trans hn
    exact ⟨hs, hkeywordStem.trans hkeywordStem₀.symm, hwidth, hindent.trans hindent₀.symm⟩
  · rintro ⟨hs, hkeywordStem, hwidth, hindent⟩
    exact ⟨hs, ⟨n, hn, hwidth⟩, hkeywordStem.trans hkeywordStem₀, hindent.trans hindent₀⟩

/-- A request has settings exactly if the environment has settings without it, and those
that it asks for pass the checks too. -/
theorem settingsOf_eq_ok {env : Environment} {r : Command.Request} {s : Settings} :
    Command.settingsOf env r = .ok s ↔
      (∃ s₀, ofEnvironment env = .ok s₀) ∧ AskedFor env r s ∧ s.IsChecked := by
  have hchain : Command.settingsOf env r = .ok s ↔ ∃ s₀, ofEnvironment env = .ok s₀ ∧
      s₀.update { stem := r.stem, keywordsPerRow := r.keywordsPerRow } = .ok s := by
    rw [Command.settingsOf, Result.mapError_eq_ok]
    exact Result.bind_eq_ok
  rw [hchain]
  constructor
  · rintro ⟨s₀, hs₀, hupdate⟩
    obtain ⟨hfollows, hchecked⟩ := update_eq_ok.mp hupdate
    exact ⟨⟨s₀, hs₀⟩, (askedFor_iff (ofEnvironment_eq_ok.mp hs₀).1).mpr hfollows, hchecked⟩
  · rintro ⟨⟨s₀, hs₀⟩, hasked, hchecked⟩
    exact ⟨s₀, hs₀, update_eq_ok.mpr
      ⟨(askedFor_iff (ofEnvironment_eq_ok.mp hs₀).1).mp hasked, hchecked⟩⟩

/-! ## All settings that are reached -/

/-- Are these settings made of their fields, or of an environment? -/
inductive Made (s : Settings) : Prop where
  | ofFields {stem indent : String} {keywordStem : Option String} {width : Int}
      (h : ofFields stem keywordStem width indent = .ok s)
  | ofEnvironment {env : Environment} (h : ofEnvironment env = .ok s)

theorem Made.isChecked {s : Settings} (h : s.Made) : s.IsChecked := by
  cases h with
  | ofFields h => exact (ofFields_eq_ok_iff.mp h).1
  | ofEnvironment h => exact (ofEnvironment_eq_ok.mp h).2

/-- Settings that are made and then changed any number of times, with refusals in between,
have passed the checks.  One more change leads to those that follow from it field by field
and pass the checks, or is refused and leaves them as they are.  Two accepted changes come
to one with the fields of both.  In the settings of a command line its options go before
the environment, and that before the defaults. -/
theorem changes_fieldwise {s₀ s : Settings} {cs : List Changes} (hmade : s₀.Made)
    (hs : s₀.changeAll cs = s) (c : Changes) :
    s.IsChecked ∧
      (∀ s', s.update c = .ok s' ↔ s.Follows c s' ∧ s'.IsChecked) ∧
      ((∃ fault, s.update c = .error fault ∧ s₀.changeAll (cs ++ [c]) = s) ∨
        ∃ s', s.update c = .ok s' ∧ s₀.changeAll (cs ++ [c]) = s') ∧
      (∀ s' s'' d, s.update c = .ok s' → s'.update d = .ok s'' →
        s.update (c.followedBy d) = .ok s'') ∧
      ∀ env r s', Command.settingsOf env r = .ok s' ↔
        (∃ e, ofEnvironment env = .ok e) ∧ AskedFor env r s' ∧ s'.IsChecked := by
  have hchecked : s.IsChecked := hs ▸ hmade.isChecked.changeAll cs
  have hstep : (∃ fault, s.update c = .error fault ∧ s₀.changeAll (cs ++ [c]) = s) ∨
      ∃ s', s.update c = .ok s' ∧ s₀.changeAll (cs ++ [c]) = s' := by
    rw [changeAll_concat, hs]
    cases hupdate : s.update c with
    | error fault => exact .inl ⟨fault, rfl, change_of_error hupdate⟩
    | ok s' => exact .inr ⟨s', rfl, change_of_ok hupdate⟩
  exact ⟨hchecked, fun s' => update_eq_ok, hstep, fun s' s'' d => update_followedBy,
    fun env r s' => settingsOf_eq_ok⟩

/-- A stem, and a row width that is left empty. -/
def stemOnly : Environment :=
  [("ISAGEN_PREFIX", "z"), ("ISAGEN_KEYWORDS_PER_ROW", "")]

def stemmed : Settings :=
  { stem := "z" }

/-- The settings with another row width. -/
def widened : Settings :=
  { stem := "z", keywordsPerRow := 8 }

/-- A stem from the environment, a refused stem, another row width: what comes next finds
the stem of the environment still there. -/
theorem changes_fieldwise_refusedBetween :
    stemmed.Made ∧
      stemmed.changeAll [{ stem := some "1z" }, { keywordsPerRow := some 8 }] = widened ∧
      widened.IsChecked ∧
      widened.Follows { indent := some "" } { widened with indent := "" } ∧
      widened.update (Changes.followedBy { indent := some "" } { stem := some "y" }) =
        .ok { stem := "y", keywordsPerRow := 8, indent := "" } ∧
      AskedFor stemOnly { keywordsPerRow := some 8 } widened := by
  have henv : ofEnvironment stemOnly = .ok stemmed := by decide
  have hchanges :
      stemmed.changeAll [{ stem := some "1z" }, { keywordsPerRow := some 8 }] = widened := by
    decide
  obtain ⟨hchecked, hupdate, -, hboth, hsettings⟩ :=
    changes_fieldwise (.ofEnvironment henv) hchanges { indent := some "" }
  have hindent : widened.update { indent := some "" } = .ok { widened with indent := "" } := by
    decide
  have hcommand : Command.settingsOf stemOnly { keywordsPerRow := some 8 } = .ok widened := by
    decide
  exact ⟨.ofEnvironment henv, hchanges, hchecked, ((hupdate _).mp hindent).1,
    hboth _ _ _ hindent (by decide), ((hsettings _ _ _).mp hcommand).2.1⟩

/-- Two changes come to one that is accepted though the first of them alone is refused. -/
example :
    ({} : Settings).update { stem := some "1z" } = .error (.stem "1z") ∧
      ({} : Settings).update
          (Changes.followedBy { stem := some "1z", indent := some "" } { stem := some "z" }) =
        .ok { stem := "z", indent := "" } := by
  constructor <;> rfl

end Settings
end AssemblerTables
