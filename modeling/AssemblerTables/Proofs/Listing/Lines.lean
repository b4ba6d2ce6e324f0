/-
A listing read back from its text.

The text has one line for each mnemonic and one for each form, told apart by the indent and
the colon.  A description has the line feeds of its pattern, and a pattern may have them: they
are blanks, and blanks may stand around operands.  Such a form takes more than one line, and
nothing tells the lines behind the first from others.  So the listing is found again exactly
if there is no line feed in the patterns.
-/
import AssemblerTables.Proofs.Pattern.Description
import AssemblerTables.Proofs.Tables
import AssemblerTables.Proofs.Text.Lines

namespace AssemblerTables

/-! ## Line feeds in descriptions -/

namespace Pattern

variable {naming : Naming} {c : Char}

/-- A pass leaves the characters that no name has where they are. -/
theorem count_pass (hc : c ≠ '%') (hnaming : ∀ before after, c ∉ naming before after)
    (before : Option Char) (s : List Char) : (pass naming before s).count c = s.count c := by
  induction s generalizing before with
  | nil => rfl
  | cons d rest ih =>
      rw [pass, List.count_append, ih, List.count_cons, Nat.add_comm]
      by_cases hd : d = '%'
      · rw [if_pos hd, List.count_eq_zero_of_not_mem (hnaming before rest.head?), hd,
          if_neg (by simpa using hc.symm)]
      · rw [if_neg hd, List.count_singleton]

/-- A description has the line feeds of its pattern. -/
theorem count_feed_describe (pattern : String) :
    (describe pattern).toList.count '\n' = pattern.toList.count '\n' := by
  have hlabels : ∀ name ∈ labels, '\n' ∉ name := by decide
  rw [describe, String.toList_ofList, describeChars_eq_pass]
  exact count_pass (by decide) (fun before after => hlabels _ (described_mem_labels before after))
    none _

theorem feed_mem_describe {pattern : String} :
    '\n' ∈ (describe pattern).toList ↔ '\n' ∈ pattern.toList := by
  rw [← List.count_pos_iff, count_feed_describe, List.count_pos_iff]

end Pattern

namespace Listing

/-! ## Reading -/

/-- The form on an indented line. -/
def form? (indent line : String) : Option String :=
  if indent.toList.isPrefixOf line.toList then
    some (String.ofList (line.toList.drop indent.toList.length))
  else none

/-- The mnemonic on a line that opens a group. -/
def heading? (line : String) : Option String :=
  if line.toList.getLast? = some ':' then some (String.ofList line.toList.dropLast) else none

/-- The forms that lines begin with, and the groups behind them. -/
def blocks? (indent : String) : List String → Option (List String × List ListingEntry)
  | [] => some ([], [])
  | line :: rest => do
    let (forms, entries) ← blocks? indent rest
    match form? indent line with
    | some form => return (form :: forms, entries)
    | none => do
      let m ← heading? line
      return ([], { mnemonic := m, forms := forms } :: entries)

/-- A line feed ends a line, an indented line adds a form to the group above, and any other
line opens a group.  Forms without a group cannot be read. -/
def read? (indent text : String) : Option (List ListingEntry) :=
  match blocks? indent (Text.lines text) with
  | some ([], entries) => some entries
  | _ => none

variable {indent : String}

theorem form?_append (indent form : String) : form? indent (indent ++ form) = some form := by
  rw [form?, String.toList_append, if_pos (List.isPrefixOf_iff_prefix.mpr (List.prefix_append _ _)),
    List.drop_left, String.ofList_toList]

theorem heading?_append (m : String) : heading? (m ++ ":") = some m := by
  have hcolon : (m ++ ":").toList = m.toList ++ [':'] := String.toList_append
  rw [heading?, hcolon, if_pos List.getLast?_concat, List.dropLast_concat, String.ofList_toList]

/-- Is the heading of a mnemonic not indented? -/
def Unindented (indent m : String) : Prop :=
  ¬ indent.toList <+: (m ++ ":").toList

theorem form?_heading {m : String} (h : Unindented indent m) : form? indent (m ++ ":") = none := by
  rw [form?, if_neg]
  rwa [List.isPrefixOf_iff_prefix]

theorem blocks?_forms (forms lines : List String) :
    blocks? indent (forms.map (indent ++ ·) ++ lines) =
      (blocks? indent lines).map fun b => (forms ++ b.1, b.2) := by
  induction forms with
  | nil => exact (congrFun Option.map_id (blocks? indent lines)).symm
  | cons form rest ih =>
      rw [List.map_cons, List.cons_append, blocks?, ih, form?_append]
      cases blocks? indent lines <;> rfl

theorem blocks?_entryLines {listing : List ListingEntry}
    (h : ∀ e ∈ listing, Unindented indent e.mnemonic) :
    blocks? indent (listing.flatMap (entryLines indent)) = some ([], listing) := by
  induction listing with
  | nil => rfl
  | cons e rest ih =>
      rw [List.forall_mem_cons] at h
      rw [List.flatMap_cons, entryLines, List.cons_append, blocks?, blocks?_forms, ih h.2,
        form?_heading h.1, heading?_append]
      show some ([], { e with forms := e.forms ++ [] } :: rest) = _
      rw [List.append_nil]

/-- What is read has no line feeds. -/
theorem feed_not_mem_of_blocks? {lines : List String} (hlines : ∀ l ∈ lines, '\n' ∉ l.toList)
    {forms : List String} {entries : List ListingEntry}
    (h : blocks? indent lines = some (forms, entries)) :
    (∀ form ∈ forms, '\n' ∉ form.toList) ∧ ∀ e ∈ entries, ∀ form ∈ e.forms, '\n' ∉ form.toList := by
  induction lines generalizing forms entries with
  | nil =>
      cases h
      exact ⟨fun _ hf => absurd hf List.not_mem_nil, fun _ he => absurd he List.not_mem_nil⟩
  | cons line rest ih =>
      rw [List.forall_mem_cons] at hlines
      obtain ⟨⟨others, below⟩, hrest, h⟩ := Option.bind_eq_some_iff.mp h
      obtain ⟨hothers, hbelow⟩ := ih hlines.2 hrest
      dsimp only at h
      cases hform : form? indent line with
      | some form =>
          rw [hform] at h
          cases h
          rw [form?] at hform
          split at hform
          · cases hform
            refine ⟨List.forall_mem_cons.mpr ⟨?_, hothers⟩, hbelow⟩
            rw [String.toList_ofList]
            exact fun hmem => hlines.1 (List.mem_of_mem_drop hmem)
          · cases hform
      | none =>
          rw [hform] at h
          obtain ⟨m, -, h⟩ := Option.bind_eq_some_iff.mp h
          cases h
          exact ⟨fun _ hf => absurd hf List.not_mem_nil, List.forall_mem_cons.mpr ⟨hothers, hbelow⟩⟩

theorem feed_not_mem_of_read? {text : String} {entries : List ListingEntry}
    (h : read? indent text = some entries) :
    ∀ e ∈ entries, ∀ form ∈ e.forms, '\n' ∉ form.toList := by
  rw [read?] at h
  split at h
  · rename_i hblocks
    cases h
    exact (feed_not_mem_of_blocks? (fun _ hl => Text.not_mem_of_mem_lines hl) hblocks).2
  · cases h

/-! ## Listings of groups -/

theorem unindented_of_unmarked {m : String} (h : Text.Unmarked m.toList) :
    Unindented defaultIndent m := by
  intro hprefix
  have hspace : ' ' ∈ (m ++ ":").toList := hprefix.subset (by decide)
  rw [String.toList_append, List.mem_append] at hspace
  rcases hspace with hspace | hspace
  · exact Text.not_mem_of_isMark h (by decide) hspace
  · revert hspace
    decide

theorem entryLines_ne_nil {groups : List Group} (hne : groups ≠ []) :
    (ofGroups groups).flatMap (entryLines indent) ≠ [] := by
  obtain ⟨g, rest, rfl⟩ := List.exists_cons_of_ne_nil hne
  rw [ofGroups, List.map_cons, List.flatMap_cons, entryLines, List.cons_append]
  exact List.cons_ne_nil _ _

theorem length_entryLines (groups : List Group) :
    ((ofGroups groups).flatMap (entryLines indent)).length =
      groups.length + (groups.flatMap Group.members).length := by
  induction groups with
  | nil => rfl
  | cons g rest ih =>
      rw [ofGroups] at ih ⊢
      rw [List.map_cons, List.flatMap_cons, List.length_append, ih, entryLines, List.flatMap_cons]
      simp only [List.length_cons, List.length_map, List.length_append]
      omega

/-- The line feeds inside lines are those of the patterns. -/
theorem count_feed_entryLines {groups : List Group}
    (h : ∀ g ∈ groups, Text.Unmarked g.mnemonic.toList) :
    (((ofGroups groups).flatMap (entryLines defaultIndent)).flatMap String.toList).count '\n' =
      ((groups.flatMap Group.members).flatMap fun i => i.pattern.toList).count '\n' := by
  have hforms (is : List Instruction) :
      ((is.map fun i => defaultIndent ++ Pattern.describe i.pattern).flatMap String.toList).count
          '\n' = (is.flatMap fun i => i.pattern.toList).count '\n' := by
    induction is with
    | nil => rfl
    | cons i rest ih =>
        rw [List.map_cons, List.flatMap_cons, List.count_append, ih, String.toList_append,
          List.count_append, Pattern.count_feed_describe, List.flatMap_cons, List.count_append]
        exact congrArg (· + _) (Nat.zero_add _)
  induction groups with
  | nil => rfl
  | cons g rest ih =>
      rw [List.forall_mem_cons] at h
      have hheading : (g.mnemonic ++ ":").toList.count '\n' = 0 := by
        rw [String.toList_append, List.count_append,
          List.count_eq_zero_of_not_mem (Text.not_mem_of_isMark h.1 (by decide))]
        rfl
      have hrest := ih h.2
      rw [ofGroups] at hrest ⊢
      rw [List.map_cons, List.flatMap_cons, List.flatMap_append, List.count_append, hrest,
        entryLines, List.flatMap_cons, List.count_append, hheading, Nat.zero_add, List.map_map,
        List.flatMap_cons, List.flatMap_append, List.count_append]
      exact congrArg (· + _) (hforms g.members)

theorem length_lines_text {groups : List Group} (hne : groups ≠ [])
    (h : ∀ g ∈ groups, Text.Unmarked g.mnemonic.toList) :
    (Text.lines (text defaultIndent (ofGroups groups))).length =
      groups.length + (groups.flatMap Group.members).length +
        ((groups.flatMap Group.members).flatMap fun i => i.pattern.toList).count '\n' := by
  rw [text, Text.length_lines_unlines (entryLines_ne_nil hne), length_entryLines,
    count_feed_entryLines h]

/-- Listed groups are found again if there are no line feeds in the patterns. -/
theorem read?_text_ofGroups {groups : List Group} (hne : groups ≠ [])
    (hmnemonics : ∀ g ∈ groups, Text.Unmarked g.mnemonic.toList)
    (hpatterns : ∀ g ∈ groups, ∀ i ∈ g.members, '\n' ∉ i.pattern.toList) :
    read? defaultIndent (text defaultIndent (ofGroups groups)) = some (ofGroups groups) := by
  have hfeeds : ∀ l ∈ (ofGroups groups).flatMap (entryLines defaultIndent), '\n' ∉ l.toList := by
    intro l hl
    obtain ⟨e, he, hl⟩ := List.mem_flatMap.mp hl
    obtain ⟨g, hg, rfl⟩ := List.mem_map.mp he
    rcases List.mem_cons.mp hl with rfl | hl
    · have hheading := Text.not_mem_of_isMark (d := '\n') (hmnemonics g hg) (by decide)
      simp +decide [hheading]
    · obtain ⟨form, hform, rfl⟩ := List.mem_map.mp hl
      obtain ⟨i, hi, rfl⟩ := List.mem_map.mp hform
      have hdescribed := mt Pattern.feed_mem_describe.mp (hpatterns g hg i hi)
      simp +decide [hdescribed]
  have hheadings : ∀ e ∈ ofGroups groups, Unindented defaultIndent e.mnemonic := by
    intro e he
    obtain ⟨g, hg, rfl⟩ := List.mem_map.mp he
    exact unindented_of_unmarked (hmnemonics g hg)
  rw [read?, text, Text.lines_unlines (entryLines_ne_nil hne) hfeeds, blocks?_entryLines hheadings]

variable {is : List Instruction} {t : Tables}

/-- The listing is found again exactly if no pattern has a line feed.  The text has a line for
each group and each instruction, and one more for each line feed in the patterns. -/
theorem listing_read_back_iff (h : Tables.build is = .ok t) (hne : is ≠ []) :
    (read? defaultIndent (text defaultIndent t.listing) = some t.listing ↔
        ∀ i ∈ is, '\n' ∉ i.pattern.toList) ∧
      (Text.lines (text defaultIndent t.listing)).length =
        t.groups.length + is.length + (is.flatMap fun i => i.pattern.toList).count '\n' := by
  obtain ⟨haccepted, rfl⟩ := Tables.build_eq_ok.mp h
  have hroots := haccepted.exists_root
  have hmnemonics : ∀ g ∈ Groups.partition is, Text.Unmarked g.mnemonic.toList := by
    intro g hg
    obtain ⟨m, hm, rfl⟩ := List.mem_map.mp hg
    exact Keywords.unmarked_of_mem_roots hm
  have hperm := Groups.perm_partition hroots
  have hpartition : Groups.partition is ≠ [] := by
    intro hnil
    rw [hnil, List.flatMap_nil] at hperm
    exact hne hperm.nil_eq.symm
  refine ⟨⟨fun hread i hi => ?_, fun hpatterns => ?_⟩, ?_⟩
  · obtain ⟨g, hg, hmember⟩ := List.mem_flatMap.mp (hperm.mem_iff.mpr hi)
    have hform : Pattern.describe i.pattern ∈ g.members.map fun i => Pattern.describe i.pattern :=
      List.mem_map_of_mem hmember
    rw [← Pattern.feed_mem_describe]
    exact feed_not_mem_of_read? hread _ (List.mem_map_of_mem hg) _ hform
  · refine read?_text_ofGroups hpartition hmnemonics fun g hg i hi => ?_
    exact hpatterns i (hperm.mem_iff.mp (List.mem_flatMap_of_mem hg hi))
  · have hlength := length_lines_text hpartition hmnemonics
    rw [hperm.length_eq, (hperm.flatMap_right _).count_eq] at hlength
    exact hlength

/-- Patterns with blanks of other kinds, and a group that is taken up again. -/
def spaced : List Instruction :=
  [{ pattern := "MOV\tA ,\u2028X", opcode := 0, widths := [] },
    { pattern := "nop\r", opcode := 1, widths := [] },
    { pattern := "mov A, [%]", opcode := 2, widths := [16] }]

theorem listing_read_back_iff_spaced :
    Tables.build spaced = .ok (Tables.ofAccepted spaced) ∧ spaced ≠ [] ∧
      (∀ i ∈ spaced, '\n' ∉ i.pattern.toList) ∧
      read? defaultIndent (text defaultIndent (Tables.ofAccepted spaced).listing) =
        some [{ mnemonic := "mov", forms := ["MOV\tA ,\u2028X", "mov A, [adr]"] },
          { mnemonic := "nop", forms := ["nop\r"] }] ∧
      (Text.lines (text defaultIndent (Tables.ofAccepted spaced).listing)).length = 5 := by
  have hbuild : Tables.build spaced = .ok (Tables.ofAccepted spaced) := rfl
  have hfeeds : ∀ i ∈ spaced, '\n' ∉ i.pattern.toList := by decide
  have hlisting : (Tables.ofAccepted spaced).listing =
      [{ mnemonic := "mov", forms := ["MOV\tA ,\u2028X", "mov A, [adr]"] },
        { mnemonic := "nop", forms := ["nop\r"] }] := by
    decide +kernel
  obtain ⟨hread, hlength⟩ := listing_read_back_iff hbuild (List.cons_ne_nil _ _)
  refine ⟨hbuild, List.cons_ne_nil _ _, hfeeds, ?_, ?_⟩
  · rw [hread.mpr hfeeds, hlisting]
  · rw [hlength]
    decide +kernel

/-- A line feed between two operands. -/
def broken : List Instruction :=
  [{ pattern := "MOV A,\nX", opcode := 0, widths := [] }]

/-- The second half of the form stands on a line of its own. -/
theorem listing_broken_line :
    Tables.build broken = .ok (Tables.ofAccepted broken) ∧ broken ≠ [] ∧
      text defaultIndent (Tables.ofAccepted broken).listing = "mov:\n  MOV A,\nX\n" ∧
      read? defaultIndent (text defaultIndent (Tables.ofAccepted broken).listing) ≠
        some (Tables.ofAccepted broken).listing ∧
      (Text.lines (text defaultIndent (Tables.ofAccepted broken).listing)).length = 3 ∧
      (Tables.ofAccepted broken).groups.length + broken.length = 2 := by
  have htext : text defaultIndent (Tables.ofAccepted broken).listing = "mov:\n  MOV A,\nX\n" := by
    decide +kernel
  refine ⟨rfl, List.cons_ne_nil _ _, htext, ?_, ?_, by decide +kernel⟩
  · rw [htext]
    decide +kernel
  · rw [htext]
    decide +kernel

end Listing
end AssemblerTables
