/-
Columns can be read back.

A line has nothing in it that says where one item ends and the next begins.  The width does:
the line is cut at its multiples, as the items were cut into rows before, and the blanks at
the end of each cell are dropped.  That gives the items if none of them ends in a blank.  They
may have blanks inside, and the last cell of a line may be short of the width.
-/
import AssemblerTables.Columns
import AssemblerTables.Proofs.Text.Trimmed

namespace AssemblerTables

/-! ## Padding -/

namespace Text

/-- A text that is shorter than its column has a blank behind it. -/
theorem padRight_eq {n : Nat} {w : String} (hw : w.length < n) :
    padRight n w = (w ++ " ") ++ String.ofList (List.replicate (n - w.length - 1) ' ') := by
  obtain ⟨k, hk⟩ : ∃ k, n - w.length = k + 1 := ⟨n - w.length - 1, by omega⟩
  apply String.toList_inj.mp
  simp [padRight, hk, List.replicate_succ]

theorem toList_padRight (n : Nat) (w : String) :
    (padRight n w).toList = w.toList ++ List.replicate (n - w.length) ' ' := by
  rw [padRight, String.toList_append, String.toList_ofList]

theorem length_toList_padRight {n : Nat} {w : String} (hw : w.length ≤ n) :
    (padRight n w).toList.length = n := by
  rw [toList_padRight, List.length_append, List.length_replicate, String.length_toList]
  omega

end Text

namespace Columns

/-! ## Rows -/

section Rows

variable {α : Type} {perRow : Nat} (hperRow : 1 ≤ perRow)
include hperRow

/-- As many rows as there are items are enough, and more change nothing. -/
theorem cut_congr {m n : Nat} {items : List α} (hm : items.length ≤ m) (hn : items.length ≤ n) :
    cut perRow m items = cut perRow n items := by
  induction m generalizing n items with
  | zero =>
      rw [List.eq_nil_of_length_eq_zero (Nat.le_zero.mp hm)]
      cases n <;> rfl
  | succ m ih =>
      cases items with
      | nil => cases n <;> rfl
      | cons x rest =>
          cases n with
          | zero => cases hn
          | succ n =>
              rw [List.length_cons] at hm hn
              have hdrop : ((x :: rest).drop perRow).length ≤ rest.length := by
                rw [List.length_drop, List.length_cons]
                omega
              show _ :: cut perRow m _ = _ :: cut perRow n _
              rw [ih (n := n) (by omega) (by omega)]

theorem rows_of_ne_nil {items : List α} (hne : items ≠ []) :
    rows perRow items = items.take perRow :: rows perRow (items.drop perRow) := by
  cases items with
  | nil => exact absurd rfl hne
  | cons x rest =>
      have hdrop : ((x :: rest).drop perRow).length ≤ rest.length := by
        rw [List.length_drop, List.length_cons]
        omega
      show _ :: cut perRow rest.length _ = _ :: cut perRow _ _
      rw [cut_congr hperRow hdrop (Nat.le_refl _)]

/-- Rows are made one at a time, of the items that are left. -/
theorem rows_induction {motive : List α → Prop} (nil : motive [])
    (row : ∀ items, items ≠ [] → motive (items.drop perRow) → motive items) (items : List α) :
    motive items := by
  generalize hn : items.length = n
  induction n using Nat.strongRecOn generalizing items with
  | ind n ih =>
      by_cases hne : items = []
      · exact hne ▸ nil
      · have hpos := List.length_pos_iff.mpr hne
        have hshort : (items.drop perRow).length < n := by
          rw [List.length_drop]
          omega
        exact row items hne (ih _ hshort _ rfl)

theorem flatten_rows (items : List α) : (rows perRow items).flatten = items := by
  induction items using rows_induction hperRow with
  | nil => rfl
  | row items hne ih =>
      rw [rows_of_ne_nil hperRow hne, List.flatten_cons, ih, List.take_append_drop]

/-- There are as many rows as it takes, the last one counted in full. -/
theorem length_rows (items : List α) :
    (rows perRow items).length = (items.length + perRow - 1) / perRow := by
  induction items using rows_induction hperRow with
  | nil =>
      symm
      exact Nat.div_eq_of_lt (by rw [List.length_nil]; omega)
  | row items hne ih =>
      have hpos := List.length_pos_iff.mpr hne
      rw [rows_of_ne_nil hperRow hne, List.length_cons, ih, List.length_drop]
      by_cases hmore : perRow ≤ items.length
      · have hall : items.length + perRow - 1 = items.length - perRow + perRow - 1 + perRow := by
          omega
        rw [hall, Nat.add_div_right _ hperRow]
      · have hnone : items.length - perRow + perRow - 1 < perRow := by omega
        have hall : items.length + perRow - 1 = items.length - 1 + perRow := by omega
        rw [Nat.div_eq_of_lt hnone, hall, Nat.add_div_right _ hperRow,
          Nat.div_eq_of_lt (by omega)]

theorem getElem?_rows (items : List α) (r : Nat) :
    (rows perRow items)[r]? =
      if r * perRow < items.length then some ((items.drop (r * perRow)).take perRow)
      else none := by
  induction items using rows_induction hperRow generalizing r with
  | nil => rfl
  | row items hne ih =>
      have hpos := List.length_pos_iff.mpr hne
      rw [rows_of_ne_nil hperRow hne]
      cases r with
      | zero => simp [hpos]
      | succ r =>
          have hiff : r * perRow < (items.drop perRow).length ↔
              (r + 1) * perRow < items.length := by
            rw [List.length_drop, Nat.succ_mul]
            omega
          rw [List.getElem?_cons_succ, ih, if_congr hiff rfl rfl, List.drop_drop, Nat.succ_mul,
            Nat.add_comm perRow]

/-- The place of an item tells its row and the place in the row. -/
theorem exists_row {items : List α} {i : Nat} {x : α} (hi : items[i]? = some x) :
    ∃ row, (rows perRow items)[i / perRow]? = some row ∧ row[i % perRow]? = some x := by
  have hlength : i < items.length := (List.getElem?_eq_some_iff.mp hi).1
  have hstart : i / perRow * perRow < items.length :=
    Nat.lt_of_le_of_lt (Nat.div_mul_le_self i perRow) hlength
  refine ⟨_, by rw [getElem?_rows hperRow, if_pos hstart], ?_⟩
  rw [List.getElem?_take_of_lt (Nat.mod_lt i hperRow), List.getElem?_drop,
    Nat.div_add_mod' i perRow]
  exact hi

/-- Only the last row can be short. -/
theorem length_row {items row : List α} {r : Nat} (h : (rows perRow items)[r]? = some row) :
    0 < row.length ∧ row.length ≤ perRow ∧
      (r + 1 < (rows perRow items).length → row.length = perRow) := by
  rw [getElem?_rows hperRow] at h
  by_cases hr : r * perRow < items.length
  · rw [if_pos hr] at h
    have hlength : row.length = min perRow (items.length - r * perRow) := by
      rw [← Option.some.inj h, List.length_take, List.length_drop]
    refine ⟨by omega, by omega, fun hnext => ?_⟩
    obtain ⟨next, hrow⟩ : ∃ next, (rows perRow items)[r + 1]? = some next :=
      ⟨_, List.getElem?_eq_getElem hnext⟩
    rw [getElem?_rows hperRow] at hrow
    by_cases hr' : (r + 1) * perRow < items.length
    · rw [Nat.succ_mul] at hr'
      omega
    · rw [if_neg hr'] at hrow
      cases hrow
  · rw [if_neg hr] at h
    cases h

theorem rows_append {xs : List α} (hxs : xs.length = perRow) (ys : List α) :
    rows perRow (xs ++ ys) = xs :: rows perRow ys := by
  have hne : xs ++ ys ≠ [] := by
    intro h
    rw [(List.append_eq_nil_iff.mp h).1, List.length_nil] at hxs
    omega
  rw [rows_of_ne_nil hperRow hne, List.take_left' hxs, List.drop_left' hxs]

theorem rows_eq_singleton {xs : List α} (hne : xs ≠ []) (hxs : xs.length ≤ perRow) :
    rows perRow xs = [xs] := by
  rw [rows_of_ne_nil hperRow hne, List.take_of_length_le hxs, List.drop_of_length_le hxs]
  rfl

end Rows

/-! ## Widths -/

/-- A column is wider than each of its items. -/
theorem length_lt_width {items : List String} {w : String} (hw : w ∈ items) :
    w.length < width items := by
  have hmax : w.length ≤ (items.map String.length).foldl max 0 := by
    rw [List.foldl_max]
    exact Nat.le_trans (List.le_max?_getD_of_mem (List.mem_map_of_mem hw)) (Nat.le_max_right _ _)
  exact Nat.lt_succ_of_le hmax

/-- One of the items is a single blank short of the column. -/
theorem exists_length_eq_width {items : List String} (hne : items ≠ []) :
    ∃ w ∈ items, w.length + 1 = width items := by
  have hlengths : items.map String.length ≠ [] := fun h => hne (List.map_eq_nil_iff.mp h)
  obtain ⟨n, hn⟩ := Option.isSome_iff_exists.mp (List.isSome_max?_of_ne_nil hlengths)
  obtain ⟨w, hw, hlength⟩ := List.mem_map.mp (List.max?_mem hn)
  refine ⟨w, hw, ?_⟩
  rw [width, List.foldl_max, hn, Option.getD_some, Nat.zero_max, hlength]

/-! ## Lines -/

/-- The items of a line: what stands in its columns without the blanks that fill them up. -/
def cells (width : Nat) (indent line : String) : List String :=
  (rows width (line.toList.drop indent.toList.length)).map fun cell =>
    String.ofList (Text.dropEnd (· = ' ') cell)

/-- An item with a comma behind it. -/
def EndsInComma (w : String) : Prop :=
  w.toList.getLast? = some ','

instance (w : String) : Decidable (EndsInComma w) :=
  inferInstanceAs (Decidable (w.toList.getLast? = some ','))

section Lines

variable {n : Nat} {row : List String}

/-- The blanks that fill up a column are told from its item by the comma between them. -/
theorem dropEnd_padRight {w : String} (hw : EndsInComma w) (n : Nat) {kind : Char → Bool}
    (hcomma : kind ',' = false) (hblank : kind ' ' = true) :
    Text.dropEnd kind (Text.padRight n w).toList = w.toList := by
  have hfill : ∀ c ∈ List.replicate (n - w.length) ' ', kind c = true := by
    intro c hc
    rw [List.eq_of_mem_replicate hc]
    exact hblank
  rw [Text.toList_padRight, Text.dropEnd_append hfill]
  refine Text.dropEnd_eq_self_of_getLast? fun c hc => ?_
  rw [hw] at hc
  cases hc
  exact hcomma

theorem comma_mem_join (hne : row ≠ []) (hrow : ∀ w ∈ row, EndsInComma w) :
    ',' ∈ (String.join (row.map (Text.padRight n))).toList := by
  cases row with
  | nil => exact absurd rfl hne
  | cons w rest =>
      have hw : ',' ∈ w.toList := List.mem_of_getLast? (hrow w List.mem_cons_self)
      rw [List.map_cons, String.join_cons, String.toList_append, Text.toList_padRight]
      exact List.mem_append_left _ (List.mem_append_left _ hw)

/-- What stands in a line behind the indent. -/
theorem drop_line (n : Nat) (indent : String) (row : List String) :
    (line n indent row).toList.drop indent.toList.length =
      Text.dropEnd Text.isBlank (String.join (row.map (Text.padRight n))).toList := by
  rw [line, String.toList_append, String.toList_ofList, List.drop_left]

/-- The columns of a line have its items in them.  Only the last column may be cut short. -/
theorem cells_line (hrow : ∀ w ∈ row, EndsInComma w) (hn : ∀ w ∈ row, w.length < n)
    (indent : String) : cells n indent (line n indent row) = row := by
  rw [cells, drop_line]
  induction row with
  | nil => rfl
  | cons w rest ih =>
      have hw := hrow w List.mem_cons_self
      have hwidth := hn w List.mem_cons_self
      have hpos : 1 ≤ n := by omega
      have hcell : String.ofList (Text.dropEnd (· = ' ') (Text.padRight n w).toList) = w := by
        rw [dropEnd_padRight hw n (by decide) (by decide), String.ofList_toList]
      rw [List.map_cons, String.join_cons, String.toList_append]
      by_cases hlast : rest = []
      · subst hlast
        have hne : w.toList ≠ [] := fun h => by
          rw [EndsInComma, h] at hw
          cases hw
        have hwhole : Text.dropEnd (· = ' ') w.toList = w.toList :=
          Text.dropEnd_eq_self_of_getLast? fun c hc => by
            rw [hw] at hc
            cases hc
            rfl
        rw [List.map_nil, String.join_nil, String.toList_empty, List.append_nil,
          dropEnd_padRight hw n (by decide) (by decide),
          rows_eq_singleton hpos hne (by rw [String.length_toList]; omega), List.map_singleton,
          hwhole, String.ofList_toList]
      · have hrest := fun v hv => hrow v (List.mem_cons_of_mem _ hv)
        rw [Text.dropEnd_append_of_mem (comma_mem_join hlast hrest) (by decide),
          rows_append hpos (Text.length_toList_padRight (by omega)), List.map_cons, hcell,
          ih hrest fun v hv => hn v (List.mem_cons_of_mem _ hv)]

theorem getLast?_line (hne : row ≠ []) (hrow : ∀ w ∈ row, EndsInComma w) (n : Nat)
    (indent : String) :
    ∃ c, (line n indent row).toList.getLast? = some c ∧ Text.isBlank c = false := by
  have hmem := comma_mem_join (n := n) hne hrow
  rw [line, String.toList_append, String.toList_ofList]
  obtain ⟨after, hafter, hbody⟩ := Text.exists_dropEnd_append Text.isBlank
    (String.join (row.map (Text.padRight n))).toList
  have hstays :
      Text.dropEnd Text.isBlank (String.join (row.map (Text.padRight n))).toList ≠ [] := by
    intro h
    rw [h, List.nil_append] at hbody
    rw [← hbody] at hmem
    exact absurd (hafter ',' hmem) (by decide)
  obtain ⟨c, hc⟩ := Option.isSome_iff_exists.mp (List.getLast?_isSome.mpr hstays)
  refine ⟨c, ?_, Text.getLast?_dropEnd c hc⟩
  rw [List.getLast?_append, hc]
  rfl

end Lines

/-! ## All lines -/

/-- Does the item stand in the line at a place, counted in columns that are so wide? -/
structure StandsAt (width : Nat) (indent line : String) (place : Nat) (w : String) : Prop where
  cell : (cells width indent line)[place]? = some w
  offset : w.toList <+: (line.toList.drop indent.toList.length).drop (place * width)

/-- Items laid out in lines, so many to a line and in columns that are so wide. -/
structure IsLaidOut (items : List String) (perRow width : Nat) (indent : String)
    (lines : List String) : Prop where
  length_lt_width : ∀ w ∈ items, w.length < width
  exists_length : items ≠ [] → ∃ w ∈ items, w.length + 1 = width
  count : lines.length = (items.length + perRow - 1) / perRow
  indented : ∀ l ∈ lines, indent.toList <+: l.toList
  unblank : ∀ l ∈ lines, ∃ c, l.toList.getLast? = some c ∧ Text.isBlank c = false
  items_eq : lines.flatMap (cells width indent) = items
  full : ∀ r l, lines[r]? = some l → 0 < (cells width indent l).length ∧
    (cells width indent l).length ≤ perRow ∧
      (r + 1 < lines.length → (cells width indent l).length = perRow)
  places : ∀ i w, items[i]? = some w →
    ∃ l, lines[i / perRow]? = some l ∧ StandsAt width indent l (i % perRow) w

/-- A cell starts at a multiple of the width, and its item at the start of the cell. -/
theorem standsAt_of_cells {width : Nat} (hwidth : 1 ≤ width) {indent line w : String} {place : Nat}
    (h : (cells width indent line)[place]? = some w) : StandsAt width indent line place w := by
  refine ⟨h, ?_⟩
  rw [cells, List.getElem?_map, getElem?_rows hwidth] at h
  split at h
  · rename_i hplace
    obtain ⟨after, -, hcell⟩ := Text.exists_dropEnd_append (· = ' ')
      (((line.toList.drop indent.toList.length).drop (place * width)).take width)
    rw [← Option.some.inj h, String.toList_ofList]
    exact List.IsPrefix.trans ⟨after, hcell⟩ (List.take_prefix _ _)
  · cases h

section Layout

variable {items : List String} {perRow : Nat}

theorem mem_of_mem_rows (hperRow : 1 ≤ perRow) {row : List String} (hrow : row ∈ rows perRow items)
    {w : String} (hw : w ∈ row) : w ∈ items := by
  rw [← flatten_rows hperRow items]
  exact List.mem_flatten_of_mem hrow hw

/-- The cells of a line are the items of its row, in columns that are wide enough for all. -/
theorem cells_row (hitems : ∀ w ∈ items, EndsInComma w) (hperRow : 1 ≤ perRow)
    {row : List String} (hrow : row ∈ rows perRow items) (indent : String) :
    cells (width items) indent (line (width items) indent row) = row :=
  cells_line (fun w hw => hitems w (mem_of_mem_rows hperRow hrow hw))
    (fun _ hw => length_lt_width (mem_of_mem_rows hperRow hrow hw)) indent

theorem getElem?_lines {r : Nat} {row : List String} (h : (rows perRow items)[r]? = some row)
    (indent : String) :
    (lines items perRow indent)[r]? = some (line (width items) indent row) := by
  rw [lines, List.getElem?_map, h]
  rfl

/-- The rows come one to a line, and every question about a line is one about its row. -/
theorem isLaidOut_lines (hitems : ∀ w ∈ items, EndsInComma w) (hperRow : 1 ≤ perRow)
    (indent : String) :
    IsLaidOut items perRow (width items) indent (lines items perRow indent) := by
  refine { length_lt_width := fun w hw => length_lt_width hw,
           exists_length := exists_length_eq_width, count := ?_, indented := ?_,
           unblank := ?_, items_eq := ?_, full := ?_, places := ?_ }
  · rw [lines, List.length_map, length_rows hperRow]
  · intro l hl
    obtain ⟨row, -, rfl⟩ := List.mem_map.mp hl
    rw [line, String.toList_append]
    exact List.prefix_append _ _
  · intro l hl
    obtain ⟨row, hrow, rfl⟩ := List.mem_map.mp hl
    obtain ⟨r, hr⟩ := List.mem_iff_getElem?.mp hrow
    exact getLast?_line (List.length_pos_iff.mp (length_row hperRow hr).1)
      (fun w hw => hitems w (mem_of_mem_rows hperRow hrow hw)) _ _
  · rw [lines, List.flatMap_map,
      List.flatMap_congr fun row hrow => cells_row hitems hperRow hrow indent]
    simpa using flatten_rows hperRow items
  · intro r l hl
    have hrows : (lines items perRow indent).length = (rows perRow items).length :=
      List.length_map _
    rw [lines, List.getElem?_map, Option.map_eq_some_iff] at hl
    obtain ⟨row, hrow, rfl⟩ := hl
    rw [cells_row hitems hperRow (List.mem_of_getElem? hrow), hrows]
    exact length_row hperRow hrow
  · intro i w hi
    obtain ⟨row, hrow, hplace⟩ := exists_row hperRow hi
    rw [← cells_row hitems hperRow (List.mem_of_getElem? hrow) indent] at hplace
    exact ⟨_, getElem?_lines hrow indent, standsAt_of_cells (Nat.succ_pos _) hplace⟩

end Layout

end Columns
end AssemblerTables
