/-
Readers of text.

A reader takes a value off the front of a text and leaves the rest.  `Reads r t a` says
that `r` takes `t` for `a` whatever stands behind it.  Readers one after the other read
texts one after the other, so what a reader makes of a written text follows the way in
which the text is put together.
-/
import AssemblerTables.Proofs.Number.Numeral

namespace AssemblerTables
namespace Text

abbrev Reading (α : Type) : Type :=
  StateT (List Char) Option α

namespace Reading

variable {α β : Type}

/-! ## Readers -/

def expect (literal : String) : Reading Unit := fun s =>
  if literal.toList.isPrefixOf s then some ((), s.drop literal.toList.length) else none

/-- The text before the next `stop`, which is taken off too. -/
def before (stop : Char) : Reading String := fun s =>
  match s.dropWhile (· ≠ stop) with
  | [] => none
  | _ :: rest => some (String.ofList (s.takeWhile (· ≠ stop)), rest)

/-- A decimal number, as far as its digits go. -/
def number : Reading Nat := fun s =>
  (Numeral.digits? .decimal (s.takeWhile Char.isDigit)).map fun n =>
    (n, s.dropWhile Char.isDigit)

/-- Items up to a literal, which is taken off too: at most `limit` of them. -/
def itemsWithin (stop : String) (item : Reading α) : Nat → Reading (List α)
  | 0 => do
    expect stop
    return []
  | limit + 1 =>
    (do
      expect stop
      return []) <|>
    (do
      let x ← item
      let xs ← itemsWithin stop item limit
      return x :: xs)

/-- Items up to a literal.  There cannot be more items than characters. -/
def itemsUntil (stop : String) (item : Reading α) : Reading (List α) := fun s =>
  itemsWithin stop item s.length s

/-! ## What readers read -/

/-- Does the reader take the text for the value, whatever stands behind it? -/
def Reads (r : Reading α) (text : String) (a : α) : Prop :=
  ∀ rest, r (text.toList ++ rest) = some (a, rest)

/-- Does the literal stand nowhere at the start of the text, whatever stands behind it? -/
def Misses (literal text : String) : Prop :=
  ∀ rest, expect literal (text.toList ++ rest) = none

section Reads

variable {r : Reading α} {f : α → Reading β} {t u : String} {a : α} {b : β}

theorem Reads.bind (hr : Reads r t a) (hf : Reads (f a) u b) : Reads (r >>= f) (t ++ u) b := by
  intro rest
  show (r ((t ++ u).toList ++ rest)).bind (fun p => f p.1 p.2) = _
  rw [String.toList_append, List.append_assoc, hr]
  exact hf rest

theorem Reads.bind_pure (hr : Reads r t a) (g : α → β) :
    Reads (r >>= fun x => pure (g x)) t (g a) := by
  intro rest
  show (r (t.toList ++ rest)).bind (fun p => some (g p.1, p.2)) = _
  rw [hr]
  rfl

/-- A reader whose value is then put to a test that it passes. -/
theorem Reads.bind_lift (hr : Reads r t a) {g : α → Option β} (hg : g a = some b) :
    Reads (r >>= fun x => StateT.lift (g x)) t b := by
  intro rest
  show (r (t.toList ++ rest)).bind (fun p => (g p.1).bind fun y => some (y, p.2)) = _
  rw [hr]
  show (g a).bind (fun y => some (y, rest)) = _
  rw [hg]
  rfl

/-- The first of two readers is the one that reads. -/
theorem Reads.orElse {r' : Reading α} (hr : Reads r t a) : Reads (r <|> r') t a := by
  intro rest
  show (r (t.toList ++ rest) <|> r' (t.toList ++ rest)) = _
  rw [hr]
  rfl

theorem reads_expect (literal : String) : Reads (expect literal) literal () := by
  intro rest
  have hprefix : literal.toList.isPrefixOf (literal.toList ++ rest) = true :=
    List.isPrefixOf_iff_prefix.mpr (List.prefix_append _ _)
  rw [expect, if_pos hprefix, List.drop_left]

theorem reads_before {stop : Char} {closing : String} (hclosing : closing.toList = [stop])
    {w : String} (hw : stop ∉ w.toList) : Reads (before stop) (w ++ closing) w := by
  intro rest
  have hpass : ∀ c ∈ w.toList, decide (c ≠ stop) = true :=
    fun c hc => decide_eq_true fun h => hw (h ▸ hc)
  have htext : (w ++ closing).toList ++ rest = w.toList ++ stop :: rest := by
    rw [String.toList_append, hclosing, List.append_assoc]
    rfl
  have hdrop : (w.toList ++ stop :: rest).dropWhile (· ≠ stop) = stop :: rest := by
    rw [List.dropWhile_append_of_pos hpass, List.dropWhile_cons_of_neg (by simp)]
  have htake : (w.toList ++ stop :: rest).takeWhile (· ≠ stop) = w.toList := by
    rw [List.takeWhile_append_of_pos hpass, List.takeWhile_cons_of_neg (by simp),
      List.append_nil]
  rw [htext, before, hdrop, htake]
  show some (String.ofList w.toList, rest) = _
  rw [String.ofList_toList]

/-- A number is read up to what is no digit. -/
theorem number_append (n : Nat) {rest : List Char}
    (hrest : rest.head?.all Char.isDigit = false) :
    number (n.repr.toList ++ rest) = some (n, rest) := by
  have hdigits : ∀ c ∈ n.repr.toList, c.isDigit = true := by
    intro c hc
    rw [Nat.toList_repr] at hc
    exact Nat.isDigit_of_mem_toDigits (by decide) (by decide) hc
  cases rest with
  | nil => cases hrest
  | cons c others =>
      have hc : ¬ c.isDigit = true := by
        change c.isDigit = false at hrest
        rw [hrest]
        exact Bool.false_ne_true
      rw [number, List.takeWhile_append_of_pos hdigits, List.dropWhile_append_of_pos hdigits,
        List.takeWhile_cons_of_neg hc, List.dropWhile_cons_of_neg hc, List.append_nil,
        Numeral.digits?_repr]
      rfl

theorem Reads.number_bind {f : Nat → Reading β} {n : Nat} (hf : Reads (f n) t b)
    (ht : t.toList.head?.all Char.isDigit = false) :
    Reads (number >>= f) (toString n ++ t) b := by
  intro rest
  have hrest : (t.toList ++ rest).head?.all Char.isDigit = false := by
    cases hlist : t.toList with
    | nil =>
        rw [hlist] at ht
        cases ht
    | cons c others =>
        rw [hlist] at ht
        exact ht
  have htext : (toString n ++ t).toList ++ rest = n.repr.toList ++ (t.toList ++ rest) := by
    rw [String.toList_append, List.append_assoc]
    rfl
  rw [htext]
  show (number (n.repr.toList ++ (t.toList ++ rest))).bind (fun p => f p.1 p.2) = _
  rw [number_append n hrest]
  exact hf rest

end Reads

/-! ## Items -/

theorem misses_of_literal {literal text : String}
    (hlength : literal.toList.length ≤ text.toList.length)
    (h : literal.toList.isPrefixOf text.toList = false) : Misses literal text := by
  intro rest
  have hprefix : ¬ literal.toList.isPrefixOf (text.toList ++ rest) = true := by
    rw [List.isPrefixOf_iff_prefix]
    intro hp
    have hshort : literal.toList <+: text.toList :=
      List.prefix_of_prefix_length_le hp (List.prefix_append _ _) hlength
    rw [List.isPrefixOf_iff_prefix.mpr hshort] at h
    exact Bool.noConfusion h
  rw [expect, if_neg hprefix]

theorem Misses.append {literal text : String} (h : Misses literal text) (u : String) :
    Misses literal (text ++ u) := by
  intro rest
  rw [String.toList_append, List.append_assoc]
  exact h _

/-- The second reader reads where the literal of the first is missing. -/
theorem Misses.orElse {literal t : String} (h : Misses literal t) {f : Unit → Reading α}
    {r : Reading α} {a : α} (hr : Reads r t a) : Reads ((expect literal >>= f) <|> r) t a := by
  intro rest
  show ((expect literal (t.toList ++ rest)).bind (fun p => f p.1 p.2) <|>
    r (t.toList ++ rest)) = _
  rw [h rest, hr rest]
  rfl

section Items

variable {stop : String} {item : Reading β} {text : α → String} {value : α → β} {xs : List α}

theorem reads_itemsWithin (hitem : ∀ x ∈ xs, Reads item (text x) (value x))
    (hstop : ∀ x ∈ xs, Misses stop (text x)) {limit : Nat} (hlimit : xs.length ≤ limit) :
    Reads (itemsWithin stop item limit) (String.join (xs.map text) ++ stop)
      (xs.map value) := by
  induction xs generalizing limit with
  | nil =>
      rw [List.map_nil, String.join_nil, String.empty_append]
      have hend : Reads (do expect stop; return ([] : List β)) stop [] :=
        (reads_expect stop).bind_pure fun _ => []
      cases limit with
      | zero => exact hend
      | succ limit => exact hend.orElse
  | cons x rest ih =>
      cases limit with
      | zero => cases hlimit
      | succ limit =>
          have hrest : Reads (itemsWithin stop item limit)
              (String.join (rest.map text) ++ stop) (rest.map value) :=
            ih (fun y hy => hitem y (List.mem_cons_of_mem _ hy))
              (fun y hy => hstop y (List.mem_cons_of_mem _ hy)) (Nat.le_of_succ_le_succ hlimit)
          rw [List.map_cons, String.join_cons, String.append_assoc]
          exact ((hstop x List.mem_cons_self).append _).orElse
            ((hitem x List.mem_cons_self).bind (hrest.bind_pure fun ys => value x :: ys))

/-- Texts of items one after the other, and then the literal that ends them. -/
theorem reads_itemsUntil (hitem : ∀ x ∈ xs, Reads item (text x) (value x))
    (hstop : ∀ x ∈ xs, Misses stop (text x)) :
    Reads (itemsUntil stop item) (String.join (xs.map text) ++ stop) (xs.map value) := by
  intro rest
  refine reads_itemsWithin hitem hstop ?_ rest
  -- An item without characters would let the literal behind it be found.
  have hpos : ∀ x ∈ xs, 1 ≤ (text x).toList.length := by
    intro x hx
    cases hx' : (text x).toList with
    | nil =>
        have hmiss := hstop x hx stop.toList
        have hread := reads_expect stop []
        rw [hx', List.nil_append, ← List.append_nil stop.toList, hread] at hmiss
        cases hmiss
    | cons c others => exact Nat.succ_le_succ (Nat.zero_le _)
  have hsum : xs.length ≤ (String.join (xs.map text)).toList.length := by
    clear hitem hstop
    induction xs with
    | nil => exact Nat.zero_le _
    | cons x others ih =>
        have hx := hpos x List.mem_cons_self
        have hothers := ih fun y hy => hpos y (List.mem_cons_of_mem _ hy)
        rw [List.map_cons, String.join_cons, String.toList_append, List.length_append,
          List.length_cons]
        omega
  rw [String.toList_append, List.length_append, List.length_append]
  omega

end Items

end Reading
end Text
end AssemblerTables
