/-
A description names every placeholder by its two neighbours in the pattern.

Describing goes over the text three times, and each time over what the time before has
written.  It comes to the same as one pass: a name has no placeholder in it, and the brackets
around a placeholder stay where they are, so nothing that is written changes the neighbours
of a placeholder that is left.  That is why the brackets can be gone over in either order, and
why a description is described by itself.

The law is shown for passes in general.  A pass is a function that names a placeholder by the
characters next to it, and a pass that names only what stands between two brackets, followed
by another one, is a single pass again.
-/
import AssemblerTables.Pattern
import Mathlib.Data.List.Basic

namespace AssemblerTables
namespace Pattern

/-! ## Names -/

/-- Tells what to write for a placeholder, by the characters directly before and behind it. -/
abbrev Naming := Option Char → Option Char → List Char

/-- A name for the placeholders between two brackets, and another naming for all others. -/
def between (opening closing : Char) (name : List Char) (others : Naming) : Naming :=
  fun before after =>
    if before = some opening ∧ after = some closing then name else others before after

/-- Placeholders as they are. -/
def kept : Naming :=
  fun _ _ => ['%']

/-- An address in square brackets, a pointer in round ones, an immediate value elsewhere. -/
def described : Naming :=
  between '[' ']' ['a', 'd', 'r'] (between '(' ')' ['p', 't', 'r'] fun _ _ => ['i', 'm', 'm'])

/-- What stands for the character at place `i`: a name, told by the neighbours in `s` itself,
for a placeholder, and the character for any other. -/
def writtenAt (naming : Naming) (s : List Char) (i : Nat) : List Char :=
  if s[i]? = some '%' then naming (if i = 0 then none else s[i - 1]?) s[i + 1]?
  else s[i]?.toList

/-! ## One pass -/

/-- Names the placeholders of a text from left to right.  The first argument is what stands
before the text. -/
def pass (naming : Naming) : Option Char → List Char → List Char
  | _, [] => []
  | before, c :: rest =>
    (if c = '%' then naming before rest.head? else [c]) ++ pass naming (some c) rest

variable {naming : Naming} {opening closing c : Char} {name s : List Char}

theorem pass_cons_of_ne (hc : c ≠ '%') (before : Option Char) (s : List Char) :
    pass naming before (c :: s) = c :: pass naming (some c) s := by
  simp [pass, hc]

theorem pass_eq_self (h : '%' ∉ s) (before : Option Char) : pass naming before s = s := by
  induction s generalizing before with
  | nil => rfl
  | cons c rest ih =>
      rw [List.mem_cons, not_or] at h
      rw [pass_cons_of_ne (Ne.symm h.1), ih h.2]

theorem not_mem_pass (h : ∀ before after, '%' ∉ naming before after) (before : Option Char)
    (s : List Char) : '%' ∉ pass naming before s := by
  induction s generalizing before with
  | nil => exact List.not_mem_nil
  | cons c rest ih =>
      rw [pass, List.mem_append, not_or]
      refine ⟨?_, ih (some c)⟩
      by_cases hc : c = '%'
      · rw [if_pos hc]
        exact h before rest.head?
      · rw [if_neg hc, List.mem_singleton]
        exact Ne.symm hc

/-- Only the placeholder that a text starts with can see what stands before the text. -/
theorem pass_congr_before {before before' : Option Char}
    (h : s.head? = some '%' → naming before s.tail.head? = naming before' s.tail.head?) :
    pass naming before s = pass naming before' s := by
  cases s with
  | nil => rfl
  | cons c rest =>
      by_cases hc : c = '%'
      · rw [pass, pass, if_pos hc, if_pos hc]
        exact congrArg (· ++ pass naming (some c) rest) (h (congrArg some hc))
      · rw [pass_cons_of_ne hc, pass_cons_of_ne hc]

/-- A pass writes at every place what the neighbours of that place tell. -/
theorem pass_eq_flatMap (naming : Naming) (before s : List Char) :
    pass naming before.getLast? s =
      (List.range' before.length s.length).flatMap (writtenAt naming (before ++ s)) := by
  induction s generalizing before with
  | nil => rfl
  | cons c rest ih =>
      have hbefore : (if before.length = 0 then none
          else (before ++ c :: rest)[before.length - 1]?) = before.getLast? := by
        rcases List.eq_nil_or_concat before with rfl | ⟨others, d, rfl⟩
        · rfl
        · simp
      have hplace : writtenAt naming (before ++ c :: rest) before.length =
          if c = '%' then naming before.getLast? rest.head? else [c] := by
        have hnext : (before ++ c :: rest)[before.length + 1]? = rest.head? := by
          rw [List.getElem?_append_right (by omega), List.head?_eq_getElem?]
          simp
        rw [writtenAt, hbefore, hnext]
        simp
      have hrest := ih (before ++ [c])
      rw [List.getLast?_concat, List.length_append, List.length_singleton, List.append_assoc,
        List.singleton_append] at hrest
      rw [pass, List.length_cons, List.range'_succ, List.flatMap_cons, hplace, hrest]

/-! ## Passes between brackets -/

theorem between_of_not {others : Naming} {before after : Option Char}
    (h : ¬ (before = some opening ∧ after = some closing)) :
    between opening closing name others before after = others before after :=
  if_neg h

/-- Brackets of different kinds do not compete for a placeholder. -/
theorem between_comm {opening' closing' : Char} (h : opening ≠ opening') (name' : List Char)
    (others : Naming) :
    between opening closing name (between opening' closing' name' others) =
      between opening' closing' name' (between opening closing name others) := by
  funext before after
  unfold between
  by_cases hbefore : before = some opening
  · have hother : before ≠ some opening' := by
      rw [hbefore]
      exact fun heq => h (Option.some.inj heq)
    simp [hother]
  · simp [hbefore]

theorem label_eq_pass (ho : opening ≠ '%') (hc : closing ≠ '%') (hne : opening ≠ closing)
    (name s : List Char) :
    label opening closing name s = pass (between opening closing name kept) none s := by
  have hnone (after : Option Char) : between opening closing name kept none after = ['%'] :=
    between_of_not (fun h => by cases h.1)
  fun_induction label opening closing name s with
  | case1 => rfl
  | case2 a => simp [pass, hnone]
  | case3 a b =>
      have hlast (before : Option Char) :
          between opening closing name kept before none = ['%'] :=
        between_of_not (fun h => by cases h.2)
      by_cases ha : a = '%' <;> by_cases hb : b = '%' <;> simp [pass, hnone, hlast, ha, hb]
  | case4 a b c rest hshape ih =>
      obtain ⟨rfl, rfl, rfl⟩ := hshape
      have hname : between a c name kept (some a) (some c) = name := if_pos ⟨rfl, rfl⟩
      -- The closing bracket does not open another pair.
      have hafter : pass (between a c name kept) (some c) rest =
          pass (between a c name kept) none rest := by
        refine pass_congr_before fun _ => ?_
        rw [hnone]
        exact between_of_not (fun h => hne (Option.some.inj h.1).symm)
      rw [pass_cons_of_ne ho, pass, if_pos rfl, List.head?_cons, hname, pass_cons_of_ne hc,
        hafter, ih]
      rfl
  | case5 a b c rest hshape ih =>
      have hfirst : pass (between opening closing name kept) none (a :: b :: c :: rest) =
          a :: pass (between opening closing name kept) (some a) (b :: c :: rest) := by
        by_cases ha : a = '%'
        · rw [pass, if_pos ha, hnone, ha]
          rfl
        · exact pass_cons_of_ne ha none _
      have hrest : pass (between opening closing name kept) (some a) (b :: c :: rest) =
          pass (between opening closing name kept) none (b :: c :: rest) := by
        refine pass_congr_before fun hb => ?_
        rw [hnone]
        refine between_of_not fun h => hshape ?_
        exact ⟨Option.some.inj h.1, Option.some.inj hb, Option.some.inj h.2⟩
      rw [hfirst, hrest, ih]

theorem labelBare_eq_pass (name : List Char) (before : Option Char) (s : List Char) :
    labelBare name s = pass (fun _ _ => name) before s := by
  induction s generalizing before with
  | nil => rfl
  | cons c rest ih =>
      show (if c = '%' then name else [c]) ++ labelBare name rest = _
      rw [ih (some c), pass]

/-! ## Two passes -/

/-- Nothing in a name is named again, and the bracket behind it starts anew. -/
theorem pass_append_cons (hname : '%' ∉ name) (hc : c ≠ '%') (before : Option Char)
    (s : List Char) :
    pass naming before (name ++ c :: s) = name ++ c :: pass naming (some c) s := by
  induction name generalizing before with
  | nil => exact pass_cons_of_ne hc before s
  | cons d rest ih =>
      rw [List.mem_cons, not_or] at hname
      rw [List.cons_append, pass_cons_of_ne (Ne.symm hname.1), ih hname.2, List.cons_append]

/-- A pass between brackets leaves the character behind a placeholder as it is. -/
theorem head?_pass_between (ho : opening ≠ '%') (s : List Char) :
    (pass (between opening closing name kept) (some '%') s).head? = s.head? := by
  cases s with
  | nil => rfl
  | cons c rest =>
      by_cases hc : c = '%'
      · have hkept : between opening closing name kept (some '%') rest.head? = ['%'] :=
          between_of_not (fun h => ho (Option.some.inj h.1).symm)
        rw [pass, if_pos hc, hkept, hc]
        rfl
      · rw [pass_cons_of_ne hc]
        rfl

/-- A pass after one between brackets is a single pass. -/
theorem pass_pass_between (hname : '%' ∉ name) (ho : opening ≠ '%') (hc : closing ≠ '%')
    (before : Option Char) (s : List Char) :
    pass naming before (pass (between opening closing name kept) before s) =
      pass (between opening closing name naming) before s := by
  induction s generalizing before with
  | nil => rfl
  | cons c rest ih =>
      by_cases hplace : c = '%'
      · subst hplace
        by_cases hpair : before = some opening ∧ rest.head? = some closing
        · obtain ⟨others, rfl⟩ : ∃ others, rest = closing :: others :=
            List.head?_eq_some_iff.mp hpair.2
          have hrest := ih (some '%')
          rw [pass_cons_of_ne hc, pass_cons_of_ne hc, pass_cons_of_ne hc] at hrest
          rw [pass, if_pos rfl, between, if_pos hpair, pass_cons_of_ne hc,
            pass_append_cons hname hc, hrest, pass, if_pos rfl, between, if_pos hpair,
            pass_cons_of_ne hc]
        · have hhead : (pass (between opening closing name kept) (some '%') rest).head? =
              rest.head? :=
            head?_pass_between ho rest
          rw [pass, if_pos rfl, between_of_not hpair]
          show pass naming before ('%' :: pass _ (some '%') rest) = _
          rw [pass, if_pos rfl, hhead, ih, pass, if_pos rfl, between_of_not hpair]
      · rw [pass_cons_of_ne hplace, pass_cons_of_ne hplace, pass_cons_of_ne hplace, ih]

/-! ## Descriptions -/

theorem describeChars_eq_pass (s : List Char) : describeChars s = pass described none s := by
  rw [describeChars, labelBare_eq_pass _ none, label_eq_pass (by decide) (by decide) (by decide),
    label_eq_pass (by decide) (by decide) (by decide),
    pass_pass_between (by decide) (by decide) (by decide),
    pass_pass_between (by decide) (by decide) (by decide), ← described]

theorem describeChars_swapped (s : List Char) :
    labelBare ['i', 'm', 'm']
        (label '[' ']' ['a', 'd', 'r'] (label '(' ')' ['p', 't', 'r'] s)) = describeChars s := by
  rw [describeChars_eq_pass, labelBare_eq_pass _ none,
    label_eq_pass (by decide) (by decide) (by decide),
    label_eq_pass (by decide) (by decide) (by decide),
    pass_pass_between (by decide) (by decide) (by decide),
    pass_pass_between (by decide) (by decide) (by decide), between_comm (by decide), ← described]

/-- The names in descriptions. -/
def labels : List (List Char) :=
  [['a', 'd', 'r'], ['p', 't', 'r'], ['i', 'm', 'm']]

theorem described_mem_labels (before after : Option Char) : described before after ∈ labels := by
  unfold described between
  split
  · decide
  · split
    · decide
    · show ['i', 'm', 'm'] ∈ labels
      decide

theorem not_mem_described (before after : Option Char) : '%' ∉ described before after := by
  have hlabels : ∀ name ∈ labels, '%' ∉ name := by decide
  exact hlabels _ (described_mem_labels before after)

theorem not_mem_describeChars (s : List Char) : '%' ∉ describeChars s := by
  rw [describeChars_eq_pass]
  exact not_mem_pass not_mem_described none s

theorem describeChars_eq_self (h : '%' ∉ s) : describeChars s = s := by
  rw [describeChars_eq_pass, pass_eq_self h]

theorem describeChars_eq_flatMap (s : List Char) :
    describeChars s = (List.range s.length).flatMap (writtenAt described s) := by
  rw [describeChars_eq_pass, List.range_eq_range']
  exact pass_eq_flatMap described [] s

/-- A description has at every place what the pattern has there: the character, or for a
placeholder the name that its two neighbours in the pattern tell.  So no placeholder is left,
a description is described by itself, and it makes no difference which brackets go first. -/
theorem describe_place_by_place (pattern : String) :
    (describe pattern).toList =
        (List.range pattern.toList.length).flatMap (writtenAt described pattern.toList) ∧
      '%' ∉ (describe pattern).toList ∧
      describe (describe pattern) = describe pattern ∧
      labelBare ['i', 'm', 'm'] (label '[' ']' ['a', 'd', 'r']
          (label '(' ')' ['p', 't', 'r'] pattern.toList)) = (describe pattern).toList := by
  have hchars : (describe pattern).toList = describeChars pattern.toList := String.toList_ofList
  have hnone : '%' ∉ (describe pattern).toList := by
    rw [hchars]
    exact not_mem_describeChars _
  refine ⟨?_, hnone, ?_, ?_⟩
  · rw [hchars, describeChars_eq_flatMap]
  · rw [describe, describeChars_eq_self hnone, String.ofList_toList]
  · rw [hchars, describeChars_swapped]

/-- Brackets next to each other, brackets of two kinds, and a pair around two placeholders. -/
example : describe "[%]%](%](%)[%%]" = "[adr]imm](imm](ptr)[immimm]" := by
  decide +kernel

end Pattern
end AssemblerTables
