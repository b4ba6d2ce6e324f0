/-
Sets of characters, given by the ranges of their code points.

A set is a table of ranges in increasing order, as a character property is
published.  Membership reads the table from the left and stops at the first
range that does not end before the character, so plain ASCII text never walks
far into a table.
-/

namespace AssemblerTables
namespace Text

/-- A set of characters: the first and last code points of its ranges, in
increasing order. -/
structure CharSet where
  ranges : List (Nat × Nat)

namespace CharSet

/-- Is the code point `n` in one of the ranges?  The ranges increase, so the first
one that does not end before `n` decides. -/
def covers : List (Nat × Nat) → Nat → Bool
  | [], _ => false
  | (first, last) :: rest, n => if last < n then covers rest n else decide (first ≤ n)

def contains (s : CharSet) (c : Char) : Bool :=
  covers s.ranges c.toNat

/-- A covered code point lies in one of the listed ranges, whatever their order. -/
theorem exists_range_of_covers {ranges : List (Nat × Nat)} {n : Nat}
    (h : covers ranges n = true) : ∃ r ∈ ranges, r.1 ≤ n ∧ n ≤ r.2 := by
  induction ranges with
  | nil => simp [covers] at h
  | cons r rest ih =>
      obtain ⟨first, last⟩ := r
      by_cases hlast : last < n
      · simp only [covers, hlast, if_true] at h
        obtain ⟨r, hr, hn⟩ := ih h
        exact ⟨r, List.mem_cons_of_mem _ hr, hn⟩
      · simp only [covers, hlast, if_false, decide_eq_true_eq] at h
        exact ⟨(first, last), List.mem_cons_self, h, Nat.le_of_not_lt hlast⟩

end CharSet
end Text
end AssemblerTables
