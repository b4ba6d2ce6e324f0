/-
Which texts in lower case have the same upper case form.

Upper case is not one to one, not even on texts in lower case: `ß` becomes what `ss`
becomes, and both small sigmas become the one capital.  A text is spelled out by putting
the upper case form of each of its characters back into lower case, so that `ß` is
spelled `ss` and the final sigma like the other.  Two texts in lower case have the same
upper case form exactly if they are spelled out alike, and no character outside
`respelled` is spelled differently from what it is.

As in the facts about lower case the tables are compared run by run.  Almost every run of
upper case is taken back by lower case as a whole; the sources of the others are tried one
by one, and so are the characters with several characters in upper case.
-/
import AssemblerTables.Proofs.Text.Case
import Mathlib.Data.List.Basic

namespace AssemblerTables
namespace Text

/-! ## Characters -/

/-- A character spelled by the lower case of its upper case form. -/
def spellOut (c : Char) : List Char :=
  (upperChar c).flatMap lowerChar

/-- The characters that are their own lower case and are spelled differently. -/
def respelled : CharSet :=
  ⟨[
    (181, 181), (223, 223), (305, 305), (329, 329), (383, 383), (496, 496), (837, 837),
    (912, 912), (944, 944), (962, 962), (976, 977), (981, 982), (1008, 1009), (1013, 1013),
    (1415, 1415), (7296, 7304), (7830, 7835), (8016, 8016), (8018, 8018), (8020, 8020),
    (8022, 8022), (8064, 8071), (8080, 8087), (8096, 8103), (8114, 8116), (8118, 8119),
    (8126, 8126), (8130, 8132), (8134, 8135), (8146, 8147), (8150, 8151), (8162, 8164),
    (8166, 8167), (8178, 8180), (8182, 8183), (64256, 64262), (64275, 64279)
  ]⟩

/-! ## Runs taken back -/

/-- Does a mapping take all images of a run back to their sources?  The first of its runs
that does not end before the images has to do it alone. -/
def takesBack : List CaseRun → CaseRun → Bool
  | [], _ => false
  | (first, last, stride, image) :: rest, r =>
    bif Nat.blt last r.low then takesBack rest r
    else Nat.ble first r.low && Nat.ble r.high last && (r.low - first) % stride == 0 &&
      (r.2.2.1 % stride == 0 || r.1 == r.2.1) && image + (r.low - first) == r.1

theorem mapCase_of_takesBack {runs : List CaseRun} {r : CaseRun} {n m : Nat}
    (h : takesBack runs r = true) (hm : r.Maps n m) : mapCase runs m = n := by
  have hlow := hm.isImage.low_le
  have hhigh := hm.isImage.le_high
  induction runs with
  | nil => simp [takesBack] at h
  | cons s rest ih =>
      obtain ⟨first, last, stride, image⟩ := s
      rw [mapCase]
      cases hend : Nat.blt last r.low with
      | true =>
          rw [takesBack, hend] at h
          have hlast : last < r.low := Nat.blt_eq.mp hend
          rw [if_pos (by omega)]
          exact ih h
      | false =>
          rw [takesBack, hend] at h
          simp only [cond_false, Bool.and_eq_true, Bool.or_eq_true, Nat.ble_eq, beq_iff_eq] at h
          obtain ⟨⟨⟨⟨hfirst, hlast⟩, hstart⟩, hstride⟩, hback⟩ := h
          obtain ⟨k, hk, hmod, rfl, rfl⟩ := hm
          have hmem : (r.2.2.2 + k - first) % stride = 0 := by
            have hdvd : stride ∣ k := by
              rcases hstride with hstride | hsingle
              · exact Nat.dvd_trans (Nat.dvd_of_mod_eq_zero hstride) (Nat.dvd_of_mod_eq_zero hmod)
              · have hzero : k = 0 := by omega
                rw [hzero]
                exact Nat.dvd_zero _
            have hsum : r.2.2.2 + k - first = (r.low - first) + k := by
              rw [CaseRun.low] at hfirst ⊢
              omega
            rw [hsum]
            exact Nat.mod_eq_zero_of_dvd
              (Nat.dvd_add (Nat.dvd_of_mod_eq_zero hstart) hdvd)
          rw [if_neg (by omega), if_pos ⟨by omega, hmem⟩]
          rw [CaseRun.low] at hfirst hback
          omega

namespace CaseRun

/-- Does lower case take the run back?  The capital I with a dot has a form of its own. -/
def isPaired (r : CaseRun) : Bool :=
  takesBack lowerRuns r && CharSet.avoids [(0x130, 0x130)] r.low r.high

def sources (r : CaseRun) : List Nat :=
  (List.range ((r.2.1 - r.1) / r.2.2.1 + 1)).map fun i => r.1 + r.2.2.1 * i

theorem Maps.mem_sources {r : CaseRun} {n m : Nat} (h : r.Maps n m) : n ∈ r.sources := by
  obtain ⟨k, hk, hmod, rfl, -⟩ := h
  refine List.mem_map.mpr ⟨k / r.2.2.1, List.mem_range.mpr ?_, ?_⟩
  · exact Nat.lt_succ_of_le (Nat.div_le_div_right hk)
  · rw [Nat.mul_div_cancel' (Nat.dvd_of_mod_eq_zero hmod)]

end CaseRun

/-! ## The tables -/

/-- Has the spelling of the character its upper case form, and is it the character itself
unless that is known to be respelled, or is not in lower case? -/
def isSettled (c : Char) : Bool :=
  (spellOut c).flatMap upperChar == upperChar c &&
    (respelled.contains c || lowerChar c != [c] || spellOut c == [c])

theorem spelling_checked :
    (upperRuns.all fun r => r.isPaired || r.sources.all fun n => isSettled (Char.ofNat n)) = true ∧
      (upperExpansions.all fun e => isSettled (Char.ofNat e.1)) = true := by
  decide +kernel

theorem isSettled_of_spellOut {c : Char} (h : spellOut c = [c]) : isSettled c = true := by
  have hupper : [c].flatMap upperChar = upperChar c := by
    rw [List.flatMap_cons, List.flatMap_nil, List.append_nil]
  rw [isSettled, h, hupper]
  simp

theorem spellOut_singleton {c d : Char} (h : upperChar c = [d]) : spellOut c = lowerChar d := by
  rw [spellOut, h, List.flatMap_cons, List.flatMap_nil, List.append_nil]

/-- What a paired run takes to upper case is taken back. -/
theorem lowerChar_of_isPaired {r : CaseRun} (hmem : r ∈ upperRuns) (hr : r.isPaired = true)
    {c : Char} {m : Nat} (hm : r.Maps c.toNat m) : lowerChar (Char.ofNat m) = [c] := by
  obtain ⟨hback, hdot⟩ := Bool.and_eq_true_iff.mp hr
  have himage := hm.isImage
  have hclean := List.all_eq_true.mp tables_checked.2.2.1 r hmem
  have hnumber : (Char.ofNat m).toNat = m := (ofNat_of_isClean hclean himage).1
  have hne : Char.ofNat m ≠ 'İ' := by
    intro he
    have hcover := CharSet.covers_of_avoids hdot himage.low_le himage.le_high
    rw [← hnumber, he] at hcover
    revert hcover
    decide
  rw [lowerChar, if_neg hne, hnumber, mapCase_of_takesBack hback hm, Char.ofNat_toNat]

theorem isSettled_of_isLowered {c : Char} (hc : IsLowered c) : isSettled c = true := by
  obtain ⟨hruns, hexpansions⟩ := spelling_checked
  cases hfind : upperExpansions.find? (fun e => e.1 == c.toNat) with
  | some e =>
      have hsettled := List.all_eq_true.mp hexpansions e (List.mem_of_find?_eq_some hfind)
      have hsource := List.find?_some hfind
      rw [beq_iff_eq.mp hsource, Char.ofNat_toNat] at hsettled
      exact hsettled
  | none =>
      have hupper : upperChar c = [Char.ofNat (mapCase upperRuns c.toNat)] := by
        rw [upperChar, hfind]
      rcases mapCase_eq_or_maps upperRuns c.toNat with hsame | ⟨r, hr, hmaps⟩
      · rw [hsame, Char.ofNat_toNat] at hupper
        exact isSettled_of_spellOut (by rw [spellOut_singleton hupper, hc.2])
      · rcases Bool.or_eq_true_iff.mp (List.all_eq_true.mp hruns r hr) with hpaired | hsources
        · apply isSettled_of_spellOut
          rw [spellOut_singleton hupper, lowerChar_of_isPaired hr hpaired hmaps]
        · have hsettled := List.all_eq_true.mp hsources _ hmaps.mem_sources
          rw [Char.ofNat_toNat] at hsettled
          exact hsettled

/-- The spelling of a character has the upper case form of the character. -/
theorem upperChar_spellOut {c : Char} (hc : IsLowered c) :
    (spellOut c).flatMap upperChar = upperChar c := by
  have hsettled := isSettled_of_isLowered hc
  rw [isSettled, Bool.and_eq_true, beq_iff_eq] at hsettled
  exact hsettled.1

theorem spellOut_eq_self {c : Char} (hc : IsLowered c) (h : respelled.contains c = false) :
    spellOut c = [c] := by
  have hsettled := isSettled_of_isLowered hc
  rw [isSettled, Bool.and_eq_true] at hsettled
  simpa [h, hc.2] using hsettled.2

/-! ## Texts -/

def spelledOut (s : List Char) : List Char :=
  s.flatMap spellOut

/-- A text is spelled out by the lower case of its upper case form. -/
theorem spelledOut_eq (s : List Char) : spelledOut s = (upperChars s).flatMap lowerChar := by
  rw [spelledOut, upperChars, List.flatMap_assoc]
  rfl

theorem upperChars_spelledOut {s : List Char} (hs : ∀ c ∈ s, IsLowered c) :
    upperChars (spelledOut s) = upperChars s := by
  rw [spelledOut, upperChars, upperChars, List.flatMap_assoc]
  exact List.flatMap_congr fun c hc => upperChar_spellOut (hs c hc)

theorem spelledOut_eq_self {s : List Char} (hs : ∀ c ∈ s, IsLowered c)
    (h : ∀ c ∈ s, respelled.contains c = false) : spelledOut s = s := by
  rw [spelledOut, List.flatMap_congr fun c hc => spellOut_eq_self (hs c hc) (h c hc)]
  exact List.flatMap_singleton' s

/-- Texts in lower case have one upper case form exactly if they are spelled out alike. -/
theorem upperChars_eq_iff {s t : List Char} (hs : ∀ c ∈ s, IsLowered c)
    (ht : ∀ c ∈ t, IsLowered c) : upperChars s = upperChars t ↔ spelledOut s = spelledOut t := by
  constructor
  · intro h
    rw [spelledOut_eq, spelledOut_eq, h]
  · intro h
    rw [← upperChars_spelledOut hs, h, upperChars_spelledOut ht]

end Text
end AssemblerTables
