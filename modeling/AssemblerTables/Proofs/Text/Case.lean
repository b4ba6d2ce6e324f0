/-
Letter case keeps marks away and lower case is final.

Neither lower nor upper case makes a mark of a character that is none.  A text in
lower case stays as it is when it is put into lower case again, also where a sigma was
written in its final form: no image of the lower case runs is a source of one, and no
capital sigma is left.

Both facts are read off the runs by interval.  The images of a run lie between its own
image and the image of its last source.  No character is lost in lower case, so a text and
its proper start differ there too.
-/
import AssemblerTables.Proofs.Text.Marks

namespace AssemblerTables
namespace Text

/-! ## Runs -/

namespace CaseRun

/-- The least image of a run. -/
def low (r : CaseRun) : Nat :=
  r.2.2.2

/-- The greatest image of a run. -/
def high (r : CaseRun) : Nat :=
  r.2.2.2 + (r.2.1 - r.1)

/-- Is `n` one of the sources of the run? -/
def IsSource (r : CaseRun) (n : Nat) : Prop :=
  r.1 ≤ n ∧ n ≤ r.2.1 ∧ (n - r.1) % r.2.2.1 = 0

/-- Is `n` one of the images of the run? -/
def IsImage (r : CaseRun) (n : Nat) : Prop :=
  ∃ k, k ≤ r.2.1 - r.1 ∧ k % r.2.2.1 = 0 ∧ n = r.2.2.2 + k

/-- Does the run take `n` to `m`? -/
def Maps (r : CaseRun) (n m : Nat) : Prop :=
  ∃ k, k ≤ r.2.1 - r.1 ∧ k % r.2.2.1 = 0 ∧ n = r.1 + k ∧ m = r.2.2.2 + k

theorem Maps.isImage {r : CaseRun} {n m : Nat} (h : r.Maps n m) : r.IsImage m := by
  obtain ⟨k, hk, hmod, -, rfl⟩ := h
  exact ⟨k, hk, hmod, rfl⟩

/-- Is none of the images of `r` a source of `s`?  Either they lie apart, or the strides
agree and the images fall between the sources. -/
def misses (r s : CaseRun) : Bool :=
  Nat.blt s.2.1 r.low || Nat.blt r.high s.1 ||
    ((r.2.2.1 % s.2.2.1 == 0 || r.1 == r.2.1) && !(r.2.2.2 % s.2.2.1 == s.1 % s.2.2.1))

theorem IsImage.low_le {r : CaseRun} {n : Nat} (h : r.IsImage n) : r.low ≤ n := by
  obtain ⟨k, -, -, rfl⟩ := h
  exact Nat.le_add_right _ k

theorem IsImage.le_high {r : CaseRun} {n : Nat} (h : r.IsImage n) : n ≤ r.high := by
  obtain ⟨k, hk, -, rfl⟩ := h
  exact Nat.add_le_add_left hk _

theorem not_isSource_of_misses {r s : CaseRun} {n : Nat} (h : r.misses s = true)
    (hn : r.IsImage n) : ¬ s.IsSource n := by
  rintro ⟨hfirst, hlast, hmod⟩
  have hlow := hn.low_le
  have hhigh := hn.le_high
  simp only [misses, Bool.or_eq_true, Bool.and_eq_true, Nat.blt_eq, beq_iff_eq,
    Bool.not_eq_true', beq_eq_false_iff_ne] at h
  rcases h with (hleft | hright) | ⟨hstride, hapart⟩
  · omega
  · omega
  · -- Both remainders by the stride of `s` are that of `n`.
    apply hapart
    obtain ⟨k, hk, hkmod, rfl⟩ := hn
    have hkdvd : s.2.2.1 ∣ k := by
      rcases hstride with hstride | hsingle
      · exact Nat.dvd_trans (Nat.dvd_of_mod_eq_zero hstride) (Nat.dvd_of_mod_eq_zero hkmod)
      · have hzero : k = 0 := by omega
        rw [hzero]
        exact Nat.dvd_zero _
    obtain ⟨t, ht⟩ := Nat.dvd_of_mod_eq_zero hmod
    obtain ⟨u, hu⟩ := hkdvd
    have hsum : r.2.2.2 + s.2.2.1 * u = s.1 + s.2.2.1 * t := by omega
    rw [← Nat.add_mul_mod_self_left r.2.2.2 s.2.2.1 u, hsum, Nat.add_mul_mod_self_left]

end CaseRun

/-- A simple mapping gives the code point back or does what one of its runs does. -/
theorem mapCase_eq_or_maps (runs : List CaseRun) (n : Nat) :
    mapCase runs n = n ∨ ∃ r ∈ runs, r.Maps n (mapCase runs n) := by
  induction runs with
  | nil => exact .inl rfl
  | cons r rest ih =>
      obtain ⟨first, last, stride, image⟩ := r
      rw [mapCase]
      by_cases hlast : last < n
      · rw [if_pos hlast]
        rcases ih with ih | ⟨r, hr, hmaps⟩
        · exact .inl ih
        · exact .inr ⟨r, List.mem_cons_of_mem _ hr, hmaps⟩
      · rw [if_neg hlast]
        by_cases hsource : first ≤ n ∧ (n - first) % stride = 0
        · rw [if_pos hsource]
          exact .inr ⟨_, List.mem_cons_self, n - first, by simp only; omega, hsource.2,
            by simp only; omega, rfl⟩
        · rw [if_neg hsource]
          exact .inl rfl

theorem mapCase_eq_or_isImage (runs : List CaseRun) (n : Nat) :
    mapCase runs n = n ∨ ∃ r ∈ runs, r.IsImage (mapCase runs n) := by
  rcases mapCase_eq_or_maps runs n with hsame | ⟨r, hr, hmaps⟩
  · exact .inl hsame
  · exact .inr ⟨r, hr, hmaps.isImage⟩

theorem mapCase_eq_self {runs : List CaseRun} {n : Nat} (h : ∀ r ∈ runs, ¬ r.IsSource n) :
    mapCase runs n = n := by
  induction runs with
  | nil => rfl
  | cons r rest ih =>
      obtain ⟨first, last, stride, image⟩ := r
      rw [mapCase]
      by_cases hlast : last < n
      · rw [if_pos hlast]
        exact ih fun r hr => h r (List.mem_cons_of_mem _ hr)
      · rw [if_neg hlast, if_neg]
        rintro ⟨hfirst, hmod⟩
        exact h _ List.mem_cons_self ⟨hfirst, Nat.le_of_not_lt hlast, hmod⟩

/-! ## The tables -/

/-- Are the images of the run characters, and no marks? -/
def CaseRun.isClean (r : CaseRun) : Bool :=
  CharSet.avoids [(0xD800, 0xDFFF)] r.low r.high && Nat.blt r.high 0x110000 &&
    CharSet.avoids markCharacters.ranges r.low r.high

/-- Are the images of the run sources of no run of lower case, and none of the two capitals
with rules of their own? -/
def CaseRun.isFinal (r : CaseRun) : Bool :=
  lowerRuns.all r.misses && CharSet.avoids [(0x130, 0x130), (0x3A3, 0x3A3)] r.low r.high

/-- Has the expansion characters in it, and no marks? -/
def isCleanExpansion (form : List Nat) : Bool :=
  !form.isEmpty && form.all fun n => !isMark (Char.ofNat n)

theorem tables_checked :
    lowerRuns.all CaseRun.isClean = true ∧ lowerRuns.all CaseRun.isFinal = true ∧
      upperRuns.all CaseRun.isClean = true ∧
        (upperExpansions.all fun e => isCleanExpansion e.2) = true := by
  decide +kernel

/-! ## Characters -/

theorem toNat_ofNat {n : Nat} (h : n.isValidChar) : (Char.ofNat n).toNat = n := by
  rw [Char.ofNat, dif_pos h]
  rfl

/-- What a run makes of a character is a character, and no mark. -/
theorem ofNat_of_isClean {r : CaseRun} {n : Nat} (hr : r.isClean = true) (hn : r.IsImage n) :
    (Char.ofNat n).toNat = n ∧ isMark (Char.ofNat n) = false := by
  simp only [CaseRun.isClean, Bool.and_eq_true, Nat.blt_eq] at hr
  obtain ⟨⟨hgap, hlast⟩, hmarks⟩ := hr
  have hlow := hn.low_le
  have hhigh := hn.le_high
  have hsurrogate := CharSet.covers_of_avoids hgap hlow hhigh
  have hvalid : n.isValidChar := by
    simp only [CharSet.covers] at hsurrogate
    by_cases h : 0xDFFF < n
    · exact .inr ⟨h, by omega⟩
    · rw [if_neg h, decide_eq_false_iff_not] at hsurrogate
      exact .inl (by omega)
  have hback := toNat_ofNat hvalid
  refine ⟨hback, ?_⟩
  rw [isMark, CharSet.contains, hback]
  exact CharSet.covers_of_avoids hmarks hlow hhigh

theorem isMark_mapCase {runs : List CaseRun} (hruns : runs.all CaseRun.isClean = true)
    {c : Char} (hc : isMark c = false) :
    isMark (Char.ofNat (mapCase runs c.toNat)) = false := by
  rcases mapCase_eq_or_isImage runs c.toNat with hsame | ⟨r, hr, himage⟩
  · rw [hsame, Char.ofNat_toNat]
    exact hc
  · exact (ofNat_of_isClean (List.all_eq_true.mp hruns r hr) himage).2

theorem unmarked_lowerChar {c : Char} (hc : isMark c = false) : Unmarked (lowerChar c) := by
  rw [lowerChar]
  by_cases hdot : c = 'İ'
  · rw [if_pos hdot]
    decide
  · rw [if_neg hdot]
    intro d hd
    rw [List.mem_singleton.mp hd]
    exact isMark_mapCase tables_checked.1 hc

theorem upperChar_ne_nil (c : Char) : upperChar c ≠ [] := by
  obtain ⟨-, -, -, hexpansions⟩ := tables_checked
  rw [upperChar]
  split
  · rename_i e he
    have hclean := List.all_eq_true.mp hexpansions e (List.mem_of_find?_eq_some he)
    rw [isCleanExpansion, Bool.and_eq_true] at hclean
    rw [Ne, List.map_eq_nil_iff]
    simpa using hclean.1
  · exact List.cons_ne_nil _ _

theorem unmarked_upperChar {c : Char} (hc : isMark c = false) : Unmarked (upperChar c) := by
  obtain ⟨-, -, hruns, hexpansions⟩ := tables_checked
  intro d hd
  rw [upperChar] at hd
  cases hfind : upperExpansions.find? (fun e => e.1 == c.toNat) with
  | none =>
      rw [hfind] at hd
      rw [List.mem_singleton.mp hd]
      exact isMark_mapCase hruns hc
  | some e =>
      rw [hfind] at hd
      obtain ⟨n, hn, rfl⟩ := List.mem_map.mp hd
      have hclean := List.all_eq_true.mp hexpansions e (List.mem_of_find?_eq_some hfind)
      rw [isCleanExpansion, Bool.and_eq_true] at hclean
      simpa using List.all_eq_true.mp hclean.2 n hn

/-! ## Texts -/

/-- Is the character its own lower case, wherever it stands? -/
def IsLowered (c : Char) : Prop :=
  c ≠ 'Σ' ∧ lowerChar c = [c]

theorem isLowered_of_mem_lowerChar {c d : Char} (hc : c ≠ 'Σ') (hd : d ∈ lowerChar c) :
    IsLowered d := by
  obtain ⟨hclean, hfinal, -⟩ := tables_checked
  by_cases hdot : c = 'İ'
  · rw [lowerChar, if_pos hdot] at hd
    have htwo : d = 'i' ∨ d = '\u0307' := by simpa using hd
    rcases htwo with rfl | rfl
    · exact ⟨by decide, rfl⟩
    · exact ⟨by decide, rfl⟩
  · have hone := hd
    rw [lowerChar, if_neg hdot, List.mem_singleton] at hone
    rcases mapCase_eq_or_isImage lowerRuns c.toNat with hsame | ⟨r, hr, himage⟩
    · rw [hsame, Char.ofNat_toNat] at hone
      rw [hone]
      exact ⟨hc, by rw [lowerChar, if_neg hdot, hsame, Char.ofNat_toNat]⟩
    · have hback : d.toNat = mapCase lowerRuns c.toNat := by
        rw [hone]
        exact (ofNat_of_isClean (List.all_eq_true.mp hclean r hr) himage).1
      rw [← hback] at himage
      obtain ⟨hmisses, hcapitals⟩ :=
        Bool.and_eq_true_iff.mp (List.all_eq_true.mp hfinal r hr)
      have hfixed : mapCase lowerRuns d.toNat = d.toNat :=
        mapCase_eq_self fun s hs =>
          CaseRun.not_isSource_of_misses (List.all_eq_true.mp hmisses s hs) himage
      have hcapital := CharSet.covers_of_avoids hcapitals himage.low_le himage.le_high
      constructor
      · rintro rfl
        revert hcapital
        decide
      · rw [lowerChar, if_neg, hfixed, Char.ofNat_toNat]
        rintro rfl
        revert hcapital
        decide

theorem isLowered_sigma (final : Bool) : IsLowered (if final then 'ς' else 'σ') := by
  cases final with
  | true => exact ⟨by decide, rfl⟩
  | false => exact ⟨by decide, rfl⟩

theorem isLowered_of_mem_lowerAfter {behind : Bool} {s : List Char} {d : Char}
    (hd : d ∈ lowerAfter behind s) : IsLowered d := by
  induction s generalizing behind with
  | nil => simp [lowerAfter] at hd
  | cons c rest ih =>
      simp only [lowerAfter, List.mem_append] at hd
      rcases hd with hd | hd
      · by_cases hc : c = 'Σ'
        · rw [if_pos hc, List.mem_singleton] at hd
          rw [hd]
          exact isLowered_sigma _
        · rw [if_neg hc] at hd
          exact isLowered_of_mem_lowerChar hc hd
      · exact ih hd

/-- Text of characters in lower case stays, whatever stands before it. -/
theorem lowerAfter_eq_self {behind : Bool} {s : List Char} (h : ∀ c ∈ s, IsLowered c) :
    lowerAfter behind s = s := by
  induction s generalizing behind with
  | nil => rfl
  | cons c rest ih =>
      obtain ⟨hsigma, hlower⟩ := h c List.mem_cons_self
      simp only [lowerAfter, if_neg hsigma, hlower]
      rw [ih fun d hd => h d (List.mem_cons_of_mem _ hd)]
      rfl

theorem lowerChars_lowerChars (s : List Char) : lowerChars (lowerChars s) = lowerChars s :=
  lowerAfter_eq_self fun _ hd => isLowered_of_mem_lowerAfter hd

theorem lower_lower (s : String) : lower (lower s) = lower s := by
  rw [lower, lower, String.toList_ofList, lowerChars_lowerChars]

theorem unmarked_lowerAfter {behind : Bool} {s : List Char} (hs : Unmarked s) :
    Unmarked (lowerAfter behind s) := by
  induction s generalizing behind with
  | nil => exact fun d hd => absurd hd List.not_mem_nil
  | cons c rest ih =>
      intro d hd
      simp only [lowerAfter, List.mem_append] at hd
      rcases hd with hd | hd
      · by_cases hc : c = 'Σ'
        · rw [if_pos hc, List.mem_singleton] at hd
          rw [hd]
          split <;> decide
        · rw [if_neg hc] at hd
          exact unmarked_lowerChar (hs c List.mem_cons_self) d hd
      · exact ih (fun e he => hs e (List.mem_cons_of_mem _ he)) d hd

theorem unmarked_lowerChars {s : List Char} (hs : Unmarked s) : Unmarked (lowerChars s) :=
  unmarked_lowerAfter hs

theorem lowerChar_ne_nil (c : Char) : lowerChar c ≠ [] := by
  rw [lowerChar]
  split <;> exact List.cons_ne_nil _ _

/-- The length of a text in lower case does not depend on where its sigmas stand. -/
theorem length_lowerAfter (behind : Bool) (s : List Char) :
    (lowerAfter behind s).length = (s.flatMap lowerChar).length := by
  induction s generalizing behind with
  | nil => rfl
  | cons c rest ih =>
      have hform (final : Bool) :
          (if c = 'Σ' then [if final then 'ς' else 'σ'] else lowerChar c).length =
            (lowerChar c).length := by
        by_cases hc : c = 'Σ'
        · rw [if_pos hc, hc]
          rfl
        · rw [if_neg hc]
      rw [lowerAfter, List.length_append, hform, ih, List.flatMap_cons, List.length_append]

/-- A text that goes on is longer in lower case too. -/
theorem eq_of_lowerChars_of_startsWith {s t : List Char} (hstart : s <+: t)
    (h : lowerChars s = lowerChars t) : s = t := by
  obtain ⟨rest, rfl⟩ := hstart
  have hlength : (lowerChars s).length = (lowerChars (s ++ rest)).length := congrArg _ h
  rw [lowerChars, lowerChars, length_lowerAfter, length_lowerAfter, List.flatMap_append,
    List.length_append] at hlength
  have hrest : rest.flatMap lowerChar = [] := List.length_eq_zero_iff.mp (by omega)
  cases rest with
  | nil => rw [List.append_nil]
  | cons c others =>
      rw [List.flatMap_cons, List.append_eq_nil_iff] at hrest
      exact absurd hrest.1 (lowerChar_ne_nil c)

theorem toList_upper (s : String) : (upper s).toList = upperChars s.toList :=
  String.toList_ofList

theorem unmarked_upperChars {s : List Char} (hs : Unmarked s) : Unmarked (upperChars s) := by
  intro d hd
  obtain ⟨c, hc, hd⟩ := List.mem_flatMap.mp hd
  exact unmarked_upperChar (hs c hc) d hd

end Text
end AssemblerTables
