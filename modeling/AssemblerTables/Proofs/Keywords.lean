/-
The keyword table of instructions, in closed form.

Two passes put words into one table: first the mnemonics of all instructions, then all
words of all patterns.  The mnemonics therefore stand in front, each once, and no word
stands in the table twice.  So the place of a keyword and the keyword determine each
other, and a word is a mnemonic if and only if its place is below the count.
-/
import AssemblerTables.Keywords
import AssemblerTables.Proofs.Groups

namespace AssemblerTables
namespace Keywords

/-- The keyword table of instructions that all have a mnemonic. -/
def ofRooted (is : List Instruction) : Keywords :=
  { words := (Groups.roots is ++ is.flatMap fun i => Pattern.words i.pattern).eraseDups,
    mnemonicCount := (Groups.roots is).length }

theorem ofInstructions_eq {is : List Instruction} (h : ∀ i ∈ is, ∃ m, i.root? = some m) :
    ofInstructions is = .ok (ofRooted is) := by
  have hmnemonic : ∀ i ∈ is, ∃ m, i.mnemonic = .ok m := by
    intro i hi
    obtain ⟨m, hm⟩ := h i hi
    exact ⟨m, Instruction.mnemonic_eq_ok.mpr hm⟩
  have hroot : (fun i : Instruction => i.mnemonic.toOption) = Instruction.root? := by
    funext i
    rw [Instruction.mnemonic, Instruction.root?]
    cases Pattern.mnemonic? i.pattern with
    | none => rfl
    | some m => rfl
  rw [ofInstructions, Result.mapM_eq_filterMap hmnemonic, hroot]
  rfl

/-! ## Words -/

/-- The words that are no mnemonics, each where it first appears. -/
def others (is : List Instruction) : List String :=
  ((is.flatMap fun i => Pattern.words i.pattern).removeAll (Groups.roots is)).eraseDups

/-- The mnemonics stand in front. -/
theorem words_ofRooted (is : List Instruction) :
    (ofRooted is).words = Groups.roots is ++ others is :=
  Distinct.eraseDups_append_of_nodup (Groups.nodup_roots is) _

theorem nodup_words_ofRooted (is : List Instruction) : (ofRooted is).words.Nodup :=
  Distinct.nodup_eraseDups _

theorem unmarked_of_mem_roots {is : List Instruction} {m : String} (hm : m ∈ Groups.roots is) :
    Text.Unmarked m.toList := by
  obtain ⟨i, -, hi⟩ := Groups.mem_roots.mp hm
  exact Pattern.unmarked_mnemonic hi

/-- Keywords have no marks in them. -/
theorem unmarked_of_mem_words {is : List Instruction} {w : String}
    (hw : w ∈ (ofRooted is).words) : Text.Unmarked w.toList := by
  rw [ofRooted, List.mem_eraseDups, List.mem_append, List.mem_flatMap] at hw
  rcases hw with hm | ⟨i, -, hw⟩
  · exact unmarked_of_mem_roots hm
  · exact Pattern.unmarked_of_mem_words hw

/-! ## Places -/

theorem bound_mnemonicCount (is : List Instruction) :
    (ofRooted is).bound (ofRooted is).mnemonicCount = (Groups.roots is).length := by
  have hsize : (ofRooted is).size = (Groups.roots is).length + (others is).length := by
    rw [size, words_ofRooted, List.length_append]
  have hcount : (ofRooted is).mnemonicCount = ((Groups.roots is).length : Int) := rfl
  rw [bound, hcount, if_neg (by omega), hsize]
  omega

theorem mnemonics_ofRooted (is : List Instruction) :
    (ofRooted is).mnemonics = Groups.roots is := by
  show ((ofRooted is).words.take ((ofRooted is).bound (ofRooted is).mnemonicCount)).drop 0 = _
  rw [bound_mnemonicCount, words_ofRooted, List.take_left, List.drop_zero]

/-- The words behind the mnemonics. -/
def operandWords (k : Keywords) : List String :=
  k.span (some k.mnemonicCount) none

theorem operandWords_ofRooted (is : List Instruction) :
    (ofRooted is).operandWords = others is := by
  show ((ofRooted is).words.take (ofRooted is).size).drop
    ((ofRooted is).bound (ofRooted is).mnemonicCount) = _
  rw [bound_mnemonicCount, size, List.take_length, words_ofRooted, List.drop_left]

theorem isMnemonic_ofRooted (is : List Instruction) (w : String) :
    (ofRooted is).isMnemonic w = true ↔ Text.lower w ∈ Groups.roots is := by
  rw [isMnemonic, mnemonics_ofRooted, List.contains_iff_mem]

/-- Without bounds the place of a word is asked for in the whole table. -/
theorem index?_eq_idxOf? (k : Keywords) (w : String) : k.index? w 0 none = k.words.idxOf? w := by
  have hall : (k.words.take k.size).drop 0 = k.words := by
    rw [size, List.take_length, List.drop_zero]
  show (((k.words.take k.size).drop 0).idxOf? w).map (· + 0) = _
  rw [hall]
  exact Option.map_id_apply

theorem get?_eq_getElem? (k : Keywords) (i : Nat) : k.get? i = k.words[i]? := by
  have hi : ¬ (i : Int) < 0 := by omega
  simp only [get?, if_neg hi, Int.toNat_natCast]

/-- Places and keywords determine each other. -/
theorem index?_ofRooted {is : List Instruction} {w : String} {i : Nat} :
    (ofRooted is).index? w 0 none = some i ↔ (ofRooted is).words[i]? = some w := by
  rw [index?_eq_idxOf?, List.idxOf?_eq_some_iff, List.getElem?_eq_some_iff]
  constructor
  · rintro ⟨hi, hw, -⟩
    exact ⟨hi, hw⟩
  · rintro ⟨hi, hw⟩
    refine ⟨hi, hw, fun j hj hsame => ?_⟩
    have hpair := List.pairwise_iff_getElem.mp (nodup_words_ofRooted is) j i (by omega) hi hj
    exact hpair (hsame.trans hw.symm)

/-- The places below the count are those of the mnemonics. -/
theorem getElem?_words_ofRooted {is : List Instruction} {i : Nat}
    (hi : i < (Groups.roots is).length) :
    (ofRooted is).words[i]? = (Groups.roots is)[i]? := by
  rw [words_ofRooted, List.getElem?_append_left hi]

theorem exists_index?_ofRooted {is : List Instruction} {w : String} :
    (∃ i, i < (Groups.roots is).length ∧ (ofRooted is).index? w 0 none = some i) ↔
      w ∈ Groups.roots is := by
  rw [List.mem_iff_getElem?]
  constructor
  · rintro ⟨i, hi, hindex⟩
    rw [index?_ofRooted, getElem?_words_ofRooted hi] at hindex
    exact ⟨i, hindex⟩
  · rintro ⟨i, hw⟩
    have hi : i < (Groups.roots is).length := (List.getElem?_eq_some_iff.mp hw).1
    exact ⟨i, hi, index?_ofRooted.mpr (by rw [getElem?_words_ofRooted hi, hw])⟩

end Keywords
end AssemblerTables
