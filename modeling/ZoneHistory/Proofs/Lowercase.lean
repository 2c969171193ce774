import ZoneHistory.Text.Lowercase

/-!
# Words in any case

The lower-case form of a text is a word of plain letters only if the text is the word itself with
some of its letters in upper case: no letter of another script becomes one of these letters. Only k
is left out, which the Kelvin sign becomes.
-/
namespace ZoneHistory.Text

/-- A small letter of the Latin alphabet other than k. -/
def isPlain (c : Char) : Bool := 'a' ≤ c && c ≤ 'z' && c != 'k'

theorem isPlain_iff {c : Char} :
    isPlain c = true ↔ (97 ≤ c.toNat ∧ c.toNat ≤ 122) ∧ c ≠ 'k' := by
  simp only [isPlain, Bool.and_eq_true, decide_eq_true_eq, bne_iff_ne, Char.le_def,
    UInt32.le_iff_toNat_le]
  rfl

theorem toNat_ofNat_eq_or (code : Nat) :
    (Char.ofNat code).toNat = code ∨ (Char.ofNat code).toNat = 0 := by
  by_cases hvalid : code.isValidChar
  · rw [Char.ofNat, dif_pos hvalid]
    exact Or.inl rfl
  · rw [Char.ofNat, dif_neg hvalid]
    exact Or.inr rfl

/-- No letter from outside of ASCII but the Kelvin sign has its partner inside. -/
theorem mem_lowerRuns {run : CaseRun} (h : run ∈ lowerRuns) :
    run.last < 0x80 ∨ 0x80 ≤ run.first + run.shift ∨
      run.first = run.last ∧ run.first + run.shift = 0x6b := by
  have hall : ∀ run ∈ lowerRuns, run.last < 0x80 ∨ 0x80 ≤ run.first + run.shift ∨
      run.first = run.last ∧ run.first + run.shift = 0x6b := by
    decide +kernel
  exact hall run h

theorem not_isPlain_lowerChar {c : Char} (h : 0x80 ≤ c.toNat) : ¬isPlain (lowerChar c) = true := by
  intro hplain
  rw [isPlain_iff, lowerChar] at hplain
  split at hplain
  · next run hrun =>
    have hhas := List.find?_some hrun
    simp only [CaseRun.has, Bool.and_eq_true, decide_eq_true_eq] at hhas
    have hcases := mem_lowerRuns (List.mem_of_find?_eq_some hrun)
    have hkelvin : (c.toNat + run.shift).toNat ≠ 0x6b := by
      intro hcode
      rw [hcode] at hplain
      exact hplain.2 rfl
    have hpartner := toNat_ofNat_eq_or (c.toNat + run.shift).toNat
    omega
  · omega

/-- What a character from outside of ASCII becomes has a character that is not plain. -/
theorem exists_not_isPlain_lowerAt {c : Char} (h : 0x80 ≤ c.toNat) (afterCased : Bool)
    (rest : List Char) : ∃ d ∈ lowerAt afterCased c rest, ¬isPlain d = true := by
  rw [lowerAt, if_neg (Nat.not_lt.mpr h)]
  split
  · exact ⟨'\u0307', by decide, by decide⟩
  · split
    · split
      · exact ⟨_, List.mem_singleton_self _, by decide⟩
      · exact ⟨_, List.mem_singleton_self _, by decide⟩
    · exact ⟨_, List.mem_singleton_self _, not_isPlain_lowerChar h⟩

theorem toLower_of_le {c : Char} (h : 0x80 ≤ c.toNat) : c.toLower = c := by
  have hcapital : ¬(c.val ≥ 'A'.val ∧ c.val ≤ 'Z'.val) := by
    rintro ⟨-, hlast⟩
    have hcode : c.toNat ≤ 90 := UInt32.le_iff_toNat_le.mp hlast
    omega
  exact dif_neg hcapital

theorem lowerAfter_eq_iff {word : List Char} (hword : ∀ c ∈ word, isPlain c = true)
    (afterCased : Bool) (text : List Char) :
    lowerAfter afterCased text = word ↔ text.map Char.toLower = word := by
  induction text generalizing afterCased word with
  | nil => rfl
  | cons c text ih =>
    by_cases hascii : c.toNat < 0x80
    · rw [lowerAfter, lowerAt, if_pos hascii, List.singleton_append, List.map_cons]
      cases word with
      | nil => exact iff_of_false nofun nofun
      | cons d word =>
        rw [List.cons.injEq, List.cons.injEq, ih (List.forall_mem_cons.mp hword).2]
    · have hcode := Nat.not_lt.mp hascii
      refine iff_of_false ?_ ?_
      · rintro rfl
        obtain ⟨d, hd, hplain⟩ := exists_not_isPlain_lowerAt hcode afterCased text
        exact hplain (hword d (List.mem_append_left _ hd))
      · rintro rfl
        have hplain := hword c.toLower (List.mem_cons_self ..)
        rw [toLower_of_le hcode, isPlain_iff] at hplain
        omega

/-- A text is a plain word in some case if its lower-case form is the word. -/
theorem lowercase_toList_eq_iff {word : List Char} (hword : ∀ c ∈ word, isPlain c = true)
    (text : String) :
    (lowercase text).toList = word ↔ text.toList.map Char.toLower = word := by
  rw [lowercase, String.toList_ofList]
  exact lowerAfter_eq_iff hword false text.toList

end ZoneHistory.Text
