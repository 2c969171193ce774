import ZoneHistory.Rule

/-!
# Formats under rules and under fixed savings

Under fixed savings there is no letter, and every `%s` of the format is left out; under a rule only
the first one is filled in, be it with nothing. So a rule without a letter and fixed savings give
the same abbreviation unless the format gives only one and has `%s` twice.
-/
namespace ZoneHistory

namespace Text

/-- What is filled in. -/
def placeholder : List Char := ['%', 's']

/-- A text in which the placeholder comes twice. -/
def PlaceholderTwice (text : List Char) : Prop :=
  ∃ before between after,
    text = before ++ placeholder ++ between ++ placeholder ++ after

variable {c : Char} {text rest : List Char}

/-- What the cases of the functions on placeholders say of a text that does not begin with one. -/
theorem not_beginsWith_placeholder (h : ∀ after, c = '%' → rest = 's' :: after → False) :
    ¬ placeholder <+: c :: rest := by
  rintro ⟨after, hafter⟩
  simp only [placeholder, List.cons_append, List.nil_append, List.cons.injEq] at hafter
  exact h after hafter.1.symm hafter.2.symm

theorem length_erasePlaceholders_le (text : List Char) :
    (erasePlaceholders text).length ≤ text.length := by
  fun_induction erasePlaceholders text with
  | case1 => exact Nat.le_refl _
  | case2 rest ih => exact Nat.le_trans ih (Nat.le_add_right _ 2)
  | case3 c rest _ ih => exact Nat.succ_le_succ ih

/-- Nothing is left out exactly if there is no placeholder. -/
theorem erasePlaceholders_eq_self_iff (text : List Char) :
    erasePlaceholders text = text ↔ ¬ placeholder <:+: text := by
  fun_induction erasePlaceholders text with
  | case1 => simp [placeholder]
  | case2 rest ih =>
    refine iff_of_false (fun heq => ?_) (not_not_intro ⟨[], rest, rfl⟩)
    have hlength := length_erasePlaceholders_le rest
    rw [heq, List.length_cons, List.length_cons] at hlength
    omega
  | case3 c rest hother ih =>
    rw [List.cons.injEq, ih, List.infix_cons_iff, not_or]
    exact ⟨fun h => ⟨not_beginsWith_placeholder hother, h.2⟩, fun h => ⟨rfl, h.2⟩⟩

theorem placeholderTwice_of_prefix :
    PlaceholderTwice ('%' :: 's' :: rest) ↔ placeholder <:+: rest := by
  constructor
  · rintro ⟨before, between, after, heq⟩
    simp only [placeholder, List.append_assoc, List.cons_append, List.nil_append] at heq
    -- The first of the two is the prefix or begins behind it.
    rcases before with _ | ⟨c, _ | ⟨d, before⟩⟩
    · simp only [List.nil_append, List.cons.injEq, true_and] at heq
      exact ⟨between, after, by rw [heq, placeholder]; simp⟩
    · simp at heq
    · simp only [List.cons_append, List.cons.injEq] at heq
      exact ⟨before, between ++ placeholder ++ after, by rw [heq.2.2, placeholder]; simp⟩
  · rintro ⟨between, after, rfl⟩
    exact ⟨[], between, after, by simp [placeholder]⟩

theorem placeholderTwice_cons_iff (h : ¬ placeholder <+: c :: rest) :
    PlaceholderTwice (c :: rest) ↔ PlaceholderTwice rest := by
  constructor
  · rintro ⟨before, between, after, heq⟩
    cases before with
    | nil => exact absurd ⟨between ++ placeholder ++ after, by simpa using heq.symm⟩ h
    | cons d before =>
      simp only [List.cons_append, List.cons.injEq] at heq
      exact ⟨before, between, after, heq.2⟩
  · rintro ⟨before, between, after, rfl⟩
    exact ⟨c :: before, between, after, rfl⟩

/-- Filling in nothing once is leaving out every placeholder, unless there are two. -/
theorem fillFirst_nil_eq_iff (text : List Char) :
    fillFirst [] text = erasePlaceholders text ↔ ¬ PlaceholderTwice text := by
  fun_induction fillFirst [] text with
  | case1 => simp [erasePlaceholders, PlaceholderTwice, placeholder]
  | case2 rest =>
    rw [erasePlaceholders, List.nil_append, eq_comm, erasePlaceholders_eq_self_iff,
      placeholderTwice_of_prefix]
  | case3 c rest hother ih =>
    rw [erasePlaceholders.eq_3 c rest hother, List.cons.injEq, ih,
      placeholderTwice_cons_iff (not_beginsWith_placeholder hother)]
    exact and_iff_right rfl

/-- What is filled in once still shows a placeholder if there were two. -/
theorem placeholder_infix_fillFirst (h : PlaceholderTwice text) :
    placeholder <:+: fillFirst [] text := by
  fun_induction fillFirst [] text with
  | case1 => simp [PlaceholderTwice, placeholder] at h
  | case2 rest => exact placeholderTwice_of_prefix.mp h
  | case3 c rest hother ih =>
    rw [placeholderTwice_cons_iff (not_beginsWith_placeholder hother)] at h
    exact List.infix_cons (ih h)

end Text

namespace Abbreviation

/-- A format of two abbreviations: its first slash does not stand at its beginning. -/
def GivesTwo (format : List Char) : Prop :=
  ∃ left right, left ≠ [] ∧ '/' ∉ left ∧ format = left ++ '/' :: right

variable {text left right : List Char}

theorem splitAtSlash_append (right : List Char) (h : '/' ∉ left) :
    splitAtSlash (left ++ '/' :: right) = some (left, right) := by
  induction left with
  | nil => rfl
  | cons c left ih =>
    rw [List.mem_cons, not_or] at h
    rw [List.cons_append, splitAtSlash, if_neg (Ne.symm h.1), ih h.2, Option.map_some]

theorem eq_append_of_splitAtSlash (h : splitAtSlash text = some (left, right)) :
    '/' ∉ left ∧ text = left ++ '/' :: right := by
  induction text generalizing left with
  | nil => cases h
  | cons c text ih =>
    rw [splitAtSlash] at h
    split at h
    · next hslash =>
      cases h
      exact ⟨List.not_mem_nil, by rw [hslash, List.nil_append]⟩
    · next hother =>
      obtain ⟨parts, hparts, heq⟩ := Option.map_eq_some_iff.mp h
      cases heq
      obtain ⟨hnone, rfl⟩ := ih hparts
      exact ⟨by rw [List.mem_cons, not_or]; exact ⟨Ne.symm hother, hnone⟩, rfl⟩

/-- The two abbreviations of a format stand around its first slash. -/
theorem alternatives?_eq_some_iff {format : List Char} :
    alternatives? format = some (left, right) ↔
      left ≠ [] ∧ '/' ∉ left ∧ format = left ++ '/' :: right := by
  rw [alternatives?, Option.filter_eq_some_iff]
  constructor
  · rintro ⟨hsplit, hleft⟩
    exact ⟨by simpa using hleft, eq_append_of_splitAtSlash hsplit⟩
  · rintro ⟨hleft, hnone, rfl⟩
    exact ⟨splitAtSlash_append right hnone, by simpa using hleft⟩

theorem givesTwo_iff {format : List Char} :
    GivesTwo format ↔ (alternatives? format).isSome = true := by
  rw [Option.isSome_iff_exists, Prod.exists]
  simp only [alternatives?_eq_some_iff, GivesTwo]

end Abbreviation

open Abbreviation Text

/-- A rule without a letter and fixed savings of the same amount give a format the same abbreviation
exactly if the format gives two abbreviations, or has the placeholder no more than once. Where they
differ the abbreviation under the rule shows a placeholder. -/
theorem Rule.abbreviation_eq_underFixed_iff (rule : Rule) (format : String)
    (hletter : rule.letter = none) :
    (rule.abbreviation format = underFixed format rule.save ↔
        GivesTwo format.toList ∨ ¬ PlaceholderTwice format.toList) ∧
      (rule.abbreviation format ≠ underFixed format rule.save →
        placeholder <:+: (rule.abbreviation format).toList) := by
  rw [Rule.abbreviation, underRule, underFixed, hletter, givesTwo_iff]
  cases halternatives : alternatives? format.toList with
  | some parts => simp
  | none =>
    simp only [Option.getD_none, String.toList_empty, Option.isSome_none, Bool.false_eq_true,
      false_or, String.ofList_inj, String.toList_ofList, ne_eq]
    have hiff := fillFirst_nil_eq_iff format.toList
    exact ⟨hiff, fun hne => placeholder_infix_fillFirst (Classical.not_not.mp (mt hiff.mpr hne))⟩

/-- A rule to standard time, without a letter. -/
def unlettered : Rule := ⟨"Test", 2000, 2000, none, .startOfYear, 0, none, ""⟩

theorem abbreviation_eq_unlettered :
    unlettered.letter = none ∧ PlaceholderTwice "GMT/%s%s".toList ∧
      unlettered.abbreviation "GMT/%s%s" = underFixed "GMT/%s%s" unlettered.save := by
  refine ⟨rfl, ⟨['G', 'M', 'T', '/'], [], [], by decide⟩, ?_⟩
  refine (Rule.abbreviation_eq_underFixed_iff unlettered "GMT/%s%s" rfl).1.mpr (Or.inl ?_)
  exact ⟨['G', 'M', 'T'], ['%', 's', '%', 's'], by decide, by decide, by decide⟩

/-- Fixed savings leave out both placeholders, and the rule only the first. -/
theorem unlettered_placeholderTwice :
    unlettered.letter = none ∧ unlettered.abbreviation "A%sB%sC" = "AB%sC" ∧
      underFixed "A%sB%sC" unlettered.save = "ABC" ∧
      unlettered.abbreviation "A%sB%sC" ≠ underFixed "A%sB%sC" unlettered.save := by
  decide +kernel

end ZoneHistory
