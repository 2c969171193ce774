import Mathlib.Data.List.TakeWhile
import ZoneHistory.Proofs.Reading

/-!
# Lines made of fields

Fields that are written with single blanks between them are the fields that are read.
-/
namespace ZoneHistory

namespace Text

/-- A text that is a field of its own wherever blanks stand around it. -/
structure IsField (text : String) : Prop where
  nonempty : text.toList ≠ []
  chars : ∀ c ∈ text.toList, isBlank c = false ∧ c ≠ '#'

theorem isField_iff {text : String} :
    IsField text ↔
      (!text.toList.isEmpty && text.toList.all fun c => !isBlank c && c != '#') = true := by
  simp only [Bool.and_eq_true, Bool.not_eq_true', List.isEmpty_eq_false_iff, List.all_eq_true,
    bne_iff_ne]
  exact ⟨fun h => ⟨h.nonempty, h.chars⟩, fun h => ⟨h.1, h.2⟩⟩

instance (text : String) : Decidable (IsField text) := decidable_of_iff _ isField_iff.symm

theorem fieldsAfter_append {word : List Char} (h : ∀ c ∈ word, isBlank c = false)
    (collected rest : List Char) :
    fieldsAfter collected (word ++ rest) = fieldsAfter (word.reverse ++ collected) rest := by
  induction word generalizing collected with
  | nil => rfl
  | cons c word ih =>
    obtain ⟨hc, hword⟩ := List.forall_mem_cons.mp h
    rw [List.cons_append, fieldsAfter, if_neg (Bool.eq_false_iff.mp hc), ih hword,
      List.reverse_cons, List.append_assoc, List.singleton_append]

variable {text first : String} {texts rest : List String}

theorem IsField.finishField_eq (h : IsField text) :
    finishField (text.toList.reverse ++ []) = [text.toList] := by
  have hnonempty : text.toList.reverse ++ [] ≠ [] := by simp [h.nonempty]
  rw [finishField, if_neg (mt List.isEmpty_iff.mp hnonempty), List.append_nil, List.reverse_reverse]

theorem IsField.fieldsAfter_blank (h : IsField text) (rest : List Char) :
    fieldsAfter [] (text.toList ++ ' ' :: rest) = text.toList :: fieldsAfter [] rest := by
  rw [fieldsAfter_append fun c hc => (h.chars c hc).1, fieldsAfter, if_pos (by decide),
    h.finishField_eq, List.singleton_append]

theorem IsField.fieldsAfter_toList (h : IsField text) :
    fieldsAfter [] text.toList = [text.toList] := by
  rw [← List.append_nil text.toList, fieldsAfter_append fun c hc => (h.chars c hc).1, fieldsAfter,
    h.finishField_eq, List.append_nil]

theorem fields_intercalate (h : ∀ text ∈ texts, IsField text) :
    fields (" ".intercalate texts) = texts := by
  have hlists : fieldsAfter [] (" ".intercalate texts).toList = texts.map String.toList := by
    rw [String.toList_intercalate]
    induction texts with
    | nil => rfl
    | cons first rest ih =>
      obtain ⟨hfirst, hrest⟩ := List.forall_mem_cons.mp h
      cases rest with
      | nil => rw [List.map_singleton, List.intercalate_singleton, hfirst.fieldsAfter_toList]
      | cons second rest =>
        have hblank : " ".toList = [' '] := rfl
        rw [List.map_cons, List.map_cons, List.intercalate_cons_cons, List.append_assoc, hblank,
          List.singleton_append, hfirst.fieldsAfter_blank, ← hblank, ← List.map_cons, ih hrest]
  have hsame : String.ofList ∘ String.toList = id := funext fun _ => String.ofList_toList
  rw [fields, hlists, List.map_map, hsame, List.map_id]

/-- The blank between two fields is the only character that is in none of them. -/
theorem forall_mem_intercalate {property : Char → Prop} (hblank : property ' ')
    (h : ∀ text ∈ texts, ∀ c ∈ text.toList, property c) :
    ∀ c ∈ (" ".intercalate texts).toList, property c := by
  rw [String.toList_intercalate]
  induction texts with
  | nil => exact List.forall_mem_nil _
  | cons first rest ih =>
    obtain ⟨hfirst, hrest⟩ := List.forall_mem_cons.mp h
    cases rest with
    | nil =>
      rw [List.map_singleton, List.intercalate_singleton]
      exact hfirst
    | cons second rest =>
      rw [List.map_cons, List.map_cons, List.intercalate_cons_cons, List.forall_mem_append,
        List.forall_mem_append]
      exact ⟨⟨hfirst, List.forall_mem_singleton.mpr hblank⟩, ih hrest⟩

theorem beginsBlank_intercalate (h : IsField first) :
    beginsBlank (" ".intercalate (first :: rest)) = false := by
  obtain ⟨c, chars, hfirst⟩ := List.exists_cons_of_ne_nil h.nonempty
  have hhead : (" ".intercalate (first :: rest)).toList.head? = some c := by
    rw [String.toList_intercalate]
    cases rest with
    | nil => rw [List.map_singleton, List.intercalate_singleton, hfirst, List.head?_cons]
    | cons second rest =>
      rw [List.map_cons, List.map_cons, List.intercalate_cons_cons, hfirst, List.append_assoc,
        List.cons_append, List.head?_cons]
  rw [beginsBlank, hhead, Option.any_some]
  exact (h.chars c (by simp [hfirst])).1

theorem dropLineFeeds_eq (h : ∀ c ∈ text.toList, c ≠ '\n') : dropLineFeeds text = text := by
  have hdrop : text.toList.reverse.dropWhile (· == '\n') = text.toList.reverse := by
    rw [List.dropWhile_eq_self_iff]
    intro hlength
    simpa using h _ (List.mem_reverse.mp (List.getElem_mem hlength))
  rw [dropLineFeeds, hdrop, List.reverse_reverse, String.ofList_toList]

end Text

theorem stripComment_eq {text : String} (h : ∀ c ∈ text.toList, c ≠ '#') :
    stripComment text = text := by
  have hall : text.toList.takeWhile (· ≠ '#') = text.toList := by
    rw [List.takeWhile_eq_self_iff]
    intro c hc
    exact decide_eq_true (h c hc)
  rw [stripComment, hall, String.ofList_toList]

theorem LineShape.ofRaw_intercalate {first : String} {rest : List String}
    (h : ∀ text ∈ first :: rest, Text.IsField text) :
    LineShape.ofRaw (" ".intercalate (first :: rest)) = .record (first :: rest) := by
  have hfeeds : Text.dropLineFeeds (" ".intercalate (first :: rest)) =
      " ".intercalate (first :: rest) := by
    refine Text.dropLineFeeds_eq (Text.forall_mem_intercalate (by decide) ?_)
    rintro text htext c hc rfl
    exact absurd ((h text htext).chars _ hc).1 (by decide)
  have hcontent : stripComment (" ".intercalate (first :: rest)) =
      " ".intercalate (first :: rest) :=
    stripComment_eq (Text.forall_mem_intercalate (by decide) fun text htext c hc =>
      ((h text htext).chars c hc).2)
  rw [ofRaw, hfeeds, ofLine, hcontent, Text.fields_intercalate h]
  dsimp only
  rw [Text.beginsBlank_intercalate (List.forall_mem_cons.mp h).1]
  rfl

end ZoneHistory
