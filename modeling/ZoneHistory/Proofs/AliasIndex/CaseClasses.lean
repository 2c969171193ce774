import ZoneHistory.AliasIndex
import ZoneHistory.Proofs.Keyed.Lookup

/-!
# Names that differ only by case

Of the names that differ only by case the index holds the one that comes last, so it maps no name to
anything but what the name was mapped to before. The names are in the order of their lower-case
forms, no two of which are alike; so what is sifted once stays as it is.
-/
namespace ZoneHistory.AliasIndex

/-- The classes of a list of entries, and what was replaced meanwhile, latest first. -/
def classify (entries : List (String × String)) : CaseClasses × List Notice :=
  entries.foldl addIgnoringCase (∅, [])

theorem classes_addIgnoringCase (state : CaseClasses × List Notice) (entry : String × String) :
    (addIgnoringCase state entry).1 = state.1.insert (Text.lowercase entry.1) entry := rfl

/-- A class holds the last of the entries that are spelt like it. -/
theorem getElem?_classify (entries : List (String × String)) (key : String) :
    (classify entries).1[key]? =
      (entries.filter fun entry => Text.lowercase entry.1 = key).getLast? := by
  induction entries using List.reverseRecOn with
  | nil => exact Std.TreeMap.getElem?_emptyc
  | append_singleton entries entry ih =>
    rw [classify, List.foldl_concat, ← classify, classes_addIgnoringCase,
      Std.TreeMap.getElem?_insert, ih, List.filter_append, List.getLast?_append]
    by_cases hkey : Text.lowercase entry.1 = key
    · rw [if_pos (Std.LawfulEqCmp.compare_eq_iff_eq.mpr hkey),
        List.filter_cons_of_pos (by simpa using hkey)]
      rfl
    · rw [if_neg (fun heq => hkey (Std.LawfulEqCmp.compare_eq_iff_eq.mp heq)),
        List.filter_cons_of_neg (by simpa using hkey)]
      rfl

theorem mem_latest_iff {entries : List (String × String)} {entry : String × String} :
    entry ∈ (classify entries).1.toList.map (·.2) ↔
      (entries.filter fun other => Text.lowercase other.1 = Text.lowercase entry.1).getLast? =
        some entry := by
  simp only [List.mem_map, Prod.exists, exists_eq_right,
    Std.TreeMap.mem_toList_iff_getElem?_eq_some, getElem?_classify]
  constructor
  · rintro ⟨key, hlast⟩
    have hkey := (List.mem_filter.mp (List.mem_of_getLast? hlast)).2
    rwa [← of_decide_eq_true hkey] at hlast
  · exact fun hlast => ⟨_, hlast⟩

/-- Every class is kept under its lower-case form. -/
theorem lowercase_of_mem_toList {entries : List (String × String)}
    {member : String × String × String} (h : member ∈ (classify entries).1.toList) :
    Text.lowercase member.2.1 = member.1 := by
  rw [Std.TreeMap.mem_toList_iff_getElem?_eq_some, getElem?_classify] at h
  exact of_decide_eq_true (List.mem_filter.mp (List.mem_of_getLast? h)).2

theorem nodup_latest (entries : List (String × String)) :
    (((classify entries).1.toList.map (·.2)).map (·.1)).Nodup := by
  rw [List.map_map, List.Nodup, List.pairwise_map]
  refine Std.TreeMap.distinct_keys_toList.imp_of_mem ?_
  intro a b ha hb hkeys hnames
  refine hkeys (Std.LawfulEqCmp.compare_eq_iff_eq.mpr ?_)
  calc a.1 = Text.lowercase a.2.1 := (lowercase_of_mem_toList ha).symm
    _ = Text.lowercase b.2.1 := congrArg Text.lowercase hnames
    _ = b.1 := lowercase_of_mem_toList hb

theorem entries_distinctIgnoringCase (mapping : Keyed String) :
    (distinctIgnoringCase mapping).1.entries = (classify mapping.entries).1.toList.map (·.2) :=
  congrArg Keyed.entries (Keyed.ofList_entries ⟨_, nodup_latest mapping.entries⟩)

/-- What stays is the last entry of each class. -/
theorem mem_distinctIgnoringCase_iff {mapping : Keyed String} {entry : String × String} :
    entry ∈ (distinctIgnoringCase mapping).1.entries ↔
      (mapping.entries.filter fun other =>
        Text.lowercase other.1 = Text.lowercase entry.1).getLast? = some entry := by
  rw [entries_distinctIgnoringCase, mem_latest_iff]

/-- What is found for a name is the last entry of those that differ from it only by case, if that
one has the very name. -/
theorem find?_distinctIgnoringCase (mapping : Keyed String) (name target : String) :
    (distinctIgnoringCase mapping).1.find? name = some target ↔
      (mapping.entries.filter fun entry => Text.lowercase entry.1 = Text.lowercase name).getLast? =
        some (name, target) := by
  rw [← Keyed.mem_entries_iff, mem_distinctIgnoringCase_iff]

theorem mem_of_mem_distinctIgnoringCase {mapping : Keyed String} {entry : String × String}
    (h : entry ∈ (distinctIgnoringCase mapping).1.entries) : entry ∈ mapping.entries :=
  (List.mem_filter.mp (List.mem_of_getLast? (mem_distinctIgnoringCase_iff.mp h))).1

theorem find?_of_find?_distinctIgnoringCase {mapping : Keyed String} {name target : String}
    (h : (distinctIgnoringCase mapping).1.find? name = some target) :
    mapping.find? name = some target := by
  rw [← Keyed.mem_entries_iff] at h ⊢
  exact mem_of_mem_distinctIgnoringCase h

/-- No class is lost. -/
theorem exists_mem_distinctIgnoringCase {mapping : Keyed String} {entry : String × String}
    (h : entry ∈ mapping.entries) :
    ∃ latest ∈ (distinctIgnoringCase mapping).1.entries,
      Text.lowercase latest.1 = Text.lowercase entry.1 := by
  have hmem : entry ∈ mapping.entries.filter fun other =>
      Text.lowercase other.1 = Text.lowercase entry.1 :=
    List.mem_filter.mpr ⟨h, decide_eq_true rfl⟩
  obtain ⟨latest, hlast⟩ :=
    Option.isSome_iff_exists.mp (List.getLast?_isSome.mpr (List.ne_nil_of_mem hmem))
  have hclass : Text.lowercase latest.1 = Text.lowercase entry.1 :=
    of_decide_eq_true (List.mem_filter.mp (List.mem_of_getLast? hlast)).2
  refine ⟨latest, mem_distinctIgnoringCase_iff.mpr ?_, hclass⟩
  rw [hclass]
  exact hlast

/-! ## The order of the classes -/

/-- The lower-case forms of the names increase from entry to entry. -/
def Increasing (entries : List (String × String)) : Prop :=
  entries.Pairwise fun a b => Text.lowercase a.1 < Text.lowercase b.1

theorem increasing_distinctIgnoringCase (mapping : Keyed String) :
    Increasing (distinctIgnoringCase mapping).1.entries := by
  rw [entries_distinctIgnoringCase, Increasing, List.pairwise_map]
  refine Std.TreeMap.ordered_keys_toList.imp_of_mem ?_
  intro a b ha hb hkeys
  rw [lowercase_of_mem_toList ha, lowercase_of_mem_toList hb]
  exact compareOfLessAndEq_eq_lt.mp hkeys

namespace Increasing

variable {entries others : List (String × String)}

theorem ne (h : Increasing entries) :
    entries.Pairwise fun a b => Text.lowercase a.1 ≠ Text.lowercase b.1 := by
  refine h.imp fun {a b} hlt heq => ?_
  rw [heq] at hlt
  exact String.lt_irrefl _ hlt

theorem nodup (h : Increasing entries) : entries.Nodup :=
  h.ne.imp fun hne heq => hne (by rw [heq])

/-- Entries are told apart by the lower-case forms of their names. -/
theorem eq_of_lowercase_eq (h : Increasing entries) {a b : String × String} (ha : a ∈ entries)
    (hb : b ∈ entries) (heq : Text.lowercase a.1 = Text.lowercase b.1) : a = b :=
  List.inj_on_of_nodup_map (List.pairwise_map.mpr h.ne) ha hb heq

theorem eq_of_mem_iff (h : Increasing entries) (hothers : Increasing others)
    (hmem : ∀ entry, entry ∈ entries ↔ entry ∈ others) : entries = others := by
  have hperm : entries.Perm others := (List.perm_ext_iff_of_nodup h.nodup hothers.nodup).mpr hmem
  refine hperm.eq_of_pairwise ?_ h hothers
  intro a b _ _ hab hba
  exact absurd hba (String.lt_asymm hab)

/-- Where no two names differ only by case none replaces another. -/
theorem notices_eq_nil (h : Increasing entries) : (classify entries).2 = [] := by
  have hne := h.ne
  clear h
  induction entries using List.reverseRecOn with
  | nil => rfl
  | append_singleton entries entry ih =>
    obtain ⟨hearlier, -, hlast⟩ := List.pairwise_append.mp hne
    have hnew : (classify entries).1[Text.lowercase entry.1]? = none := by
      rw [getElem?_classify, List.getLast?_eq_none_iff, List.filter_eq_nil_iff]
      intro other hother
      simpa using hlast other hother entry (List.mem_singleton_self entry)
    rw [classify, List.foldl_concat, ← classify]
    simp only [addIgnoringCase, hnew, ih hearlier]

end Increasing

/-- Entries that are in order already, each of a class of its own, stay as they are. -/
theorem distinctIgnoringCase_of_increasing {mapping : Keyed String}
    (h : Increasing mapping.entries) : distinctIgnoringCase mapping = (mapping, []) := by
  have hmem : ∀ entry, entry ∈ (distinctIgnoringCase mapping).1.entries ↔
      entry ∈ mapping.entries := by
    refine fun entry => ⟨mem_of_mem_distinctIgnoringCase, fun hentry => ?_⟩
    obtain ⟨latest, hlatest, hclass⟩ := exists_mem_distinctIgnoringCase hentry
    have hsame := h.eq_of_lowercase_eq (mem_of_mem_distinctIgnoringCase hlatest) hentry hclass
    rwa [← hsame]
  have hmapping : (distinctIgnoringCase mapping).1 = mapping :=
    Keyed.ext ((increasing_distinctIgnoringCase mapping).eq_of_mem_iff h hmem)
  have hnotices : (distinctIgnoringCase mapping).2 = [] :=
    congrArg List.reverse h.notices_eq_nil
  exact Prod.ext hmapping hnotices

/-- A single name stays as it is. -/
theorem distinctIgnoringCase_of_singleton {mapping : Keyed String} {entry : String × String}
    (h : mapping.entries = [entry]) : (distinctIgnoringCase mapping).1 = mapping := by
  have hsingle : Increasing mapping.entries := by
    rw [h]
    exact List.pairwise_singleton _ entry
  rw [distinctIgnoringCase_of_increasing hsingle]

/-- The lower-case forms of the aliases that stay increase strictly, and they are those of all the
aliases; what stays is the last entry of each class of aliases that differ only by case; and sifting
it again changes nothing and replaces nothing. -/
theorem distinctIgnoringCase_last (mapping : Keyed String) :
    ((distinctIgnoringCase mapping).1.keys.map Text.lowercase).Pairwise (· < ·) ∧
      (∀ form, form ∈ (distinctIgnoringCase mapping).1.keys.map Text.lowercase ↔
        form ∈ mapping.keys.map Text.lowercase) ∧
      (∀ entry, entry ∈ (distinctIgnoringCase mapping).1.entries ↔
        (mapping.entries.filter fun other =>
          Text.lowercase other.1 = Text.lowercase entry.1).getLast? = some entry) ∧
      distinctIgnoringCase (distinctIgnoringCase mapping).1 =
        ((distinctIgnoringCase mapping).1, []) := by
  have hincreasing := increasing_distinctIgnoringCase mapping
  refine ⟨?_, fun form => ?_, fun entry => mem_distinctIgnoringCase_iff,
    distinctIgnoringCase_of_increasing hincreasing⟩
  · rw [Keyed.keys, List.map_map, List.pairwise_map]
    exact hincreasing
  · simp only [Keyed.keys, List.map_map, List.mem_map, Function.comp_apply]
    constructor
    · rintro ⟨entry, hentry, rfl⟩
      exact ⟨entry, mem_of_mem_distinctIgnoringCase hentry, rfl⟩
    · rintro ⟨entry, hentry, rfl⟩
      exact exists_mem_distinctIgnoringCase hentry

end ZoneHistory.AliasIndex
