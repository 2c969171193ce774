import Mathlib.Data.List.Perm.Subperm
import ZoneHistory.Proofs.Keyed
import ZoneHistory.Proofs.Sorting

/-!
# What is found in maps

What is found in a map that was put together from entries or from other maps. Maps in which the same
is found are equal once they are in the order of their keys.
-/
namespace ZoneHistory.Keyed

variable {α β : Type}

theorem lookup_eq_some_iff_mem {entries : List (String × α)} (hnodup : (entries.map (·.1)).Nodup)
    {key : String} {value : α} :
    entries.lookup key = some value ↔ (key, value) ∈ entries := by
  constructor
  · intro hlookup
    obtain ⟨before, after, hentries, -⟩ := List.lookup_eq_some_iff.mp hlookup
    rw [hentries]
    exact List.mem_append_right _ List.mem_cons_self
  · exact fun hmem => lookup_of_mem hnodup hmem

theorem contains_iff {m : Keyed α} {key : String} :
    m.contains key = true ↔ ∃ value, m.find? key = some value :=
  Option.isSome_iff_exists

theorem contains_eq_false_iff {m : Keyed α} {key : String} :
    m.contains key = false ↔ m.find? key = none := by
  rw [contains, Option.isSome_eq_false_iff, Option.isNone_iff_eq_none]

theorem mem_keys_iff {m : Keyed α} {key : String} :
    key ∈ m.keys ↔ ∃ value, m.find? key = some value := by
  simp only [keys, List.mem_map, Prod.exists, ← mem_entries_iff, exists_and_right, exists_eq_right]

theorem mem_values_iff {m : Keyed α} {value : α} :
    value ∈ m.values ↔ ∃ key, m.find? key = some value := by
  simp only [values, List.mem_map, Prod.exists, ← mem_entries_iff, exists_eq_right]

theorem find?_mapValues (f : α → β) (m : Keyed α) (key : String) :
    (m.mapValues f).find? key = (m.find? key).map f := by
  apply Option.ext
  intro value
  rw [← mem_entries_iff, Option.map_eq_some_iff]
  simp only [mapValues, List.mem_map, Prod.mk.injEq, Prod.exists, ← mem_entries_iff]
  constructor
  · rintro ⟨_, old, hmem, rfl, rfl⟩
    exact ⟨old, hmem, rfl⟩
  · rintro ⟨old, hmem, rfl⟩
    exact ⟨key, old, hmem, rfl, rfl⟩

theorem find?_foldl_put (entries : List (String × α)) (m : Keyed α) (key : String) :
    (entries.foldl (fun acc entry => acc.put entry.1 entry.2) m).find? key =
      (entries.reverse.lookup key).or (m.find? key) := by
  induction entries using List.reverseRecOn with
  | nil => rfl
  | append_singleton entries entry ih =>
    rw [List.foldl_concat, find?_put, ih, List.reverse_concat, List.lookup_cons]
    by_cases hkey : key = entry.1
    · simp [hkey]
    · rw [if_neg hkey, beq_eq_false_iff_ne.mpr hkey]

theorem find?_putAll (m other : Keyed α) (key : String) :
    (m.putAll other).find? key = (other.find? key).or (m.find? key) := by
  rw [putAll, find?_foldl_put]
  congr 1
  have hreversed : (other.entries.reverse.map (·.1)).Nodup := by
    rw [List.map_reverse]
    exact List.nodup_reverse.mpr other.nodup_keys
  apply Option.ext
  intro value
  rw [lookup_eq_some_iff_mem hreversed, List.mem_reverse, mem_entries_iff]

theorem mem_newKeys_iff {seen : Std.HashMap String Unit} {entries : List (String × α)}
    {key : String} :
    key ∈ newKeys seen entries ↔ seen.contains key = false ∧ key ∈ entries.map (·.1) := by
  induction entries generalizing seen with
  | nil => simp [newKeys]
  | cons entry rest ih =>
    rw [newKeys, List.map_cons, List.mem_cons]
    split
    · next hseen =>
      rw [ih]
      constructor
      · rintro ⟨hnew, hmem⟩
        exact ⟨hnew, Or.inr hmem⟩
      · rintro ⟨hnew, rfl | hmem⟩
        · exact absurd hseen (by simp [hnew])
        · exact ⟨hnew, hmem⟩
    · next hnew =>
      rw [List.mem_cons, ih, Std.HashMap.contains_insert, Bool.or_eq_false_iff]
      by_cases hkey : key = entry.1
      · subst hkey
        simpa using hnew
      · simp [hkey, Ne.symm hkey]

theorem lookup_withValues {keys : List String} (hnodup : keys.Nodup)
    (table : Std.HashMap String α) (key : String) :
    (withValues keys table).lookup key = if key ∈ keys then table[key]? else none := by
  apply Option.ext
  intro value
  rw [lookup_eq_some_iff_mem (nodup_withValues hnodup table), withValues, List.mem_filterMap]
  simp only [Option.map_eq_some_iff, Prod.mk.injEq]
  split
  · next hmem =>
    constructor
    · rintro ⟨_, -, _, hvalue, rfl, rfl⟩
      exact hvalue
    · exact fun hvalue => ⟨key, hmem, value, hvalue, rfl, rfl⟩
  · next habsent =>
    constructor
    · rintro ⟨_, hmem, _, -, rfl, -⟩
      exact absurd hmem habsent
    · intro hnone
      cases hnone

theorem find?_ofList (entries : List (String × α)) (key : String) :
    (ofList entries).find? key = entries.reverse.lookup key := by
  have hmem : key ∈ newKeys ∅ entries ↔ key ∈ entries.map (·.1) := by
    rw [mem_newKeys_iff, Std.HashMap.contains_empty]
    exact and_iff_right rfl
  change (withValues (newKeys ∅ entries) (lastValues entries)).lookup key = _
  rw [lookup_withValues (nodup_newKeys ∅ entries), getElem?_lastValues]
  split
  · rfl
  · next habsent =>
    symm
    rw [List.lookup_eq_none_iff]
    intro entry hentry
    have hkeys := List.mem_map_of_mem (f := (·.1)) (List.mem_reverse.mp hentry)
    exact bne_iff_ne.mpr fun hkey => habsent (hmem.mpr (hkey ▸ hkeys))

theorem mem_of_mem_ofList {entries : List (String × α)} {entry : String × α}
    (h : entry ∈ (ofList entries).entries) : entry ∈ entries := by
  have hfind := (mem_entries_iff _ entry.1 entry.2).mp h
  rw [find?_ofList] at hfind
  obtain ⟨before, after, hentries, -⟩ := List.lookup_eq_some_iff.mp hfind
  rw [← List.mem_reverse, hentries]
  exact List.mem_append_right _ List.mem_cons_self

/-- The entries are the keys with what is found for them. -/
theorem entries_eq (m : Keyed α) :
    m.entries = m.keys.filterMap fun key => (m.find? key).map (key, ·) := by
  have hfind : ∀ entry ∈ m.entries, (m.find? entry.1).map (entry.1, ·) = some entry := by
    intro entry hentry
    rw [(mem_entries_iff m entry.1 entry.2).mp hentry, Option.map_some]
  rw [keys, List.filterMap_map]
  calc m.entries = m.entries.filterMap some := List.filterMap_some.symm
    _ = _ := List.filterMap_congr fun entry hentry => (hfind entry hentry).symm

/-- Maps with the same keys in the same order are equal if the same is found in them. -/
theorem eq_of_keys_eq {m other : Keyed α} (hkeys : m.keys = other.keys)
    (hfind : ∀ key, m.find? key = other.find? key) : m = other := by
  apply ext
  rw [entries_eq, entries_eq other, hkeys]
  simp only [hfind]

theorem newKeys_eq (seen : Std.HashMap String Unit) (entries : List (String × α)) :
    newKeys seen entries =
      ((entries.map (·.1)).filter fun key => !seen.contains key).eraseDups := by
  induction entries generalizing seen with
  | nil => rfl
  | cons entry rest ih =>
    rw [newKeys, List.map_cons]
    split
    · next hseen => rw [ih, List.filter_cons_of_neg (by simp [hseen])]
    · next hnew =>
      have hfilter : ((rest.map (·.1)).filter fun key =>
            !(seen.insert entry.1 ()).contains key) =
          ((rest.map (·.1)).filter fun key => !seen.contains key).filter
            fun key => !(key == entry.1) := by
        rw [List.filter_filter]
        refine List.filter_congr fun key _ => ?_
        rw [Std.HashMap.contains_insert, Bool.not_or, BEq.comm]
      rw [ih, hfilter, List.filter_cons_of_pos (by simp [hnew]), List.eraseDups_cons]

theorem keys_ofList (entries : List (String × α)) :
    (ofList entries).keys = (entries.map (·.1)).eraseDups := by
  have hnew : newKeys ∅ entries = (entries.map (·.1)).eraseDups := by
    rw [newKeys_eq]
    simp
  have hfound : ∀ key ∈ newKeys ∅ entries,
      ((lastValues entries)[key]?.map (key, ·)).map (·.1) = some key := by
    intro key hkey
    have hvalue : ((lastValues entries)[key]?).isSome := by
      obtain ⟨entry, hentry, rfl⟩ := List.mem_map.mp (mem_newKeys_iff.mp hkey).2
      rw [getElem?_lastValues, List.lookup_isSome_iff]
      exact ⟨entry, List.mem_reverse.mpr hentry, by simp⟩
    obtain ⟨value, hvalue⟩ := Option.isSome_iff_exists.mp hvalue
    rw [hvalue]
    rfl
  calc (ofList entries).keys
      = (newKeys ∅ entries).filterMap fun key =>
          ((lastValues entries)[key]?.map (key, ·)).map (·.1) := List.map_filterMap
    _ = (newKeys ∅ entries).filterMap some := List.filterMap_congr hfound
    _ = _ := by rw [List.filterMap_some, hnew]

theorem size_ofList_le (entries : List (String × α)) : (ofList entries).size ≤ entries.length := by
  have hkeys : (ofList entries).keys.length ≤ (entries.map (·.1)).length := by
    rw [keys_ofList]
    exact (List.subperm_of_subset (nodup_eraseDups _) fun _ => List.mem_eraseDups.mp).length_le
  rwa [keys, List.length_map, List.length_map] at hkeys

theorem keys_foldl_put (entries : List (String × α)) :
    (entries.foldl (fun m entry => m.put entry.1 entry.2) empty).keys =
      (entries.map (·.1)).eraseDups := by
  induction entries using List.reverseRecOn with
  | nil => rfl
  | append_singleton entries entry ih =>
    rw [List.foldl_concat, keys_put, ih, List.map_append, List.map_singleton, eraseDups_concat]
    simp only [List.mem_eraseDups]

/-- The map of a list of entries is what comes of putting them in one by one: a key stays at its
first place, and its last value counts. -/
theorem ofList_eq_foldl_put (entries : List (String × α)) :
    ofList entries = entries.foldl (fun m entry => m.put entry.1 entry.2) empty := by
  refine eq_of_keys_eq ?_ fun key => ?_
  · rw [keys_ofList, keys_foldl_put]
  · rw [find?_ofList, find?_foldl_put, find?_empty, Option.or_none]

section Sorted

variable {γ : Type} (key : γ → String)

theorem textKey_trans (a b c : γ) :
    decide (¬ key b < key a) = true → decide (¬ key c < key b) = true →
      decide (¬ key c < key a) = true := by
  rw [decide_eq_true_iff, decide_eq_true_iff, decide_eq_true_iff, String.not_lt, String.not_lt,
    String.not_lt]
  exact String.le_trans

theorem textKey_total (a b : γ) :
    (decide (¬ key b < key a) || decide (¬ key a < key b)) = true := by
  rw [Bool.or_eq_true, decide_eq_true_iff, decide_eq_true_iff, String.not_lt, String.not_lt]
  exact String.le_total (key a) (key b)

variable {key}

theorem pairwise_mergeSort (members : List γ) :
    (members.mergeSort fun a b => decide (¬ key b < key a)).Pairwise fun a b => key a ≤ key b :=
  (List.pairwise_mergeSort (textKey_trans key) (textKey_total key) members).imp fun h =>
    String.not_lt.mp (of_decide_eq_true h)

/-- Members with keys of their own have one order of their keys. -/
theorem mergeSort_eq_of_perm {members others : List γ}
    (hnodup : (members.map key).Nodup) (hperm : others.Perm members) :
    (others.mergeSort fun a b => decide (¬ key b < key a)) =
      members.mergeSort fun a b => decide (¬ key b < key a) := by
  apply mergeSort_congr_of_perm (textKey_trans key) (textKey_total key) hperm
  intro a ha b hb hab hba
  have hle := String.not_lt.mp (of_decide_eq_true hab)
  have hge := String.not_lt.mp (of_decide_eq_true hba)
  exact List.inj_on_of_nodup_map hnodup ha hb (String.le_antisymm hle hge)

end Sorted

theorem pairwise_keys_sorted (m : Keyed α) : m.sorted.keys.Pairwise fun a b => a < b := by
  have hle : m.sorted.keys.Pairwise fun a b => a ≤ b :=
    List.pairwise_map.mpr (pairwise_mergeSort m.entries)
  refine (hle.and m.sorted.nodup_keys).imp fun hab => ?_
  obtain ⟨hle, hne⟩ := hab
  by_contra hlt
  exact hne (String.le_antisymm hle (String.not_lt.mp hlt))

theorem sorted_of_pairwise {m : Keyed α} (h : m.entries.Pairwise fun a b => ¬ b.1 < a.1) :
    m.sorted = m := by
  apply ext
  exact List.mergeSort_of_pairwise (h.imp fun hle => decide_eq_true hle)

/-- Maps in which the same is found have the same order of keys. -/
theorem sorted_congr {m other : Keyed α} (h : ∀ key, m.find? key = other.find? key) :
    m.sorted = other.sorted := by
  have hperm : m.entries.Perm other.entries := by
    rw [List.perm_ext_iff_of_nodup (m.nodup_keys.of_map _) (other.nodup_keys.of_map _)]
    intro entry
    rw [mem_entries_iff, mem_entries_iff, h]
  exact ext (mergeSort_eq_of_perm other.nodup_keys hperm)

end ZoneHistory.Keyed
