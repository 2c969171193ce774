import Mathlib.Data.List.Induction
import Mathlib.Data.List.Nodup
import Std.Data.HashMap.Lemmas
import ZoneHistory.Keyed

/-!
# Maps from lists of entries

A list in which no key comes twice is the list of entries of the map made from it.
-/
namespace ZoneHistory.Keyed

variable {α : Type}

theorem ext {m other : Keyed α} (h : m.entries = other.entries) : m = other := by
  cases m
  cases other
  cases h
  rfl

/-- A key comes last in order of first appearance, unless it appeared before. -/
theorem eraseDups_concat (keys : List String) (key : String) :
    (keys ++ [key]).eraseDups =
      if key ∈ keys then keys.eraseDups else keys.eraseDups ++ [key] := by
  rw [List.eraseDups_append]
  split
  · next hmem => simp [List.removeAll, hmem]
  · next hmem => simp [List.removeAll, hmem, List.eraseDups_cons]

theorem nodup_eraseDups (keys : List String) : keys.eraseDups.Nodup := by
  induction keys using List.reverseRecOn with
  | nil => exact List.nodup_nil
  | append_singleton keys key ih =>
    rw [eraseDups_concat]
    split
    · exact ih
    · next hnew =>
      rw [← List.concat_eq_append]
      exact ih.concat fun hmem => hnew (List.mem_eraseDups.mp hmem)

theorem newKeys_of_nodup {seen : Std.HashMap String Unit} {entries : List (String × α)}
    (hnodup : (entries.map (·.1)).Nodup)
    (hnew : ∀ entry ∈ entries, seen.contains entry.1 = false) :
    newKeys seen entries = entries.map (·.1) := by
  induction entries generalizing seen with
  | nil => rfl
  | cons entry rest ih =>
    rw [List.map_cons, List.nodup_cons] at hnodup
    rw [newKeys, hnew entry List.mem_cons_self, if_neg Bool.false_ne_true, List.map_cons]
    congr 1
    refine ih hnodup.2 fun other hother => ?_
    have hne : entry.1 ≠ other.1 := fun he => hnodup.1 (he ▸ List.mem_map_of_mem hother)
    rw [Std.HashMap.contains_insert, beq_eq_false_iff_ne.mpr hne, Bool.false_or]
    exact hnew other (List.mem_cons_of_mem _ hother)

theorem getElem?_lastValues (entries : List (String × α)) (key : String) :
    (lastValues entries)[key]? = entries.reverse.lookup key := by
  induction entries using List.reverseRecOn with
  | nil => exact Std.HashMap.getElem?_empty
  | append_singleton entries entry ih =>
    have hlast : lastValues (entries ++ [entry]) =
        (lastValues entries).insert entry.1 entry.2 := by
      simp [lastValues]
    rw [hlast, Std.HashMap.getElem?_insert, List.reverse_concat, List.lookup_cons, ih]
    by_cases hkey : entry.1 = key
    · simp [hkey]
    · rw [if_neg (by simpa using hkey), beq_eq_false_iff_ne.mpr (Ne.symm hkey)]

theorem lookup_of_mem {entries : List (String × α)} (hnodup : (entries.map (·.1)).Nodup)
    {entry : String × α} (hmem : entry ∈ entries) :
    entries.lookup entry.1 = some entry.2 := by
  induction entries with
  | nil => cases hmem
  | cons first rest ih =>
    rw [List.map_cons, List.nodup_cons] at hnodup
    rw [List.lookup_cons]
    rcases List.mem_cons.mp hmem with rfl | hmem
    · simp
    · have hne : entry.1 ≠ first.1 := fun he => hnodup.1 (he ▸ List.mem_map_of_mem hmem)
      rw [beq_eq_false_iff_ne.mpr hne]
      exact ih hnodup.2 hmem

theorem mem_entries_iff (m : Keyed α) (key : String) (value : α) :
    (key, value) ∈ m.entries ↔ m.find? key = some value := by
  constructor
  · exact fun hmem => lookup_of_mem m.nodup_keys hmem
  · intro hfind
    obtain ⟨before, after, hentries, -⟩ := List.lookup_eq_some_iff.mp hfind
    rw [hentries]
    exact List.mem_append_right _ List.mem_cons_self

theorem find?_sorted (m : Keyed α) (key : String) : m.sorted.find? key = m.find? key := by
  apply Option.ext
  intro value
  rw [← mem_entries_iff, ← mem_entries_iff, sorted, List.mem_mergeSort]

theorem withValues_map_fst {table : Std.HashMap String α} {entries : List (String × α)}
    (h : ∀ entry ∈ entries, table[entry.1]? = some entry.2) :
    withValues (entries.map (·.1)) table = entries := by
  induction entries with
  | nil => rfl
  | cons entry rest ih =>
    rw [List.forall_mem_cons] at h
    have hrest := ih h.2
    rw [withValues] at hrest ⊢
    rw [List.map_cons, List.filterMap_cons, h.1, Option.map_some, hrest]

theorem ofList_entries (m : Keyed α) : ofList m.entries = m := by
  have hkeys : newKeys ∅ m.entries = m.entries.map (·.1) :=
    newKeys_of_nodup m.nodup_keys fun _ _ => Std.HashMap.contains_empty
  have hreversed : (m.entries.reverse.map (·.1)).Nodup := by
    rw [List.map_reverse]
    exact List.nodup_reverse.mpr m.nodup_keys
  have hvalues : ∀ entry ∈ m.entries, (lastValues m.entries)[entry.1]? = some entry.2 := by
    intro entry hentry
    rw [getElem?_lastValues]
    exact lookup_of_mem hreversed (List.mem_reverse.mpr hentry)
  apply ext
  calc (ofList m.entries).entries
      = withValues (newKeys ∅ m.entries) (lastValues m.entries) := rfl
    _ = withValues (m.entries.map (·.1)) (lastValues m.entries) := by rw [hkeys]
    _ = m.entries := withValues_map_fst hvalues

end ZoneHistory.Keyed
