import Std.Data.HashMap

/-!
# Maps in order of insertion

A `Keyed α` lists its entries in the order in which their keys were first put in, each key once.
Putting a key again replaces the value where the entry stands: `find?_put` says what is found
afterwards and `keys_put` in which order.
-/
namespace ZoneHistory

/-- Replace the value of a key in a list of entries, or add an entry at the end. -/
def assign {κ α : Type} [DecidableEq κ] (key : κ) (value : α) : List (κ × α) → List (κ × α)
  | [] => [(key, value)]
  | entry :: rest =>
    if entry.1 = key then (key, value) :: rest else entry :: assign key value rest

theorem map_fst_assign {κ α : Type} [DecidableEq κ] (key : κ) (value : α)
    (entries : List (κ × α)) :
    (assign key value entries).map (·.1) =
      if key ∈ entries.map (·.1) then entries.map (·.1) else entries.map (·.1) ++ [key] := by
  induction entries with
  | nil => simp [assign]
  | cons entry rest ih =>
    by_cases h : entry.1 = key
    · simp [assign, h]
    · have h' : ¬ key = entry.1 := fun e => h e.symm
      simp only [assign, h, if_false, List.map_cons, ih, List.mem_cons, h', false_or]
      split <;> simp

theorem lookup_assign {κ α : Type} [DecidableEq κ] (key other : κ) (value : α)
    (entries : List (κ × α)) :
    (assign key value entries).lookup other =
      if other = key then some value else entries.lookup other := by
  induction entries with
  | nil =>
    by_cases ho : other = key
    · simp [assign, ho]
    · simp only [assign, List.lookup_cons, List.lookup_nil, beq_eq_false_iff_ne.mpr ho, ho,
        if_false]
  | cons entry rest ih =>
    obtain ⟨first, old⟩ := entry
    by_cases h : first = key
    · by_cases ho : other = key
      · simp [assign, h, ho]
      · simp only [assign, h, if_true, List.lookup_cons, beq_eq_false_iff_ne.mpr ho, ho, if_false]
    · by_cases ho : other = first
      · subst ho
        simp [assign, h]
      · simp only [assign, h, if_false, List.lookup_cons, beq_eq_false_iff_ne.mpr ho, ih]

/-- A map from strings that remembers in which order its keys came. -/
structure Keyed (α : Type) where
  entries : List (String × α)
  nodup_keys : (entries.map (·.1)).Nodup
  deriving DecidableEq

namespace Keyed

variable {α β : Type}

def empty : Keyed α := ⟨[], List.nodup_nil⟩

instance : Inhabited (Keyed α) := ⟨empty⟩

def keys (m : Keyed α) : List String := m.entries.map (·.1)

def values (m : Keyed α) : List α := m.entries.map (·.2)

def size (m : Keyed α) : Nat := m.entries.length

def find? (m : Keyed α) (key : String) : Option α := m.entries.lookup key

def contains (m : Keyed α) (key : String) : Bool := (m.find? key).isSome

def put (m : Keyed α) (key : String) (value : α) : Keyed α where
  entries := assign key value m.entries
  nodup_keys := by
    rw [map_fst_assign]
    split
    · exact m.nodup_keys
    · next h =>
      rw [List.nodup_append]
      refine ⟨m.nodup_keys, by simp, ?_⟩
      intro a ha b hb
      simp only [List.mem_singleton] at hb
      subst hb
      exact fun e => h (e ▸ ha)

/-- Put in all the entries of another map, in its order. -/
def putAll (m : Keyed α) (other : Keyed α) : Keyed α :=
  other.entries.foldl (fun acc entry => acc.put entry.1 entry.2) m

def mapValues (f : α → β) (m : Keyed α) : Keyed β where
  entries := m.entries.map fun entry => (entry.1, f entry.2)
  nodup_keys := by simpa [List.map_map, Function.comp_def] using m.nodup_keys

/-- The same entries in the order of their keys, by code points. -/
def sorted (m : Keyed α) : Keyed α where
  entries := m.entries.mergeSort fun a b => decide (¬ b.1 < a.1)
  nodup_keys :=
    ((List.mergeSort_perm m.entries _).map (·.1)).nodup_iff.mpr m.nodup_keys

/-- The keys of a list of entries that were not seen before, each at its first place. -/
def newKeys (seen : Std.HashMap String Unit) : List (String × α) → List String
  | [] => []
  | entry :: rest =>
    if seen.contains entry.1 then newKeys seen rest
    else entry.1 :: newKeys (seen.insert entry.1 ()) rest

theorem not_mem_newKeys {seen : Std.HashMap String Unit} {entries : List (String × α)}
    {key : String} (h : seen.contains key = true) : key ∉ newKeys seen entries := by
  induction entries generalizing seen with
  | nil => simp [newKeys]
  | cons entry rest ih =>
    simp only [newKeys]
    split
    · exact ih h
    · next hn =>
      simp only [List.mem_cons, not_or]
      refine ⟨fun e => hn (e ▸ h), ih ?_⟩
      simp [Std.HashMap.contains_insert, h]

theorem nodup_newKeys (seen : Std.HashMap String Unit) (entries : List (String × α)) :
    (newKeys seen entries).Nodup := by
  induction entries generalizing seen with
  | nil => simp [newKeys]
  | cons entry rest ih =>
    simp only [newKeys]
    split
    · exact ih seen
    · exact List.nodup_cons.mpr ⟨not_mem_newKeys (by simp), ih _⟩

/-- The last value of each key. -/
def lastValues (entries : List (String × α)) : Std.HashMap String α :=
  entries.foldl (fun last entry => last.insert entry.1 entry.2) ∅

/-- The given keys with their values in a table; keys without a value are left out. -/
def withValues (keys : List String) (table : Std.HashMap String α) : List (String × α) :=
  keys.filterMap fun key => table[key]?.map (key, ·)

theorem nodup_withValues {keys : List String} (h : keys.Nodup) (table : Std.HashMap String α) :
    ((withValues keys table).map (·.1)).Nodup := by
  rw [withValues, List.map_filterMap]
  refine List.Pairwise.filterMap _ ?_ h
  intro a b hab c hc d hd
  simp only [Option.map_map, Option.map_eq_some_iff, Function.comp_apply] at hc hd
  obtain ⟨_, -, rfl⟩ := hc
  obtain ⟨_, -, rfl⟩ := hd
  exact hab

/-- The entries at the first place of their keys, with the last value of each. -/
def ofList (entries : List (String × α)) : Keyed α where
  entries := withValues (newKeys ∅ entries) (lastValues entries)
  nodup_keys := nodup_withValues (nodup_newKeys ∅ entries) _

@[simp] theorem entries_empty : (empty : Keyed α).entries = [] := rfl

@[simp] theorem find?_empty (key : String) : (empty : Keyed α).find? key = none := rfl

theorem find?_put (m : Keyed α) (key other : String) (value : α) :
    (m.put key value).find? other = if other = key then some value else m.find? other :=
  lookup_assign key other value m.entries

theorem keys_put (m : Keyed α) (key : String) (value : α) :
    (m.put key value).keys = if key ∈ m.keys then m.keys else m.keys ++ [key] :=
  map_fst_assign key value m.entries

end Keyed

end ZoneHistory
