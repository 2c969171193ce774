import Mathlib.Data.Finset.Card
import ZoneHistory.AliasIndex
import ZoneHistory.Proofs.Keyed

/-!
# The strings of a pool

A pool lists the distinct strings of a mapping in the order of their first occurrences, and finds
each of them at its place in the list. It overflows exactly if there are more of them than its
capacity, and the string that is refused is the first for which there is no room.
-/
namespace ZoneHistory.AliasIndex

namespace Pool

/-- The pool holds the strings in this order, each at its place. -/
structure Lists (pool : Pool) (strings : List String) : Prop where
  toList_eq : pool.toList = strings
  index_iff : ∀ (string : String) (i : Nat),
    pool.index[string]? = some i ↔ strings[i]? = some string
  size_eq : pool.size = strings.length

theorem lists_empty : empty.Lists [] where
  toList_eq := rfl
  index_iff := by simp [empty]
  size_eq := rfl

namespace Lists

variable {pool : Pool} {strings : List String}

theorem contains_iff (h : pool.Lists strings) (string : String) :
    pool.index.contains string = true ↔ string ∈ strings := by
  rw [List.mem_iff_getElem?, Std.HashMap.contains_eq_isSome_getElem?, Option.isSome_iff_exists]
  simp only [h.index_iff]

theorem insert (h : pool.Lists strings) {string : String} (hnew : string ∉ strings) :
    Lists ⟨string :: pool.strings, pool.index.insert string pool.size⟩ (strings ++ [string]) where
  toList_eq := by
    have hlist := h.toList_eq
    rw [toList] at hlist ⊢
    rw [List.reverse_cons, hlist]
  index_iff := by
    intro other i
    rw [Std.HashMap.getElem?_insert, h.size_eq, List.getElem?_append]
    by_cases hother : string = other
    · subst hother
      have hnone : strings[i]? ≠ some string := fun hi => hnew (List.mem_of_getElem? hi)
      simp only [beq_self_eq_true, if_true, Option.some.injEq]
      split
      · next hi =>
        simp only [hnone, iff_false]
        omega
      · next hi =>
        rw [List.getElem?_singleton]
        split
        · simp
          omega
        · simp
          omega
    · simp only [beq_eq_false_iff_ne.mpr hother, Bool.false_eq_true, if_false, h.index_iff]
      split
      · rfl
      · next hi =>
        rw [List.getElem?_eq_none (by omega), List.getElem?_singleton]
        split
        · simp [hother]
        · simp
  size_eq := by
    have hnotin : string ∉ pool.index := by
      rw [← Std.HashMap.contains_iff_mem, h.contains_iff]
      exact hnew
    rw [size, Std.HashMap.size_insert, if_neg hnotin, List.length_append, List.length_singleton,
      ← h.size_eq]
    rfl

/-- A string that is in the pool already, or for which there is room, is in it afterwards. -/
theorem add_eq (h : pool.Lists strings) (string : String) :
    pool.add string =
      if string ∈ strings then .ok pool
      else if capacity ≤ strings.length then .error (.poolFull string)
      else .ok ⟨string :: pool.strings, pool.index.insert string pool.size⟩ := by
  simp only [add, h.contains_iff, h.size_eq]

theorem getElem?_indexOf (h : pool.Lists strings) {string : String} (hmem : string ∈ strings) :
    strings[pool.indexOf string]? = some string := by
  obtain ⟨i, hi⟩ := List.mem_iff_getElem?.mp hmem
  have hindex := (h.index_iff string i).mpr hi
  rw [indexOf, Std.HashMap.getD_eq_getD_getElem?, hindex]
  exact hi

end Lists

/-- What adding strings to an empty pool has to come to. -/
def Outcome (strings : List String) : Except CapacityError Pool → Prop
  | .ok pool => pool.Lists strings.eraseDups ∧ strings.eraseDups.length ≤ capacity
  | .error _ => capacity < strings.eraseDups.length

theorem outcome_add {strings : List String} {pool : Pool} (h : Outcome strings (.ok pool))
    (string : String) : Outcome (strings ++ [string]) (pool.add string) := by
  obtain ⟨hlists, hroom⟩ := h
  rw [hlists.add_eq]
  split
  · next hmem =>
    rw [Outcome, Keyed.eraseDups_concat, if_pos (List.mem_eraseDups.mp hmem)]
    exact ⟨hlists, hroom⟩
  · next hdups =>
    have hnew : string ∉ strings := fun hmem => hdups (List.mem_eraseDups.mpr hmem)
    split
    · next hfull =>
      rw [Outcome, Keyed.eraseDups_concat, if_neg hnew, List.length_append, List.length_singleton]
      omega
    · next hfree =>
      rw [Outcome, Keyed.eraseDups_concat, if_neg hnew, List.length_append, List.length_singleton]
      exact ⟨hlists.insert hdups, by omega⟩

theorem outcome_concat_of_error {strings : List String} {cause : CapacityError}
    (h : Outcome strings (.error cause)) (string : String) :
    Outcome (strings ++ [string]) (.error cause) := by
  rw [Outcome] at h ⊢
  rw [Keyed.eraseDups_concat]
  split
  · exact h
  · rw [List.length_append]
    omega

theorem foldlM_add_concat (strings : List String) (string : String) (pool : Pool) :
    (strings ++ [string]).foldlM add pool =
      strings.foldlM add pool >>= fun pool => pool.add string := by
  rw [List.foldlM_append]
  congr
  funext pool
  rw [List.foldlM_cons]
  exact bind_pure (pool.add string)

theorem outcome_foldlM (strings : List String) : Outcome strings (strings.foldlM add empty) := by
  induction strings using List.reverseRecOn with
  | nil => exact ⟨lists_empty, Nat.zero_le _⟩
  | append_singleton strings string ih =>
    rw [foldlM_add_concat]
    cases hearlier : strings.foldlM add empty with
    | error cause =>
      rw [hearlier] at ih
      exact outcome_concat_of_error ih string
    | ok pool =>
      rw [hearlier] at ih
      exact outcome_add ih string

theorem add_eq_error {strings : List String} {pool : Pool} (h : Outcome strings (.ok pool))
    {string : String} {cause : CapacityError} (hadd : pool.add string = .error cause) :
    cause = .poolFull string ∧ (strings ++ [string]).eraseDups[capacity]? = some string := by
  obtain ⟨hlists, hroom⟩ := h
  rw [hlists.add_eq] at hadd
  split at hadd
  · cases hadd
  · next hdups =>
    have hnew : string ∉ strings := fun hmem => hdups (List.mem_eraseDups.mpr hmem)
    split at hadd
    · next hfull =>
      have hlength : strings.eraseDups.length = capacity := le_antisymm hroom hfull
      refine ⟨(Except.error.inj hadd).symm, ?_⟩
      rw [Keyed.eraseDups_concat, if_neg hnew, ← hlength]
      exact List.getElem?_concat_length
    · cases hadd

theorem getElem?_eraseDups_concat {strings : List String} {i : Nat} {earlier : String}
    (h : strings.eraseDups[i]? = some earlier) (string : String) :
    (strings ++ [string]).eraseDups[i]? = some earlier := by
  rw [Keyed.eraseDups_concat]
  split
  · exact h
  · obtain ⟨hlt, -⟩ := List.getElem?_eq_some_iff.mp h
    rw [List.getElem?_append_left hlt]
    exact h

/-- The strings are refused at the first that would be one too many. -/
theorem foldlM_eq_error {strings : List String} {cause : CapacityError}
    (h : strings.foldlM add empty = .error cause) :
    ∃ string, cause = .poolFull string ∧ strings.eraseDups[capacity]? = some string := by
  induction strings using List.reverseRecOn with
  | nil => cases h
  | append_singleton strings string ih =>
    have hearlier := outcome_foldlM strings
    rw [foldlM_add_concat] at h
    cases hfold : strings.foldlM add empty with
    | error earlier =>
      rw [hfold] at h
      obtain rfl : earlier = cause := Except.error.inj h
      obtain ⟨refused, hcause, hrefused⟩ := ih hfold
      exact ⟨refused, hcause, getElem?_eraseDups_concat hrefused string⟩
    | ok pool =>
      rw [hfold] at h hearlier
      exact ⟨string, add_eq_error hearlier h⟩

end Pool

/-- The aliases and targets of a mapping, each alias before its target. -/
def strings (mapping : Keyed String) : List String :=
  mapping.entries.flatMap fun entry => [entry.1, entry.2]

theorem foldlM_add_entries (entries : List (String × String)) (pool : Pool) :
    entries.foldlM (fun pool entry => do (← pool.add entry.1).add entry.2) pool =
      (entries.flatMap fun entry => [entry.1, entry.2]).foldlM Pool.add pool := by
  induction entries generalizing pool with
  | nil => rfl
  | cons entry rest ih =>
    simp only [List.foldlM_cons, List.flatMap_cons, List.cons_append, List.nil_append, bind_assoc]
    simp only [ih]

theorem ofMapping_eq (mapping : Keyed String) :
    Pool.ofMapping mapping = (strings mapping).foldlM Pool.add Pool.empty :=
  foldlM_add_entries mapping.entries Pool.empty

theorem outcome_ofMapping (mapping : Keyed String) :
    Pool.Outcome (strings mapping) (Pool.ofMapping mapping) := by
  rw [ofMapping_eq]
  exact Pool.outcome_foldlM _

/-- Strings, each once, in the order of their first occurrences in a list. -/
structure FirstSeen (all seen : List String) : Prop where
  nodup : seen.Nodup
  mem_iff : ∀ string, string ∈ seen ↔ string ∈ all
  ordered : seen.Pairwise fun earlier later => all.idxOf earlier < all.idxOf later

theorem firstSeen_eraseDups (all : List String) : FirstSeen all all.eraseDups where
  nodup := Keyed.nodup_eraseDups all
  mem_iff := fun _ => List.mem_eraseDups
  ordered := by
    induction all using List.reverseRecOn with
    | nil => exact List.Pairwise.nil
    | append_singleton all string ih =>
      have hidx : ∀ other ∈ all.eraseDups, (all ++ [string]).idxOf other = all.idxOf other :=
        fun other hother => List.idxOf_append_of_mem (List.mem_eraseDups.mp hother)
      have hseen : all.eraseDups.Pairwise fun earlier later =>
          (all ++ [string]).idxOf earlier < (all ++ [string]).idxOf later := by
        refine ih.imp_of_mem fun hearlier hlater hlt => ?_
        rw [hidx _ hearlier, hidx _ hlater]
        exact hlt
      rw [Keyed.eraseDups_concat]
      split
      · exact hseen
      · next hnew =>
        refine List.pairwise_append.mpr ⟨hseen, List.pairwise_singleton _ _, ?_⟩
        intro earlier hearlier later hlater
        obtain rfl := List.mem_singleton.mp hlater
        rw [hidx _ hearlier, List.idxOf_append_of_notMem hnew]
        have hlt := List.idxOf_lt_length_of_mem (List.mem_eraseDups.mp hearlier)
        omega

theorem length_eraseDups (all : List String) : all.eraseDups.length = all.toFinset.card := by
  have hsame : all.eraseDups.toFinset = all.toFinset := by
    ext string
    simp
  rw [← hsame, List.toFinset_card_of_nodup (Keyed.nodup_eraseDups all)]

/-- A pool lists the strings of a mapping in the order of their first occurrences, and finds each
at its place. There is none exactly if the mapping has too many strings; what is refused then is
the string that would be listed next after as many as a pool can hold. -/
theorem ofMapping_lists_firstSeen (mapping : Keyed String) :
    (∀ pool, Pool.ofMapping mapping = .ok pool →
      FirstSeen (strings mapping) pool.toList ∧ pool.size = pool.toList.length ∧
        ∀ (string : String) (i : Nat), pool.index[string]? = some i ↔
          pool.toList[i]? = some string) ∧
    (∀ cause, Pool.ofMapping mapping = .error cause → ∃ seen string,
      FirstSeen (strings mapping) seen ∧ seen[65535]? = some string ∧ cause = .poolFull string) ∧
    ((∃ cause, Pool.ofMapping mapping = .error cause) ↔
      65535 < (strings mapping).toFinset.card) := by
  have houtcome := outcome_ofMapping mapping
  have hseen := firstSeen_eraseDups (strings mapping)
  refine ⟨fun pool hpool => ?_, fun cause hcause => ?_, ?_⟩
  · rw [hpool] at houtcome
    obtain ⟨hlists, -⟩ := houtcome
    rw [hlists.toList_eq]
    exact ⟨hseen, hlists.size_eq, hlists.index_iff⟩
  · rw [ofMapping_eq] at hcause
    obtain ⟨string, rfl, hstring⟩ := Pool.foldlM_eq_error hcause
    exact ⟨_, string, hseen, hstring, rfl⟩
  · rw [← length_eraseDups]
    cases hresult : Pool.ofMapping mapping with
    | error cause =>
      rw [hresult] at houtcome
      have hfull : 65535 < (strings mapping).eraseDups.length := houtcome
      simpa using hfull
    | ok pool =>
      rw [hresult] at houtcome
      have hroom : (strings mapping).eraseDups.length ≤ 65535 := houtcome.2
      simp
      omega

end ZoneHistory.AliasIndex
