import ZoneHistory.Proofs.Lookup

/-!
# Lookups by a scan

Bisection finds what a scan of all transitions finds, in every history whose transitions stand in
order of time. Several may be at one instant, as in a history that was read from a file; the last of
them counts.
-/
namespace ZoneHistory.History

/-- The instants of the transitions after an instant. -/
def instantsAfter (history : History) (instant : Int) : List Int :=
  (history.transitions.toList.map (·.instant)).filter fun j => instant < j

/-- The instants of the transitions at or before an instant. -/
def instantsUpTo (history : History) (instant : Int) : List Int :=
  (history.transitions.toList.map (·.instant)).filter fun j => j ≤ instant

variable {history : History} {instant : Int}

theorem mem_instants_iff_mem_map {j : Int} :
    j ∈ history.instants ↔ j ∈ history.transitions.toList.map (·.instant) := by
  simp [instants]

theorem mem_instantsAfter_iff {j : Int} :
    j ∈ history.instantsAfter instant ↔ j ∈ history.instants ∧ instant < j := by
  simp [instantsAfter, mem_instants_iff_mem_map]

theorem mem_instantsUpTo_iff {j : Int} :
    j ∈ history.instantsUpTo instant ↔ j ∈ history.instants ∧ j ≤ instant := by
  simp [instantsUpTo, mem_instants_iff_mem_map]

/-- The next transition is at the least of the later instants. -/
theorem Ordered.nextTransition_eq (h : history.Ordered) (instant : Int) :
    history.nextTransition instant = (history.instantsAfter instant).min?.getD instant := by
  rcases nextTransition_least h instant with ⟨hmem, hleast⟩ | ⟨hself, hnone⟩
  · have hmin : (history.instantsAfter instant).min? = some (history.nextTransition instant) := by
      rw [List.min?_eq_some_iff]
      refine ⟨mem_instantsAfter_iff.mpr hmem, fun j hj => hleast ?_⟩
      exact mem_instantsAfter_iff.mp hj
    rw [hmin, Option.getD_some]
  · have hempty : history.instantsAfter instant = [] := by
      apply List.eq_nil_iff_forall_not_mem.mpr
      intro j hj
      obtain ⟨hmem, hlt⟩ := mem_instantsAfter_iff.mp hj
      have hle := hnone j hmem
      omega
    simp [hself, hempty]

/-- The previous transition is one millisecond before the greatest of the instants so far. -/
theorem Ordered.previousTransition_eq (h : history.Ordered) (instant : Int) :
    history.previousTransition instant =
      ((history.instantsUpTo instant).max?.map (· - 1)).getD instant := by
  rcases previousTransition_greatest h instant with ⟨hmem, hgreatest⟩ | ⟨hself, hnone⟩
  · have hmax : (history.instantsUpTo instant).max? =
        some (history.previousTransition instant + 1) := by
      rw [List.max?_eq_some_iff]
      refine ⟨mem_instantsUpTo_iff.mpr hmem, fun j hj => hgreatest ?_⟩
      exact mem_instantsUpTo_iff.mp hj
    simp [hmax]
  · have hempty : history.instantsUpTo instant = [] := by
      apply List.eq_nil_iff_forall_not_mem.mpr
      intro j hj
      obtain ⟨hmem, hle⟩ := mem_instantsUpTo_iff.mp hj
      have hlt := hnone j hmem
      omega
    simp [hself, hempty]

/-- The offsets and the abbreviation at an instant are those of the last transition in the list that
is not after it, or else of the initial state; the steps lead to the least instant after it, and to
one millisecond before the greatest up to it, or nowhere. -/
theorem lookups_eq_scan (h : history.Ordered) (instant : Int) :
    let latest := (history.upTo instant).getLast?.getD history.initial
    history.offsetAt instant = latest.wallOffset ∧
    history.standardOffsetAt instant = latest.standardOffset ∧
    history.nameAt instant = latest.name ∧
    history.nextTransition instant = (history.instantsAfter instant).min?.getD instant ∧
    history.previousTransition instant =
      ((history.instantsUpTo instant).max?.map (· - 1)).getD instant := by
  intro latest
  have hstate : history.stateAt instant = latest := stateAt_eq h instant
  refine ⟨?_, ?_, ?_, h.nextTransition_eq instant, h.previousTransition_eq instant⟩
  · rw [offsetAt, hstate]
  · rw [standardOffsetAt, hstate]
  · rw [nameAt, hstate]

/-- Two transitions at one instant, and a later one. -/
def simultaneous : History where
  zone := "Test/Zone"
  initial := ⟨0, 0, 0, "LMT"⟩
  transitions := #[⟨1000, 3600000, 3600000, "XST"⟩, ⟨1000, 7200000, 3600000, "XDT"⟩,
    ⟨5000, 3600000, 3600000, "XST"⟩]

theorem lookups_simultaneous :
    simultaneous.Ordered ∧ simultaneous.offsetAt 1000 = 7200000 ∧
      simultaneous.standardOffsetAt 1000 = 3600000 ∧ simultaneous.nameAt 1000 = "XDT" ∧
      simultaneous.nextTransition 1000 = 5000 ∧ simultaneous.previousTransition 1000 = 999 := by
  have hordered : simultaneous.Ordered := by
    rw [Ordered]
    decide
  obtain ⟨hoffset, hstandard, hname, hnext, hprevious⟩ := lookups_eq_scan hordered 1000
  exact ⟨hordered, hoffset, hstandard, hname, hnext, hprevious⟩

end ZoneHistory.History
