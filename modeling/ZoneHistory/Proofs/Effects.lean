import ZoneHistory.Proofs.Layout

/-!
# The effects of a period

Whatever a period shows comes from one of its recurrences, from its fixed savings or from nothing.
Its events are occurrences of its recurrences in a range of years, each read on a clock that shows
one of its effects, and so is its end.
-/
namespace ZoneHistory.Period

variable {period : Period} {events : List Event} {start : Option Int}

/-- All effects that a period can have. -/
def effects (period : Period) : List Effect :=
  period.recurrences.map (·.effect) ++ (period.fixed.map (·.effect)).toList ++ [⟨0, ""⟩]

theorem forall_mem_effects {p : Effect → Prop} :
    (∀ effect ∈ period.effects, p effect) ↔
      (∀ recurrence ∈ period.recurrences, p recurrence.effect) ∧
        (∀ fixed ∈ period.fixed, p fixed.effect) ∧ p ⟨0, ""⟩ := by
  simp only [effects, List.forall_mem_append, List.forall_mem_map, List.forall_mem_singleton,
    and_assoc]
  cases period.fixed <;> simp

theorem effect_mem_effects {recurrence : Recurrence} (h : recurrence ∈ period.recurrences) :
    recurrence.effect ∈ period.effects := by
  simp only [effects, List.mem_append]
  exact Or.inl (Or.inl (List.mem_map_of_mem h))

theorem fixed_mem_effects {fixed : FixedSavings} (h : period.fixed = some fixed) :
    fixed.effect ∈ period.effects := by
  simp [effects, h]

theorem none_mem_effects : ⟨0, ""⟩ ∈ period.effects := by simp [effects]

theorem defaultEffect_mem_effects : period.defaultEffect ∈ period.effects := by
  rw [defaultEffect]
  split
  · next recurrence hfind => exact effect_mem_effects (List.mem_of_find?_eq_some hfind)
  · split
    · next fixed hfixed => exact fixed_mem_effects hfixed
    · exact none_mem_effects

theorem exists_initialSave_eq : ∃ effect ∈ period.effects, period.initialSave = effect.save := by
  rw [initialSave]
  split
  · next fixed hfixed => exact ⟨fixed.effect, fixed_mem_effects hfixed, rfl⟩
  · exact ⟨⟨0, ""⟩, none_mem_effects, rfl⟩

theorem mem_occurrences_iff {year localTime : Int} {recurrence : Recurrence} :
    (localTime, recurrence) ∈ period.occurrences year ↔
      recurrence ∈ period.recurrences ∧ recurrence.covers year = true ∧
        localTime = recurrence.date.localMillis year := by
  rw [occurrences, List.mem_mergeSort, List.mem_map]
  constructor
  · rintro ⟨found, hfound, heq⟩
    cases heq
    exact ⟨(List.mem_filter.mp hfound).1, (List.mem_filter.mp hfound).2, rfl⟩
  · rintro ⟨hmem, hcovers, rfl⟩
    exact ⟨recurrence, List.mem_filter.mpr ⟨hmem, hcovers⟩, rfl⟩

/-- An event is an occurrence, read with the savings of another or of none before it. -/
theorem exists_of_mem_eventsAfter {standardOffset save : Int}
    {occurrences : List (Int × Recurrence)} {event : Event}
    (h : event ∈ eventsAfter standardOffset save occurrences) :
    ∃ localTime recurrence earlier, (localTime, recurrence) ∈ occurrences ∧
      (earlier = save ∨ ∃ other ∈ occurrences, earlier = other.2.effect.save) ∧
      event = ⟨localTime - recurrence.date.clock.offset standardOffset earlier,
        recurrence.effect⟩ := by
  induction occurrences generalizing save with
  | nil => cases h
  | cons first rest ih =>
    obtain ⟨localTime, recurrence⟩ := first
    rcases List.mem_cons.mp h with rfl | h
    · exact ⟨localTime, recurrence, save, List.mem_cons_self, Or.inl rfl, rfl⟩
    · obtain ⟨localTime', recurrence', earlier, hmem, hearlier, rfl⟩ := ih h
      refine ⟨localTime', recurrence', earlier, List.mem_cons_of_mem _ hmem, Or.inr ?_, rfl⟩
      rcases hearlier with rfl | ⟨other, hother, rfl⟩
      · exact ⟨_, List.mem_cons_self, rfl⟩
      · exact ⟨other, List.mem_cons_of_mem _ hother, rfl⟩

/-- The savings of the last of some occurrences, or those before them if there is none. -/
def savingsAfter (save : Int) (occurrences : List (Int × Recurrence)) : Int :=
  (occurrences.getLast?.map (·.2.effect.save)).getD save

theorem savingsAfter_cons (save : Int) (first : Int × Recurrence) (rest : List (Int × Recurrence)) :
    savingsAfter save (first :: rest) = savingsAfter first.2.effect.save rest := by
  rw [savingsAfter, savingsAfter, List.getLast?_cons]
  cases rest.getLast? <;> rfl

theorem savingsAfter_cases (save : Int) (occurrences : List (Int × Recurrence)) :
    savingsAfter save occurrences = save ∨
      ∃ other ∈ occurrences, savingsAfter save occurrences = other.2.effect.save := by
  rw [savingsAfter]
  cases hlast : occurrences.getLast? with
  | none => exact Or.inl rfl
  | some other => exact Or.inr ⟨other, List.mem_of_getLast? hlast, rfl⟩

/-- Occurrences that follow others are read with the savings of the last of these. -/
theorem eventsAfter_append (standardOffset save : Int) (before after : List (Int × Recurrence)) :
    eventsAfter standardOffset save (before ++ after) =
      eventsAfter standardOffset save before ++
        eventsAfter standardOffset (savingsAfter save before) after := by
  induction before generalizing save with
  | nil => rfl
  | cons first rest ih =>
    rw [List.cons_append, eventsAfter, ih, eventsAfter, savingsAfter_cons, List.cons_append]

theorem exists_effect_of_earlier {years : List Int} {save earlier : Int}
    (hsave : ∃ effect ∈ period.effects, save = effect.save)
    (h : earlier = save ∨
      ∃ other ∈ years.flatMap period.occurrences, earlier = other.2.effect.save) :
    ∃ effect ∈ period.effects, earlier = effect.save := by
  rcases h with rfl | ⟨⟨localTime, recurrence⟩, hmem, rfl⟩
  · exact hsave
  · obtain ⟨year, -, hoccurrence⟩ := List.mem_flatMap.mp hmem
    exact ⟨recurrence.effect, effect_mem_effects (mem_occurrences_iff.mp hoccurrence).1, rfl⟩

/-- The clock of an occurrence shows an effect of the period. -/
def Occurs (period : Period) (years : List Int) (event : Event) : Prop :=
  ∃ year ∈ years, ∃ recurrence ∈ period.recurrences, ∃ earlier ∈ period.effects,
    recurrence.covers year = true ∧
      event = ⟨recurrence.date.localMillis year -
        recurrence.date.clock.offset period.standardOffset earlier.save, recurrence.effect⟩

theorem occurs_of_mem_eventsAfter {years : List Int} {save : Int} {event : Event}
    (hsave : ∃ effect ∈ period.effects, save = effect.save)
    (h : event ∈ eventsAfter period.standardOffset save (years.flatMap period.occurrences)) :
    period.Occurs years event := by
  obtain ⟨localTime, recurrence, earlier, hmem, hearlier, rfl⟩ := exists_of_mem_eventsAfter h
  obtain ⟨year, hyear, hoccurrence⟩ := List.mem_flatMap.mp hmem
  obtain ⟨hrecurrence, hcovers, rfl⟩ := mem_occurrences_iff.mp hoccurrence
  obtain ⟨effect, heffect, rfl⟩ := exists_effect_of_earlier hsave hearlier
  exact ⟨year, hyear, recurrence, hrecurrence, effect, heffect, hcovers, rfl⟩

/-- The events of years that follow others. -/
def eventsFollowing (period : Period) (years later : List Int) : List Event :=
  eventsAfter period.standardOffset
    (savingsAfter period.initialSave (years.flatMap period.occurrences))
    (later.flatMap period.occurrences)

theorem occurs_of_mem_eventsFollowing {years later : List Int} {event : Event}
    (h : event ∈ period.eventsFollowing years later) : period.Occurs later event :=
  occurs_of_mem_eventsAfter
    (exists_effect_of_earlier exists_initialSave_eq (savingsAfter_cases _ _)) h

/-- Later years change nothing in a choice that takes none of their events. -/
theorem filter_eventsIn_append {years later : List Int} {p : Event → Bool}
    (h : ∀ event ∈ period.eventsFollowing years later, p event = false) :
    (period.eventsIn (years ++ later)).filter p = (period.eventsIn years).filter p := by
  have hnone : (period.eventsFollowing years later).filter p = [] :=
    List.filter_eq_nil_iff.mpr fun event hevent => by simp [h event hevent]
  rw [eventsFollowing] at hnone
  rw [eventsIn, eventsIn, List.flatMap_append, eventsAfter_append, filter_mergeSort_events,
    filter_mergeSort_events, List.filter_append, hnone, List.append_nil]

theorem occurs_of_mem_events {lastYear : Int} {cutover : Option Cutover} {event : Event}
    (h : event ∈ period.events lastYear cutover start) :
    period.Occurs (period.years lastYear cutover start) event :=
  occurs_of_mem_eventsAfter exists_initialSave_eq (List.mem_mergeSort.mp h)

theorem Occurs.effect_mem {years : List Int} {event : Event} (h : period.Occurs years event) :
    event.effect ∈ period.effects := by
  obtain ⟨-, -, recurrence, hrecurrence, -, -, -, rfl⟩ := h
  exact effect_mem_effects hrecurrence

/-- Events that occur in the order of their local times need not be sorted. -/
theorem eventsIn_of_pairwise {years : List Int} {laid : List Event}
    (hlaid : eventsAfter period.standardOffset period.initialSave
      (years.flatMap period.occurrences) = laid)
    (ordered : laid.Pairwise fun a b => a.instant ≤ b.instant) : period.eventsIn years = laid := by
  rw [eventsIn, hlaid]
  exact List.mergeSort_of_pairwise (ordered.imp fun h => decide_eq_true h)

theorem effect_mem_of_mem_events {lastYear : Int} {cutover : Option Cutover} {event : Event}
    (h : event ∈ period.events lastYear cutover start) : event.effect ∈ period.effects :=
  (occurs_of_mem_events h).effect_mem

section Events

variable (hevents : ∀ event ∈ events, event.effect ∈ period.effects)

include hevents

theorem opening_mem_effects (start : Option Int) :
    period.opening events start ∈ period.effects := by
  rw [opening]
  split
  · next fixed hfixed _ => exact fixed_mem_effects hfixed
  · cases hlast : start.bind (lastEffect? events) with
    | none => exact defaultEffect_mem_effects
    | some effect =>
      obtain ⟨instant, -, hinstant⟩ := Option.bind_eq_some_iff.mp hlast
      obtain ⟨event, hevent, rfl⟩ := Option.map_eq_some_iff.mp hinstant
      exact hevents event ((List.takeWhile_sublist _).subset (List.mem_of_getLast? hevent))

theorem exists_saveBefore_eq (start : Option Int) (instant : Int) :
    ∃ effect ∈ period.effects, period.saveBefore events start instant = effect.save := by
  rw [saveBefore]
  split
  · next event hevent =>
    exact ⟨event.effect,
      hevents event ((List.takeWhile_sublist _).subset (List.mem_of_getLast? hevent)), rfl⟩
  · exact ⟨_, opening_mem_effects hevents start, rfl⟩

/-- The clock of a cutover shows an effect of the period that it ends. -/
theorem exists_cutoverInstant_eq (cutover : Cutover) (start : Option Int) :
    ∃ effect ∈ period.effects, period.cutoverInstant cutover events start =
      cutover.date.localMillis cutover.year -
        cutover.date.clock.offset period.standardOffset effect.save := by
  rw [cutoverInstant]
  cases cutover.date.clock with
  | universal => exact ⟨⟨0, ""⟩, none_mem_effects, (Int.sub_zero _).symm⟩
  | standard => exact ⟨⟨0, ""⟩, none_mem_effects, rfl⟩
  | wall =>
    obtain ⟨effect, heffect, hsave⟩ := exists_saveBefore_eq hevents start
      (cutover.date.localMillis cutover.year - period.standardOffset)
    refine ⟨effect, heffect, ?_⟩
    dsimp only
    rw [hsave, Clock.offset, Int.sub_sub]

end Events

/-! ## The years and the number of events -/

theorem mem_yearRange_iff {low high year : Int} :
    year ∈ yearRange low high ↔ low ≤ year ∧ year ≤ high := by
  simp only [yearRange, List.mem_map, List.mem_range]
  constructor
  · rintro ⟨i, hi, rfl⟩
    omega
  · intro h
    exact ⟨(year - low).toNat, by omega, by omega⟩

/-- The last year of a timeline only cuts off years that a period would go on for. -/
theorem exists_years_eq (period : Period) (cutover : Option Cutover) (start : Option Int) :
    ∃ low high, firstYear ≤ low ∧ (∀ c ∈ cutover, high ≤ c.year) ∧
      ∀ lastYear, period.years lastYear cutover start = yearRange low (min high lastYear) := by
  unfold years
  split
  · have hhigh : ∃ high, high < firstYear ∧ ∀ c ∈ cutover, high ≤ c.year := by
      cases cutover with
      | none => exact ⟨firstYear - 1, by omega, by rintro _ ⟨⟩⟩
      | some c =>
        refine ⟨min (firstYear - 1) c.year, by omega, ?_⟩
        rintro _ ⟨⟩
        exact Int.min_le_right _ _
    obtain ⟨high, hlt, hhigh⟩ := hhigh
    refine ⟨firstYear, high, le_rfl, hhigh, fun lastYear => ?_⟩
    rw [eq_comm, List.eq_nil_iff_forall_not_mem]
    intro year hyear
    rw [mem_yearRange_iff] at hyear
    omega
  · have hswap : ∀ a b c : Int, min (min a b) c = min (min a c) b := by omega
    cases cutover with
    | none =>
      refine ⟨_, _, ?_, by rintro _ ⟨⟩, fun lastYear => rfl⟩
      split <;> omega
    | some c =>
      refine ⟨_, _, ?_, ?_, fun lastYear => congrArg (yearRange _) (hswap _ _ _)⟩
      · split <;> omega
      · rintro _ ⟨⟩
        exact Int.min_le_right _ _

theorem bounds_of_mem_years {lastYear year : Int} {cutover : Option Cutover}
    (h : year ∈ period.years lastYear cutover start) : firstYear ≤ year ∧ year ≤ lastYear := by
  obtain ⟨low, high, hlow, -, hyears⟩ := period.exists_years_eq cutover start
  rw [hyears, mem_yearRange_iff] at h
  omega

theorem length_years_le (period : Period) (lastYear : Int) (cutover : Option Cutover)
    (start : Option Int) :
    (period.years lastYear cutover start).length ≤ (lastYear + 1 - firstYear).toNat := by
  obtain ⟨low, high, hlow, -, hyears⟩ := period.exists_years_eq cutover start
  rw [hyears, yearRange, List.length_map, List.length_range]
  omega

theorem length_eventsAfter (standardOffset save : Int) (occurrences : List (Int × Recurrence)) :
    (eventsAfter standardOffset save occurrences).length = occurrences.length := by
  induction occurrences generalizing save with
  | nil => rfl
  | cons first rest ih => rw [eventsAfter, List.length_cons, List.length_cons, ih]

theorem length_occurrences_le (period : Period) (years : List Int) :
    (years.flatMap period.occurrences).length ≤ years.length * period.recurrences.length := by
  induction years with
  | nil => exact Nat.zero_le _
  | cons year rest ih =>
    have hyear : (period.occurrences year).length ≤ period.recurrences.length := by
      rw [occurrences, List.length_mergeSort, List.length_map]
      exact List.length_filter_le _ _
    rw [List.flatMap_cons, List.length_append, List.length_cons, Nat.succ_mul]
    omega

theorem length_events_le (period : Period) (lastYear : Int) (cutover : Option Cutover)
    (start : Option Int) :
    (period.events lastYear cutover start).length ≤
      (lastYear + 1 - firstYear).toNat * period.recurrences.length := by
  rw [events, eventsIn, List.length_mergeSort, length_eventsAfter]
  exact (period.length_occurrences_le _).trans
    (Nat.mul_le_mul_right _ (period.length_years_le lastYear cutover start))

end ZoneHistory.Period
