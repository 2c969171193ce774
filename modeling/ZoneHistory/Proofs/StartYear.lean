import ZoneHistory.Proofs.Calendar.Dates
import ZoneHistory.Proofs.LastYear
import ZoneHistory.Proofs.LeftOut

/-!
# Laying out from the year before the start

The recurrences of a period are laid out from the year before it starts, although the last of them
by then may be older. This changes nothing where the years left out are harmless, and whether they
are can be told from the years and months of the recurrences: if these begin the year before the
start or later, if two of them fall in that year some months apart, and if there is a gap of some
years that begins as a period does.
-/
namespace ZoneHistory

/-! ## Months of the year before the start -/

/-- A date of the calendar, and a time of not more than a week before or after its day. -/
structure DateSpec.Moderate (spec : DateSpec) : Prop extends DateSpec.Ordinary spec where
  day_le : spec.day ≤ 31
  time_le : spec.time ≤ 7 * Calendar.dayMillis

instance (spec : DateSpec) : Decidable spec.Moderate :=
  decidable_of_iff (spec.Ordinary ∧ spec.day ≤ 31 ∧ spec.time ≤ 7 * Calendar.dayMillis)
    ⟨fun h => ⟨h.1, h.2.1, h.2.2⟩, fun h => ⟨h.toOrdinary, h.day_le, h.time_le⟩⟩

theorem DateSpec.Moderate.localMillis_bounds {spec : DateSpec} (h : spec.Moderate) (year : Int) :
    (Calendar.daysFromEpoch year spec.month 1 - 14) * Calendar.dayMillis ≤ spec.localMillis year ∧
      spec.localMillis year ≤
        (Calendar.daysFromEpoch year spec.month 1 + 44) * Calendar.dayMillis := by
  have hanchor : Calendar.daysFromEpoch year spec.month 1 - 1 ≤ spec.anchor year ∧
      spec.anchor year ≤ Calendar.daysFromEpoch year spec.month 1 + 31 := by
    have hday := h.day
    have hday' := h.day_le
    have hlast := Calendar.daysInMonth_bounds year spec.month
    have hfirst := fun day => Calendar.gregorian.day year spec.month day h.month.1 h.month.2
    rw [anchor, hfirst (if spec.day = -1 then _ else _)]
    split <;> omega
  have hresolve := resolveDay_bounds spec year
  have htime := h.time
  have htime' := h.time_le
  rw [localMillis]
  rw [Calendar.dayMillis] at *
  omega

namespace DateSpec.Moderate

variable {spec later : DateSpec}

theorem lt_of_months (h : spec.Moderate) (hlater : later.Moderate)
    (hmonths : spec.month + 3 ≤ later.month) (year : Int) :
    spec.localMillis year + 4 * Calendar.dayMillis < later.localMillis year := by
  have hlocal := (h.localMillis_bounds year).2
  have hlocal' := (hlater.localMillis_bounds year).1
  have hapart := Calendar.monthStart_add_le year h.month.1 hlater.month.2 hmonths
  rw [Calendar.dayMillis] at *
  omega

theorem lt_of_quarter (h : spec.Moderate) (hmonth : 4 ≤ spec.month) (year : Int) :
    (Calendar.daysFromEpoch year 1 1 + 15) * Calendar.dayMillis <
      spec.localMillis year - 2 * Calendar.dayMillis := by
  have hlocal := (h.localMillis_bounds year).1
  have hapart := Calendar.monthStart_add_le year (Int.le_refl 1) h.month.2 hmonth
  rw [Calendar.dayMillis] at *
  omega

theorem le_of_november (h : spec.Moderate) (hmonth : spec.month ≤ 11) (year : Int) :
    spec.localMillis year + 2 * Calendar.dayMillis ≤
      Calendar.daysFromEpoch (year + 1) 1 1 * Calendar.dayMillis := by
  have hlocal := (h.localMillis_bounds year).2
  have hnovember := Calendar.monthStart_mono year h.month.1 (by decide) hmonth
  have hend := Calendar.monthStart_november year
  rw [Calendar.dayMillis] at *
  omega

end DateSpec.Moderate

namespace Period

variable {period : Period} {lastYear : Int} {cutover : Option Cutover} {start : Int}

/-- Clocks that are not more than a day from universal time, and dates of the calendar. -/
structure Moderate (period : Period) : Prop where
  offset : -Calendar.dayMillis ≤ period.standardOffset ∧
    period.standardOffset ≤ Calendar.dayMillis
  saves : ∀ effect ∈ period.effects,
    -Calendar.dayMillis ≤ effect.save ∧ effect.save ≤ Calendar.dayMillis
  dates : ∀ recurrence ∈ period.recurrences, recurrence.date.Moderate

theorem Moderate.offset_bounds (h : period.Moderate) (clock : Clock) {effect : Effect}
    (heffect : effect ∈ period.effects) :
    -(2 * Calendar.dayMillis) ≤ clock.offset period.standardOffset effect.save ∧
      clock.offset period.standardOffset effect.save ≤ 2 * Calendar.dayMillis := by
  have hoffset := h.offset
  have hsave := h.saves effect heffect
  rw [Calendar.dayMillis] at *
  cases clock <;> rw [Clock.offset] <;> omega

theorem Moderate.event_bounds (h : period.Moderate) {years : List Int} {event : Event}
    (hevent : period.Occurs years event) :
    ∃ year ∈ years, (∃ recurrence ∈ period.recurrences, recurrence.covers year = true) ∧
      (Calendar.daysFromEpoch year 1 1 - 16) * Calendar.dayMillis ≤ event.instant ∧
      event.instant ≤ (Calendar.daysFromEpoch (year + 1) 1 1 + 15) * Calendar.dayMillis := by
  obtain ⟨year, hyear, recurrence, hrecurrence, earlier, hearlier, hcovers, rfl⟩ := hevent
  have hdate := h.dates recurrence hrecurrence
  have hlocal := hdate.localMillis_bounds year
  have hoffset := h.offset_bounds recurrence.date.clock hearlier
  have hnewYear : Calendar.daysFromEpoch year 1 1 ≤
      Calendar.daysFromEpoch year recurrence.date.month 1 :=
    Calendar.monthStart_mono year (by decide) hdate.month.2 hdate.month.1
  have hdecember : Calendar.daysFromEpoch year recurrence.date.month 1 ≤
      Calendar.daysFromEpoch year 12 1 :=
    Calendar.monthStart_mono year hdate.month.1 (by decide) hdate.month.2
  have hnext := Calendar.daysFromEpoch_december year
  rw [Calendar.dayMillis] at *
  refine ⟨year, hyear, ⟨recurrence, hrecurrence, hcovers⟩, ?_, ?_⟩
  · dsimp only
    omega
  · dsimp only
    omega

theorem le_of_mem_years {year : Int}
    (h : year ∈ period.years lastYear cutover (some start)) :
    Calendar.yearOf start - 1 ≤ year := by
  unfold years at h
  split at h
  · cases h
  · rw [mem_yearRange_iff] at h
    exact (Int.le_max_right _ _).trans h.1

theorem lt_of_mem_yearsLeftOut {year : Int}
    (h : year ∈ period.yearsLeftOut lastYear cutover start) : year < Calendar.yearOf start - 1 :=
  of_decide_eq_true (List.mem_filter.mp h).2

/-- Where a recurrence covers the year before the start, that year is laid out first. -/
theorem exists_years_eq_cons {recurrence : Recurrence} (hmem : recurrence ∈ period.recurrences)
    (hcovers : recurrence.covers (Calendar.yearOf start - 1) = true)
    (hfirst : firstYear ≤ Calendar.yearOf start - 1)
    (hlast : Calendar.yearOf start - 1 ≤ lastYear)
    (hend : ∀ c ∈ cutover, Calendar.yearOf start - 1 ≤ c.year) :
    ∃ later, period.years lastYear cutover (some start) =
      (Calendar.yearOf start - 1) :: later := by
  simp only [Recurrence.covers, Bool.and_eq_true, decide_eq_true_eq] at hcovers
  unfold years
  split
  · next hnone =>
    rw [hnone] at hmem
    cases hmem
  · next r rest hsome =>
    obtain ⟨-, hfromYear⟩ : _ ∧ ∀ year ∈ (r :: rest).map (·.fromYear),
        (rest.map (·.fromYear)).foldl min r.fromYear ≤ year :=
      List.min?_eq_some_iff.mp List.min?_cons'
    obtain ⟨-, htoYear⟩ : _ ∧ ∀ year ∈ (r :: rest).map (·.toYear),
        year ≤ (rest.map (·.toYear)).foldl max r.toYear :=
      List.max?_eq_some_iff.mp List.max?_cons'
    have hfrom := hfromYear _ (List.mem_map_of_mem (hsome ▸ hmem))
    have hto := htoYear _ (List.mem_map_of_mem (hsome ▸ hmem))
    have hlow : max (max ((rest.map (·.fromYear)).foldl min r.fromYear) firstYear)
        (Calendar.yearOf start - 1) = Calendar.yearOf start - 1 := by omega
    dsimp only
    rw [hlow]
    refine ⟨_, yearRange_eq_cons ?_⟩
    cases cutover with
    | none =>
      dsimp only
      omega
    | some c =>
      have hbefore := hend c rfl
      dsimp only
      omega

/-- Whatever occurs in the years of a period is an event of it, read on a clock that shows one of
its effects. -/
theorem exists_mem_eventsIn {years : List Int} {year : Int} {recurrence : Recurrence}
    (hyear : year ∈ years) (hmem : recurrence ∈ period.recurrences)
    (hcovers : recurrence.covers year = true) :
    ∃ earlier ∈ period.effects,
      ⟨recurrence.date.localMillis year -
        recurrence.date.clock.offset period.standardOffset earlier.save, recurrence.effect⟩ ∈
        period.eventsIn years := by
  have hoccurs : (recurrence.date.localMillis year, recurrence) ∈
      years.flatMap period.occurrences :=
    List.mem_flatMap.mpr ⟨year, hyear, mem_occurrences_iff.mpr ⟨hmem, hcovers, rfl⟩⟩
  obtain ⟨before, after, hsplit⟩ := List.append_of_mem hoccurs
  have hevent : (⟨recurrence.date.localMillis year - recurrence.date.clock.offset
      period.standardOffset (savingsAfter period.initialSave before), recurrence.effect⟩ : Event) ∈
        period.eventsIn years := by
    rw [eventsIn, List.mem_mergeSort, hsplit, eventsAfter_append, eventsAfter]
    exact List.mem_append_right _ List.mem_cons_self
  have hsaved : savingsAfter period.initialSave before = period.initialSave ∨
      ∃ other ∈ years.flatMap period.occurrences,
        savingsAfter period.initialSave before = other.2.effect.save := by
    refine (savingsAfter_cases _ _).imp_right ?_
    rintro ⟨other, hother, hsame⟩
    exact ⟨other, hsplit ▸ List.mem_append_left _ hother, hsame⟩
  obtain ⟨earlier, hearlier, hsave⟩ := exists_effect_of_earlier exists_initialSave_eq hsaved
  exact ⟨earlier, hearlier, hsave ▸ hevent⟩

theorem exists_savingsThrough_eq (years : List Int) :
    ∃ effect ∈ period.effects, period.savingsThrough years = effect.save :=
  exists_effect_of_earlier exists_initialSave_eq (savingsAfter_cases _ _)

theorem Moderate.reading_le (h : period.Moderate) {effect : Effect}
    (heffect : effect ∈ period.effects) (o : Int × Recurrence) :
    period.reading effect.save o ≤ o.1 + 2 * Calendar.dayMillis := by
  have hoffset := (h.offset_bounds o.2.date.clock heffect).1
  rw [reading]
  omega

/-- The first occurrence of some years is the first of their first year. -/
theorem le_of_head?_occurrences {year : Int} {later : List Int} {recurrence : Recurrence}
    (hmem : recurrence ∈ period.recurrences) (hcovers : recurrence.covers year = true)
    {o : Int × Recurrence} (ho : o ∈ ((year :: later).flatMap period.occurrences).head?) :
    o.1 ≤ recurrence.date.localMillis year := by
  have hoccurs : (recurrence.date.localMillis year, recurrence) ∈ period.occurrences year :=
    mem_occurrences_iff.mpr ⟨hmem, hcovers, rfl⟩
  have hordered : (period.occurrences year).Pairwise fun a b => a.1 ≤ b.1 :=
    pairwise_key_mergeSort Prod.fst _
  rw [List.flatMap_cons] at ho
  cases hfirst : period.occurrences year with
  | nil =>
    rw [hfirst] at hoccurs
    cases hoccurs
  | cons first rest =>
    rw [hfirst] at ho hoccurs hordered
    cases ho
    rcases List.mem_cons.mp hoccurs with heq | hrest
    · rw [← heq]
    · exact (List.pairwise_cons.mp hordered).1 _ hrest

theorem Moderate.le_of_mem_eventsIn_leftOut (h : period.Moderate) {event : Event}
    (hevent : event ∈ period.eventsIn (period.yearsLeftOut lastYear cutover start)) :
    event.instant ≤
      (Calendar.daysFromEpoch (Calendar.yearOf start - 1) 1 1 + 15) * Calendar.dayMillis := by
  obtain ⟨year, hyear, -, -, hle⟩ := h.event_bounds
    (occurs_of_mem_eventsAfter exists_initialSave_eq (List.mem_mergeSort.mp hevent))
  have hnext := Calendar.newYear_mono (Int.add_one_le_of_lt (lt_of_mem_yearsLeftOut hyear))
  rw [Calendar.dayMillis] at *
  omega

/-- Two recurrences of a year that is laid out, the later three months or more after the earlier and
before the last month. -/
structure Alternates (period : Period) (lastYear : Int) (cutover : Option Cutover) (year : Int) :
    Prop where
  first : firstYear ≤ year
  last : year ≤ lastYear ∧ ∀ c ∈ cutover, year ≤ c.year
  months : ∃ earlier ∈ period.recurrences, ∃ later ∈ period.recurrences,
    earlier.covers year = true ∧ later.covers year = true ∧
      earlier.date.month + 3 ≤ later.date.month ∧ later.date.month ≤ 11

/-- The later of two recurrences of the year before the start comes by the start, and the earlier
one comes before it however it is read. -/
theorem Moderate.harmless_of_alternates (h : period.Moderate)
    (halternates : period.Alternates lastYear cutover (Calendar.yearOf start - 1))
    (hends : period.EndsAfter cutover start) : period.Harmless lastYear cutover start := by
  obtain ⟨earlier, hearlier, later, hlater, hcovers, hcovers', hmonths, hlast⟩ :=
    halternates.months
  obtain ⟨rest, hyears⟩ := exists_years_eq_cons hlater hcovers' halternates.first
    halternates.last.1 halternates.last.2
  have hdate := h.dates earlier hearlier
  have hdate' := h.dates later hlater
  have hapart := hdate.lt_of_months hdate' hmonths (Calendar.yearOf start - 1)
  have hmonth := hdate.month.1
  have hquarter := hdate'.lt_of_quarter (by omega) (Calendar.yearOf start - 1)
  have hnovember := hdate'.le_of_november hlast (Calendar.yearOf start - 1)
  have hstart := (Calendar.yearOf_bounds start).1
  rw [Int.sub_add_cancel] at hnovember
  -- No clock puts the later of the two before this limit, and none puts the earlier behind it.
  refine .anchored (later.date.localMillis (Calendar.yearOf start - 1) - 2 * Calendar.dayMillis)
    ⟨fun e he => ?_, fun o ho => Or.inr ?_⟩ ?_ hends
  · exact (h.le_of_mem_eventsIn_leftOut he).trans_lt hquarter
  · have hreading : ∀ effect ∈ period.effects, period.reading effect.save o <
        later.date.localMillis (Calendar.yearOf start - 1) - 2 * Calendar.dayMillis := by
      intro effect heffect
      have hle := h.reading_le heffect o
      have hfirst := le_of_head?_occurrences hearlier hcovers (hyears ▸ ho)
      omega
    obtain ⟨left, hleft, hsave⟩ :=
      period.exists_savingsThrough_eq (period.yearsLeftOut lastYear cutover start)
    obtain ⟨initial, hinitial, hsave'⟩ := period.exists_initialSave_eq
    rw [hsave, hsave']
    exact ⟨hreading left hleft, hreading initial hinitial⟩
  · obtain ⟨effect, heffect, hevent⟩ := exists_mem_eventsIn
      (hyears ▸ List.mem_cons_self : _ ∈ period.years lastYear cutover (some start))
      hlater hcovers'
    have hoffset := h.offset_bounds later.date.clock heffect
    refine ⟨_, hevent, ?_, ?_⟩
    · dsimp only
      omega
    · dsimp only
      omega

/-- No recurrence in three years from the one before the start, and those before end with the effect
and the savings with which a period begins. -/
structure Lapses (period : Period) (lastYear : Int) (cutover : Option Cutover) (start : Int) :
    Prop where
  gap : ∀ recurrence ∈ period.recurrences, ∀ year, Calendar.yearOf start - 1 ≤ year →
    year ≤ Calendar.yearOf start + 1 → recurrence.covers year = false
  last : ∀ e ∈ (period.eventsIn (period.yearsLeftOut lastYear cutover start)).getLast?,
    e.effect = period.defaultEffect
  savings : period.savingsThrough (period.yearsLeftOut lastYear cutover start) =
    period.initialSave

theorem Moderate.harmless_of_lapses (h : period.Moderate)
    (hlapses : period.Lapses lastYear cutover start) (hends : period.EndsAfter cutover start) :
    period.Harmless lastYear cutover start := by
  obtain ⟨hstart, hstart'⟩ := Calendar.yearOf_bounds start
  refine .lapsed (fun e he => ?_) (fun e he => ?_) hlapses.last hlapses.savings hends
  · have hle := h.le_of_mem_eventsIn_leftOut he
    have hnext := Calendar.newYear_add_le (Calendar.yearOf start - 1)
    rw [Int.sub_add_cancel] at hnext
    rw [Calendar.dayMillis] at *
    omega
  · obtain ⟨year, hyear, ⟨recurrence, hmem, hcovers⟩, hle, -⟩ :=
      h.event_bounds (occurs_of_mem_events he)
    have hlater : Calendar.yearOf start + 1 < year := by
      by_contra hearlier
      have hnone := hlapses.gap recurrence hmem year (le_of_mem_years hyear) (by omega)
      rw [hnone] at hcovers
      cases hcovers
    have hnext := Calendar.newYear_mono (Int.add_one_le_of_lt hlater)
    have hyear := Calendar.newYear_add_le (Calendar.yearOf start + 1)
    rw [Calendar.dayMillis] at *
    omega

/-- Recurrences that begin the year before the start or later. -/
theorem harmless_of_fromYear
    (h : ∀ recurrence ∈ period.recurrences, Calendar.yearOf start - 1 ≤ recurrence.fromYear) :
    period.Harmless lastYear cutover start := by
  refine .vacant (List.flatMap_eq_nil_iff.mpr fun year hyear => ?_)
  rw [List.eq_nil_iff_forall_not_mem]
  rintro ⟨localTime, recurrence⟩ hoccurrence
  obtain ⟨hmem, hcovers, -⟩ := mem_occurrences_iff.mp hoccurrence
  simp only [Recurrence.covers, Bool.and_eq_true, decide_eq_true_eq] at hcovers
  have hfrom := h recurrence hmem
  have hlt := lt_of_mem_yearsLeftOut hyear
  omega

end Period

/-! ## The whole layout -/

namespace Timeline

/-- Events laid out from the first year of rules on, wherever a period starts. -/
def unshortened (t : Timeline) : Expansion :=
  fun period cutover _ => period.events t.lastYear cutover none

theorem inOrder_unshortened (t : Timeline) : InOrder t.unshortened :=
  fun period cutover _ => pairwise_events period t.lastYear cutover none

/-- The years that a span leaves out do not matter. -/
def Harmless (t : Timeline) (span : Span) : Prop :=
  ∀ start ∈ span.start, span.period.Harmless t.lastYear span.cutover start

theorem Harmless.addsAlike {t : Timeline} {span : Span} (h : t.Harmless span)
    (hevents : span.events = t.expansion span.period span.cutover span.start) :
    span.AddsAlike (t.unshortened span.period span.cutover span.start) := by
  obtain ⟨period, cutover, start, events⟩ := span
  obtain rfl : events = t.expansion period cutover start := hevents
  cases start with
  | none => exact ⟨fun _ _ => rfl, rfl⟩
  | some s =>
    have hharmless := h s rfl
    have hfinish : ∀ c ∈ cutover,
        period.cutoverInstant c (t.unshortened period cutover (some s)) (some s) =
          period.cutoverInstant c (t.expansion period cutover (some s)) (some s) := by
      rintro c ⟨⟩
      exact hharmless.cutoverInstant_eq
    refine ⟨hfinish, ?_⟩
    rw [Option.map_congr hfinish]
    exact hharmless.agreeFrom.added_eq cutover _

/-- The history is that of the whole layout, and where something has occurred by the start of a
period, the last of it gives the effect with which the period opens. -/
structure Unaffected (t : Timeline) (zone : String) : Prop where
  history : t.toHistory zone = t.toHistoryBy t.unshortened zone
  opening : ∀ span ∈ t.spans t.expansion, ∀ start ∈ span.start, ∀ effect,
    Period.lastEffect? (t.unshortened span.period span.cutover span.start) start = some effect →
      span.opening = effect

theorem unaffected_of_harmless {t : Timeline} (h : ∀ span ∈ t.spans t.expansion, t.Harmless span)
    (zone : String) : t.Unaffected zone where
  history := toHistoryBy_congr
    (fun span hspan => (h span hspan).addsAlike (events_of_mem_spansFrom hspan)) zone
  opening span hspan start hstart effect heffect := by
    rw [Span.opening, events_of_mem_spansFrom hspan, hstart]
    exact (h span hspan start hstart).opening_eq heffect

/-- Laying out from the year before the start gives the history of the whole layout exactly when at
every instant the latest event that is laid out, or the default, shows what the latest of all events
does. This is so, and every period opens as its recurrences have left it by its start, if the years
left out are harmless in each period. They are in a period whose recurrences begin the year before
its start or later. With moderate clocks and dates, they are if two of its recurrences fall in that
year, three months apart and before December; and if none does in three years, and those before have
ended as a period begins. -/
theorem toHistory_eq_unshortened_iff (t : Timeline) (zone : String) :
    (t.toHistory zone = t.toHistoryBy t.unshortened zone ↔
      ∀ instant, ∃ span whole, lastBegun (t.spans t.expansion) instant = some span ∧
        lastBegun (t.spans t.unshortened) instant = some whole ∧
        span.period.standardOffset + (span.latest instant).save =
          whole.period.standardOffset + (whole.latest instant).save ∧
        (span.latest instant).name = (whole.latest instant).name ∧
        ((t.toHistory zone).ChangesAt instant →
          span.period.standardOffset = whole.period.standardOffset)) ∧
    ((∀ span ∈ t.spans t.expansion, t.Harmless span) → t.Unaffected zone) ∧
    ((∀ span ∈ t.spans t.expansion, ∀ start ∈ span.start,
        (∀ recurrence ∈ span.period.recurrences,
          Calendar.yearOf start - 1 ≤ recurrence.fromYear) ∨
        span.period.Moderate ∧ span.period.EndsAfter span.cutover start ∧
          (span.period.Alternates t.lastYear span.cutover (Calendar.yearOf start - 1) ∨
            span.period.Lapses t.lastYear span.cutover start)) →
      t.Unaffected zone) := by
  have hiff := toHistoryBy_eq_iff t.inOrder_expansion t.inOrder_unshortened t zone
    (initialState_congr t.expansion t.unshortened t.periods)
  refine ⟨hiff.trans (forall_congr' fun instant => exists₂_congr fun span whole => ?_),
    fun hharmless => unaffected_of_harmless hharmless zone, fun hyears => ?_⟩
  · refine and_congr_right fun hspan => and_congr_right fun hwhole => ?_
    rw [stateAt_look_eq t.inOrder_expansion (fun _ _ _ h => events_eq_nil _ _ _ h) hspan,
      stateAt_look_eq t.inOrder_unshortened (fun _ _ _ h => events_eq_nil _ _ _ h) hwhole,
      Prod.mk.injEq, and_assoc]
    rfl
  · refine unaffected_of_harmless (fun span hspan start hstart => ?_) zone
    rcases hyears span hspan start hstart with hfrom | ⟨hmoderate, hends, halternates | hlapses⟩
    · exact Period.harmless_of_fromYear hfrom
    · exact hmoderate.harmless_of_alternates halternates hends
    · exact hmoderate.harmless_of_lapses hlapses hends

/-- Summer time from 1967 to 2006, on the last Sundays of April and October. -/
def summers : Period :=
  { recurrences := [⟨⟨3600000, "XDT"⟩, 1967, 2006, ⟨4, -1, 7, false, 7200000, .wall⟩⟩,
      ⟨⟨0, "XST"⟩, 1967, 2006, ⟨10, -1, 7, false, 7200000, .wall⟩⟩] }

/-- Summer time from 2015 on, after standard time since 1990. -/
def lateSummers : Period :=
  { recurrences := [⟨⟨0, "YST"⟩, 1990, 1990, ⟨1, 1, 0, false, 0, .wall⟩⟩,
      ⟨⟨3600000, "YDT"⟩, 2015, 2015, ⟨4, 1, 0, false, 0, .wall⟩⟩] }

/-- The two one after the other from 1972 and from 2008 on, and from 2020 on a period that has not
had recurrences before. -/
def resumed : Timeline where
  lastYear := defaultLastYear
  closed := [({ fixed := some ⟨"LMT", 0⟩ }, ⟨1972, ⟨1, 1, 0, false, 0, .universal⟩⟩),
    (summers, ⟨2008, ⟨1, 1, 0, false, 0, .universal⟩⟩),
    (lateSummers, ⟨2020, ⟨1, 1, 0, false, 0, .universal⟩⟩)]
  current :=
    { recurrences := [⟨⟨3600000, "ZDT"⟩, 2019, 2050, ⟨4, 1, 0, false, 0, .wall⟩⟩,
        ⟨⟨0, "ZST"⟩, 2019, 2050, ⟨10, 1, 0, false, 0, .wall⟩⟩] }

theorem spans_resumed (expand : Expansion) :
    (resumed.spans expand).map (fun span => (span.period, span.cutover, span.start)) =
      [({ fixed := some ⟨"LMT", 0⟩ }, some ⟨1972, ⟨1, 1, 0, false, 0, .universal⟩⟩, none),
        (summers, some ⟨2008, ⟨1, 1, 0, false, 0, .universal⟩⟩, some 63072000000),
        (lateSummers, some ⟨2020, ⟨1, 1, 0, false, 0, .universal⟩⟩, some 1199145600000),
        (resumed.current, none, some 1577836800000)] := rfl

/-- The second period leaves out four years of summer time and the third those since 1990. -/
theorem resumed_unaffected :
    summers.yearsLeftOut 2100 (some ⟨2008, ⟨1, 1, 0, false, 0, .universal⟩⟩) 63072000000 =
        [1967, 1968, 1969, 1970] ∧
      resumed.Unaffected "Test/Zone" := by
  have hsummers : summers.Alternates 2100 (some ⟨2008, ⟨1, 1, 0, false, 0, .universal⟩⟩)
      (Calendar.yearOf 63072000000 - 1) :=
    ⟨by decide, by decide, by decide⟩
  have hleft : lateSummers.eventsIn (lateSummers.yearsLeftOut 2100
      (some ⟨2020, ⟨1, 1, 0, false, 0, .universal⟩⟩) 1199145600000) =
        [⟨631152000000, ⟨0, "YST"⟩⟩] := by
    decide +kernel
  have hlate : lateSummers.Lapses 2100 (some ⟨2020, ⟨1, 1, 0, false, 0, .universal⟩⟩)
      1199145600000 := by
    have hyear : Calendar.yearOf 1199145600000 = 2008 := by decide
    refine ⟨?_, ?_, by decide +kernel⟩
    · rw [hyear]
      simp only [lateSummers, List.forall_mem_cons, List.not_mem_nil, false_imp_iff, implies_true,
        and_true, Recurrence.covers, Bool.and_eq_false_iff, decide_eq_false_iff_not]
      exact ⟨by omega, by omega⟩
    · rw [hleft]
      rintro e ⟨⟩
      rfl
  refine ⟨by decide, (toHistory_eq_unshortened_iff resumed "Test/Zone").2.2 ?_⟩
  have hplaces : ∀ place ∈ (resumed.spans resumed.expansion).map
      (fun span => (span.period, span.cutover, span.start)), ∀ start ∈ place.2.2,
      (∀ recurrence ∈ place.1.recurrences, Calendar.yearOf start - 1 ≤ recurrence.fromYear) ∨
        place.1.Moderate ∧ place.1.EndsAfter place.2.1 start ∧
          (place.1.Alternates 2100 place.2.1 (Calendar.yearOf start - 1) ∨
            place.1.Lapses 2100 place.2.1 start) := by
    rw [spans_resumed, List.forall_mem_cons, List.forall_mem_cons, List.forall_mem_cons,
      List.forall_mem_singleton]
    refine ⟨?_, ?_, ?_, ?_⟩
    · rintro start ⟨⟩
    · rintro start ⟨⟩
      refine Or.inr ⟨⟨by decide, by decide, by decide⟩, ?_, Or.inl hsummers⟩
      rintro cutover ⟨⟩ ⟨⟩
    · rintro start ⟨⟩
      refine Or.inr ⟨⟨by decide, by decide, by decide⟩, ?_, Or.inr hlate⟩
      rintro cutover ⟨⟩ ⟨⟩
    · rintro start ⟨⟩
      exact Or.inl (by decide)
  exact List.forall_mem_map.mp hplaces

/-- A zone whose second period starts in 1972, in a gap of its rules: the one to summer time is of
1970, and the one back of 1973. -/
def gap : Timeline :=
  build defaultLastYear
    [.setFixedSavings ⟨"LMT", 0⟩,
      .addCutover ⟨1972, ⟨1, 1, 0, false, 0, .universal⟩⟩,
      .addRecurrence ⟨⟨3600000, "XDT"⟩, 1970, 1970, ⟨6, 1, 0, false, 0, .wall⟩⟩,
      .addRecurrence ⟨⟨0, "XST"⟩, 1973, 1973, ⟨6, 1, 0, false, 0, .wall⟩⟩]

/-- Laid out from 1971 on, the second period opens in standard time and not in the summer time that
1970 left in force. -/
theorem gap_toHistory_ne :
    gap.toHistory "Test/Zone" ≠ gap.toHistoryBy gap.unshortened "Test/Zone" := by
  intro heq
  have hlaid : Period.eventsAfter 0 0
      ((gap.current.years gap.lastYear none none).flatMap gap.current.occurrences) =
      [⟨13046400000, ⟨3600000, "XDT"⟩⟩, ⟨107737200000, ⟨0, "XST"⟩⟩] := by
    decide +kernel
  have hevents : gap.unshortened gap.current none (some 63072000000) =
      [⟨13046400000, ⟨3600000, "XDT"⟩⟩, ⟨107737200000, ⟨0, "XST"⟩⟩] := by
    refine (congrArg (List.mergeSort · _) hlaid).trans (List.mergeSort_of_pairwise ?_)
    decide
  have hspan : lastBegun (gap.spans gap.unshortened) 63072000000 =
      some ⟨gap.current, none, some 63072000000,
        gap.unshortened gap.current none (some 63072000000)⟩ := rfl
  rw [hevents] at hspan
  have hwhole := shownAt_toHistoryBy gap.inOrder_unshortened gap "Test/Zone" hspan
  have hshort : (gap.toHistory "Test/Zone").shownAt 63072000000 = (0, "XST") := by
    decide +kernel
  rw [← heq, hshort] at hwhole
  exact absurd hwhole (by decide)

end Timeline

end ZoneHistory
