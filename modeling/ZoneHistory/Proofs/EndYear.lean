import ZoneHistory.Proofs.Cutover
import ZoneHistory.Proofs.LastYear

/-!
# Laying out to the year of the end

The recurrences of a period are laid out to the year of its end, although an occurrence of the next
year can come before the end: the year is that of the local date, and clocks, times of day and
weekdays move both across the turn of the year. Nothing is lost in a period that has started and
ended, by any clock, before its first occurrence of a later year.
-/
namespace ZoneHistory

namespace Period

variable {period : Period} {cutover : Cutover} {lastYear : Int} {start : Option Int}

/-- The years behind that of the end, in which the recurrences would go on. -/
def yearsBeyond (period : Period) (lastYear : Int) (cutover : Cutover) (start : Option Int) :
    List Int :=
  (period.years lastYear none start).filter fun year => cutover.year < year

/-- The events that a period would have in these years. -/
def eventsBeyond (period : Period) (lastYear : Int) (cutover : Cutover) (start : Option Int) :
    List Event :=
  period.eventsFollowing (period.years lastYear (some cutover) start)
    (period.yearsBeyond lastYear cutover start)

theorem yearRange_eq_append (low high year : Int) :
    yearRange low high =
      yearRange low (min high year) ++ (yearRange low high).filter fun y => year < y := by
  obtain ⟨extra, heq, hextra⟩ := exists_yearRange_eq_append low (Int.min_le_left high year)
  have hkept : (yearRange low (min high year)).filter (fun y => year < y) = [] := by
    rw [List.filter_eq_nil_iff]
    intro y hy
    rw [mem_yearRange_iff] at hy
    simp only [decide_eq_true_eq]
    omega
  have hall : extra.filter (fun y => year < y) = extra := by
    rw [List.filter_eq_self]
    intro y hy
    have hbounds := hextra y hy
    exact decide_eq_true (by omega)
  rw [heq, List.filter_append, hkept, hall, List.nil_append]

theorem years_none_eq (period : Period) (lastYear : Int) (cutover : Cutover)
    (start : Option Int) :
    period.years lastYear none start =
      period.years lastYear (some cutover) start ++ period.yearsBeyond lastYear cutover start := by
  rw [yearsBeyond]
  unfold years
  split
  · rfl
  · exact yearRange_eq_append _ _ cutover.year

/-- Up to a limit that no later year reaches, the events are those to the year of the end. -/
theorem filter_events_none {limit : Int}
    (h : ∀ e ∈ period.eventsBeyond lastYear cutover start, limit ≤ e.instant) :
    (period.events lastYear none start).filter (fun e => e.instant < limit) =
      (period.events lastYear (some cutover) start).filter fun e => e.instant < limit := by
  rw [events, events, period.years_none_eq lastYear cutover start]
  refine filter_eventsIn_append fun e he => ?_
  simpa using h e he

end Period

/-- A period has started and ended by a limit, also on the clock without savings. -/
structure Span.SettledBy (span : Span) (cutover : Cutover) (limit : Int) : Prop where
  started : ∀ s ∈ span.start, s < limit
  ended : span.period.cutoverInstant cutover span.events span.start ≤ limit
  read : cutover.date.clock = .wall → span.period.standardReading cutover ≤ limit

section Limit

variable {events other : List Event} {limit : Int}

theorem filter_lt_congr
    (h : other.filter (fun e => e.instant < limit) = events.filter fun e => e.instant < limit)
    {instant : Int} (hle : instant ≤ limit) :
    other.filter (fun e => e.instant < instant) = events.filter fun e => e.instant < instant := by
  refine filter_congr_of_imp (fun e he => ?_) h
  simp only [decide_eq_true_eq] at he ⊢
  omega

variable {period : Period} {cutover : Cutover} {start : Option Int}
  (ordered : events.Pairwise fun a b => a.instant ≤ b.instant)
  (ordered' : other.Pairwise fun a b => a.instant ≤ b.instant)
  (h : other.filter (fun e => e.instant < limit) = events.filter fun e => e.instant < limit)
  (hsettled : Span.SettledBy ⟨period, some cutover, start, events⟩ cutover limit)

include ordered ordered' h hsettled

theorem opening_eq_of_settledBy :
    period.opening other start = period.opening events start := by
  cases start with
  | none => rfl
  | some s => exact period.opening_congr ordered ordered' h (hsettled.started s rfl)

/-- A period that has settled by a limit ends when its events before the limit say. -/
theorem cutoverInstant_eq_of_settledBy :
    period.cutoverInstant cutover other start = period.cutoverInstant cutover events start := by
  cases hclock : cutover.date.clock with
  | universal => simp only [Period.cutoverInstant, hclock]
  | standard => simp only [Period.cutoverInstant, hclock]
  | wall =>
    rw [Period.cutoverInstant_eq ordered hclock, Period.cutoverInstant_eq ordered' hclock,
      Period.savingsBefore, Period.savingsBefore, filter_lt_congr h (hsettled.read hclock),
      opening_eq_of_settledBy ordered ordered' h hsettled]

/-- A period that has settled by a limit adds what its events before the limit say. -/
theorem added_eq_of_settledBy :
    Span.added ⟨period, some cutover, start, other⟩
        (some (period.cutoverInstant cutover other start)) =
      Span.added ⟨period, some cutover, start, events⟩
        (some (period.cutoverInstant cutover events start)) := by
  have hopened : Span.opened ⟨period, some cutover, start, other⟩ =
      Span.opened ⟨period, some cutover, start, events⟩ := by
    simp only [Span.opened, Span.opening, opening_eq_of_settledBy ordered ordered' h hsettled]
  have hbefore : ∀ all : List Event, (all.Pairwise fun a b => a.instant ≤ b.instant) → ∀ finish,
      Period.inForce all start (some finish) =
        (all.filter fun e => e.instant < finish).filter fun e =>
          start.all fun s => s < e.instant := by
    intro all hall finish
    rw [Span.inForce_eq]
    dsimp only
    rw [takeWhile_eq_filter (hall.filter _) (closed_lt finish), List.filter_filter,
      List.filter_filter]
    exact List.filter_congr fun e _ => Bool.and_comm _ _
  rw [Span.added, Span.added, hopened,
    cutoverInstant_eq_of_settledBy ordered ordered' h hsettled, hbefore other ordered',
    hbefore events ordered, filter_lt_congr h hsettled.ended]

end Limit

namespace Timeline

/-- Events laid out beyond the year of the end of a period, to the last year of its recurrences and
of the timeline. -/
def unended (t : Timeline) : Expansion :=
  fun period _ start => period.events t.lastYear none start

theorem inOrder_unended (t : Timeline) : InOrder t.unended :=
  fun period _ start => pairwise_events period t.lastYear none start

/-- A span that has settled before it would have an event of a later year. -/
def Complete (t : Timeline) (span : Span) : Prop :=
  ∀ cutover ∈ span.cutover, ∃ limit, span.SettledBy cutover limit ∧
    ∀ e ∈ span.period.eventsBeyond t.lastYear cutover span.start, limit ≤ e.instant

theorem Complete.addsAlike {t : Timeline} {span : Span} (h : t.Complete span)
    (hevents : span.events = t.expansion span.period span.cutover span.start) :
    span.AddsAlike (t.unended span.period span.cutover span.start) := by
  obtain ⟨period, cutover, start, events⟩ := span
  obtain rfl : events = t.expansion period cutover start := hevents
  cases cutover with
  | none => exact ⟨fun _ hnone => absurd hnone.symm (Option.some_ne_none _), rfl⟩
  | some c =>
    obtain ⟨limit, hsettled, hbeyond⟩ := h c rfl
    have ordered := pairwise_events period t.lastYear (some c) start
    have ordered' := pairwise_events period t.lastYear none start
    have hevents := Period.filter_events_none hbeyond
    refine ⟨?_, added_eq_of_settledBy ordered ordered' hevents hsettled⟩
    rintro _ ⟨⟩
    exact cutoverInstant_eq_of_settledBy ordered ordered' hevents hsettled

theorem toHistory_eq_unended_of_complete {t : Timeline}
    (h : ∀ span ∈ t.spans t.expansion, t.Complete span) (zone : String) :
    t.toHistory zone = t.toHistoryBy t.unended zone :=
  toHistoryBy_congr (fun span hspan => (h span hspan).addsAlike (events_of_mem_spansFrom hspan))
    zone

/-- With ordinary dates and clocks, all events of later years stand behind the last November. -/
theorem complete_of_ordinary {t : Timeline} {span : Span} (hperiod : span.period.Ordinary)
    (hsettled : ∀ cutover ∈ span.cutover,
      span.SettledBy cutover (Calendar.decemberStart cutover.year)) : t.Complete span := by
  intro cutover hcutover
  refine ⟨_, hsettled cutover hcutover, fun e he => ?_⟩
  refine hperiod.decemberStart_le_event (fun year hyear => ?_)
    (Period.occurs_of_mem_eventsFollowing he)
  exact of_decide_eq_true (List.mem_filter.mp hyear).2

/-- Laying out to the year of the end changes nothing exactly if at every instant the periods that
have started last show the same with the occurrences of the years behind it. This is so if every
period has started and ended before its first event of such a year; and so, with ordinary dates and
clocks, if it has before the last month of the year of its end. -/
theorem toHistory_eq_unended_iff (t : Timeline) (zone : String) :
    (t.toHistory zone = t.toHistoryBy t.unended zone ↔
      ∀ instant, ∃ span whole, lastBegun (t.spans t.expansion) instant = some span ∧
        lastBegun (t.spans t.unended) instant = some whole ∧
        span.period.standardOffset + (span.effectAt instant).save =
          whole.period.standardOffset + (whole.effectAt instant).save ∧
        (span.effectAt instant).name = (whole.effectAt instant).name ∧
        ((t.toHistory zone).ChangesAt instant →
          span.period.standardOffset = whole.period.standardOffset)) ∧
    ((∀ span ∈ t.spans t.expansion, t.Complete span) →
      t.toHistory zone = t.toHistoryBy t.unended zone) ∧
    ((∀ span ∈ t.spans t.expansion, span.period.Ordinary ∧ ∀ cutover ∈ span.cutover,
        span.SettledBy cutover (Calendar.decemberStart cutover.year)) →
      t.toHistory zone = t.toHistoryBy t.unended zone) := by
  have hiff := toHistoryBy_eq_iff t.inOrder_expansion t.inOrder_unended t zone
    (initialState_congr t.expansion t.unended t.periods)
  refine ⟨hiff.trans (forall_congr' fun instant => exists₂_congr fun span whole => ?_),
    fun hcomplete => toHistory_eq_unended_of_complete hcomplete zone, fun hordinary => ?_⟩
  · refine and_congr_right fun _ => and_congr_right fun _ => ?_
    change (_, _) = (_, _) ∧ _ ↔ _
    rw [Prod.mk.injEq, and_assoc]
    rfl
  · refine toHistory_eq_unended_of_complete (fun span hspan => ?_) zone
    exact complete_of_ordinary (hordinary span hspan).1 (hordinary span hspan).2

/-- Ten hours ahead. Summer time begins with the year 2001 of the local clock, and the period ends
ten hours later in 2000 of universal time. -/
def localNewYear : Timeline :=
  build defaultLastYear
    [.setStandardOffset 36000000, .setFixedSavings ⟨"XST", 0⟩,
      .addRecurrence ⟨⟨3600000, "XDT"⟩, 2001, 2001, ⟨1, 1, 0, false, 0, .wall⟩⟩,
      .addCutover ⟨2000, ⟨12, 31, 0, false, 72000000, .universal⟩⟩,
      .setStandardOffset 36000000, .setFixedSavings ⟨"YST", 0⟩]

/-- The period ends without its summer time. -/
theorem localNewYear_toHistory_ne :
    (localNewYear.toHistory "Test/Zone").transitions.toList.map (·.instant) = [978292800000] ∧
      (localNewYear.toHistoryBy localNewYear.unended "Test/Zone").transitions.toList.map
        (·.instant) = [978271200000, 978292800000] ∧
      localNewYear.toHistory "Test/Zone" ≠
        localNewYear.toHistoryBy localNewYear.unended "Test/Zone" := by
  refine ⟨?_, ?_, ?_⟩ <;> decide +kernel

end Timeline

end ZoneHistory
