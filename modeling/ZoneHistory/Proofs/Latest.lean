import ZoneHistory.Proofs.Layout

/-!
# The latest event of a period

A period opens with the effect of its latest event by then, and with a default where there is none.
So from its start on it has the effect of its latest event, whether that comes before the start or
after.
-/
namespace ZoneHistory

theorem filter_le_eq_append {events : List Event} {start instant : Int}
    (ordered : events.Pairwise fun a b => a.instant ≤ b.instant) (h : start ≤ instant) :
    events.filter (fun e => e.instant ≤ instant) =
      events.filter (fun e => e.instant ≤ start) ++
        events.filter fun e => start < e.instant && e.instant ≤ instant := by
  have hsplit := filter_append_filter_not ordered (closed_le start)
  have hearlier : (events.filter fun e => e.instant ≤ start).filter
      (fun e => e.instant ≤ instant) = events.filter fun e => e.instant ≤ start := by
    rw [List.filter_filter]
    refine List.filter_congr fun e _ => ?_
    simp only [← Bool.decide_and, decide_eq_decide]
    omega
  have hlater : (events.filter fun e => !decide (e.instant ≤ start)).filter
      (fun e => e.instant ≤ instant) =
      events.filter fun e => start < e.instant && e.instant ≤ instant := by
    rw [List.filter_filter]
    refine List.filter_congr fun e _ => ?_
    simp only [← decide_not, ← Bool.decide_and, decide_eq_decide]
    omega
  calc events.filter (fun e => e.instant ≤ instant)
      = (events.filter (fun e => e.instant ≤ start) ++
          events.filter fun e => !decide (e.instant ≤ start)).filter
            fun e => e.instant ≤ instant := by rw [hsplit]
    _ = _ := by rw [List.filter_append, hearlier, hlater]

theorem Period.opening_eq {period : Period} {events : List Event} (start : Option Int)
    (h : period.recurrences = [] → events = []) :
    period.opening events start =
      (start.bind (lastEffect? events)).getD period.defaultEffect := by
  unfold opening
  split
  · next fixed hfixed hnone =>
    rw [h hnone, defaultEffect, hnone, hfixed]
    cases start <;> rfl
  · rfl

namespace Span

/-- The effect of the latest event by an instant, or else the default. -/
def latest (span : Span) (instant : Int) : Effect :=
  (Period.lastEffect? span.events instant).getD span.period.defaultEffect

/-- From its start on, a period has the effect of its latest event, whether that comes before the
start or after. -/
theorem effectAt_eq_latest {span : Span} {instant : Int}
    (ordered : span.events.Pairwise fun a b => a.instant ≤ b.instant)
    (h : span.period.recurrences = [] → span.events = [])
    (hbegun : span.hasBegun instant = true) : span.effectAt instant = span.latest instant := by
  rw [effectAt, latest, Period.lastEffect?, takeWhile_eq_filter ordered (closed_le _), opening,
    Period.opening_eq _ h, eventsBy]
  cases hstart : span.start with
  | none =>
    simp only [Option.all_none, Bool.true_and, Option.bind_none, Option.getD_none]
    cases (span.events.filter fun e => decide (e.instant ≤ instant)).getLast? <;> rfl
  | some start =>
    have hle : start ≤ instant := by simpa [hasBegun, hstart] using hbegun
    rw [filter_le_eq_append ordered hle, List.getLast?_append, Option.bind_some,
      Period.lastEffect?, takeWhile_eq_filter ordered (closed_le _)]
    simp only [Option.all_some]
    cases (span.events.filter fun e =>
      decide (start < e.instant) && decide (e.instant ≤ instant)).getLast? <;> rfl

end Span

theorem mem_of_lastBegun {spans : List Span} {instant : Int} {span : Span}
    (h : lastBegun spans instant = some span) :
    span ∈ spans ∧ span.hasBegun instant = true :=
  List.mem_filter.mp (List.mem_of_getLast? h)

namespace Timeline

theorem events_eq_nil {period : Period} (lastYear : Int) (cutover : Option Cutover)
    (start : Option Int) (h : period.recurrences = []) :
    period.events lastYear cutover start = [] := by
  simp [Period.events, Period.years, h, Period.eventsIn, Period.eventsAfter]

theorem stateAt_look_eq {t : Timeline} {expand : Expansion} (ordered : InOrder expand)
    (hnone : ∀ period cutover start, period.recurrences = [] → expand period cutover start = [])
    {instant : Int} {span : Span} (h : lastBegun (t.spans expand) instant = some span) :
    (span.stateAt instant).look =
      (span.period.standardOffset + (span.latest instant).save, (span.latest instant).name) := by
  obtain ⟨hmem, hbegun⟩ := mem_of_lastBegun h
  have hevents := events_of_mem_spansFrom hmem
  have hlatest : span.effectAt instant = span.latest instant := by
    refine Span.effectAt_eq_latest ?_ (fun hr => ?_) hbegun
    · rw [hevents]
      exact ordered _ _ _
    · rw [hevents]
      exact hnone _ _ _ hr
  rw [← hlatest]
  rfl

end Timeline

end ZoneHistory
