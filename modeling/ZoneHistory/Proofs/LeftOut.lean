import ZoneHistory.Proofs.Cutover
import ZoneHistory.Proofs.Latest

/-!
# Years that a period leaves out

A period that starts leaves out the years before the one before its start, and reads the first
occurrence that it lays out as if nothing had been before. This is harmless if nothing occurs in the
years left out; if their events and the first reading are behind an event that comes by the start;
and if nothing comes by the start, but the years left out end as a period begins. Then the period
opens with the same effect, has the same events after its start and ends at the same instant.
-/
namespace ZoneHistory

namespace Period

variable {period : Period} {lastYear : Int} {cutover : Option Cutover} {start limit : Int}

/-! ## The years left out -/

/-- The years that a period which starts leaves out. -/
def yearsLeftOut (period : Period) (lastYear : Int) (cutover : Option Cutover) (start : Int) :
    List Int :=
  (period.years lastYear cutover none).filter fun year => year < Calendar.yearOf start - 1

theorem yearRange_append {low middle high : Int} (hlow : low ≤ middle) (hhigh : middle ≤ high + 1) :
    yearRange low high = yearRange low (middle - 1) ++ yearRange middle high := by
  have hlength : (high + 1 - low).toNat =
      (middle - 1 + 1 - low).toNat + (high + 1 - middle).toNat := by omega
  rw [yearRange, hlength, List.range_add, List.map_append, List.map_map]
  refine congrArg (_ ++ ·) (List.map_congr_left fun i _ => ?_)
  simp only [Function.comp_apply]
  omega

theorem yearRange_eq_cons {low high : Int} (h : low ≤ high) :
    yearRange low high = low :: yearRange (low + 1) high := by
  have hsingle : yearRange low (low + 1 - 1) = [low] := by
    rw [yearRange, show (low + 1 - 1 + 1 - low).toNat = 1 by omega]
    simp
  have hsplit : yearRange low high = yearRange low (low + 1 - 1) ++ yearRange (low + 1) high :=
    yearRange_append (by omega) (by omega)
  rw [hsplit, hsingle, List.singleton_append]

theorem yearRange_eq_filter_append (low high year : Int) :
    yearRange low high =
      (yearRange low high).filter (fun y => y < year) ++ yearRange (max low year) high := by
  have hearlier : ∀ last, last < max low year →
      (yearRange low last).filter (fun y => y < year) = yearRange low last := by
    intro last hlast
    refine List.filter_eq_self.mpr fun y hy => decide_eq_true ?_
    rw [mem_yearRange_iff] at hy
    omega
  by_cases h : max low year ≤ high + 1
  · have hlater : (yearRange (max low year) high).filter (fun y => y < year) = [] := by
      refine List.filter_eq_nil_iff.mpr fun y hy => ?_
      rw [mem_yearRange_iff] at hy
      simp only [decide_eq_true_eq]
      omega
    rw [yearRange_append (Int.le_max_left low year) h, List.filter_append, hearlier _ (by omega),
      hlater, List.append_nil]
  · have hnone : yearRange (max low year) high = [] := by
      rw [List.eq_nil_iff_forall_not_mem]
      intro y hy
      rw [mem_yearRange_iff] at hy
      omega
    rw [hnone, hearlier high (by omega), List.append_nil]

theorem years_eq_leftOut_append (period : Period) (lastYear : Int) (cutover : Option Cutover)
    (start : Int) :
    period.years lastYear cutover none =
      period.yearsLeftOut lastYear cutover start ++
        period.years lastYear cutover (some start) := by
  rw [yearsLeftOut]
  unfold years
  split
  · rfl
  · exact yearRange_eq_filter_append _ _ _

/-- The running savings after some years. -/
def savingsThrough (period : Period) (years : List Int) : Int :=
  savingsAfter period.initialSave (years.flatMap period.occurrences)

/-- When an occurrence comes, read with the given savings before it. -/
def reading (period : Period) (save : Int) (o : Int × Recurrence) : Int :=
  o.1 - o.2.date.clock.offset period.standardOffset save

theorem eventsAfter_cons (period : Period) (save : Int) (first : Int × Recurrence)
    (rest : List (Int × Recurrence)) :
    eventsAfter period.standardOffset save (first :: rest) =
      ⟨period.reading save first, first.2.effect⟩ ::
        eventsAfter period.standardOffset first.2.effect.save rest := rfl

/-- Before a limit come the events of the years left out. So does the first occurrence that is laid
out, if the savings that those years leave make a difference to it. -/
structure ResumesBy (period : Period) (lastYear : Int) (cutover : Option Cutover)
    (start limit : Int) : Prop where
  before : ∀ e ∈ period.eventsIn (period.yearsLeftOut lastYear cutover start), e.instant < limit
  first : ∀ o ∈ ((period.years lastYear cutover (some start)).flatMap period.occurrences).head?,
    let left := period.savingsThrough (period.yearsLeftOut lastYear cutover start)
    period.reading left o = period.reading period.initialSave o ∨
      period.reading left o < limit ∧ period.reading period.initialSave o < limit

/-- From the limit on, the events are those of the whole layout. -/
theorem ResumesBy.filter_events (h : period.ResumesBy lastYear cutover start limit) :
    (period.events lastYear cutover none).filter (fun e => limit ≤ e.instant) =
      (period.events lastYear cutover (some start)).filter fun e => limit ≤ e.instant := by
  have hbefore : (eventsAfter period.standardOffset period.initialSave
      ((period.yearsLeftOut lastYear cutover start).flatMap period.occurrences)).filter
        (fun e => limit ≤ e.instant) = [] := by
    refine List.filter_eq_nil_iff.mpr fun e he => ?_
    have hlt := h.before e (List.mem_mergeSort.mpr he)
    simp only [decide_eq_true_eq]
    omega
  have hrest : ∀ left, left = period.savingsThrough (period.yearsLeftOut lastYear cutover start) →
      (eventsAfter period.standardOffset left
        ((period.years lastYear cutover (some start)).flatMap period.occurrences)).filter
          (fun e => limit ≤ e.instant) =
        (eventsAfter period.standardOffset period.initialSave
          ((period.years lastYear cutover (some start)).flatMap period.occurrences)).filter
            fun e => limit ≤ e.instant := by
    -- The savings before matter to the first occurrence only; each other is read with those of the
    -- one in front of it.
    rintro left rfl
    have hfirst := h.first
    cases hoccurrences :
        (period.years lastYear cutover (some start)).flatMap period.occurrences with
    | nil => rfl
    | cons first rest =>
      rw [hoccurrences] at hfirst
      rw [eventsAfter_cons, eventsAfter_cons]
      rcases hfirst first rfl with halike | ⟨hleft, hinitial⟩
      · rw [halike]
      · rw [List.filter_cons_of_neg (by simpa using hleft),
          List.filter_cons_of_neg (by simpa using hinitial)]
  rw [events, events, period.years_eq_leftOut_append lastYear cutover start, eventsIn, eventsIn,
    List.flatMap_append, eventsAfter_append, filter_mergeSort_events, filter_mergeSort_events,
    List.filter_append, hbefore, List.nil_append]
  exact congrArg (List.mergeSort · _) (hrest _ rfl)

end Period

/-! ## Layouts that agree from the start on -/

section Agreement

variable {period : Period} {events other : List Event} {start limit : Int}

/-- Two layouts of a period open with one effect and have the same events after the start. -/
structure AgreeFrom (period : Period) (events other : List Event) (start : Int) : Prop where
  opening : period.opening other (some start) = period.opening events (some start)
  ahead : other.filter (fun e => start < e.instant) = events.filter fun e => start < e.instant

theorem AgreeFrom.effectAt_eq (h : AgreeFrom period events other start)
    (cutover : Option Cutover) (instant : Int) :
    Span.effectAt ⟨period, cutover, some start, other⟩ instant =
      Span.effectAt ⟨period, cutover, some start, events⟩ instant := by
  have heventsBy : ∀ all : List Event,
      Span.eventsBy ⟨period, cutover, some start, all⟩ instant =
        (all.filter fun e => start < e.instant).filter fun e => e.instant ≤ instant := by
    intro all
    rw [List.filter_filter]
    exact List.filter_congr fun e _ => Bool.and_comm _ _
  rw [Span.effectAt, Span.effectAt, heventsBy, heventsBy, h.ahead]
  simp only [Span.opening, h.opening]

theorem AgreeFrom.added_eq (h : AgreeFrom period events other start) (cutover : Option Cutover)
    (finish : Option Int) :
    Span.added ⟨period, cutover, some start, other⟩ finish =
      Span.added ⟨period, cutover, some start, events⟩ finish := by
  have hinForce : Period.inForce other (some start) finish =
      Period.inForce events (some start) finish := by
    rw [Span.inForce_eq, Span.inForce_eq]
    simp only [Option.all_some, h.ahead]
  simp only [Span.added, Span.opened, Span.opening, h.opening, hinForce]

/-- The savings before an instant after the start are those of the effect just before it. -/
theorem savingsBefore_eq (ordered : events.Pairwise fun a b => a.instant ≤ b.instant)
    (hnone : period.recurrences = [] → events = []) {instant : Int} (h : start < instant) :
    period.savingsBefore events (some start) instant =
      (Span.effectAt ⟨period, none, some start, events⟩ (instant - 1)).save := by
  have hlatest : Span.effectAt ⟨period, none, some start, events⟩ (instant - 1) =
      Span.latest ⟨period, none, some start, events⟩ (instant - 1) := by
    refine Span.effectAt_eq_latest ordered hnone ?_
    simp only [Span.hasBegun, Option.all_some, decide_eq_true_eq]
    omega
  have hfilter : events.filter (fun e => e.instant < instant) =
      events.filter fun e => e.instant ≤ instant - 1 := by
    refine List.filter_congr fun e _ => ?_
    rw [decide_eq_decide]
    omega
  rw [Period.savingsBefore, hfilter]
  cases hlast : (events.filter fun e => decide (e.instant ≤ instant - 1)).getLast? with
  | some e =>
    rw [hlatest, Span.latest, Period.lastEffect?,
      takeWhile_eq_filter ordered (closed_le (instant - 1)), hlast]
    rfl
  | none =>
    have hnothing : Span.eventsBy ⟨period, none, some start, events⟩ (instant - 1) = [] := by
      rw [Span.eventsBy, ← List.filter_filter, List.getLast?_eq_none_iff.mp hlast]
      rfl
    rw [Span.effectAt, hnothing]
    rfl

theorem AgreeFrom.cutoverInstant_eq (h : AgreeFrom period events other start)
    (ordered : events.Pairwise fun a b => a.instant ≤ b.instant)
    (ordered' : other.Pairwise fun a b => a.instant ≤ b.instant)
    (hnone : period.recurrences = [] → events = [])
    (hnone' : period.recurrences = [] → other = []) {cutover : Cutover}
    (hread : cutover.date.clock = .wall → start < period.standardReading cutover) :
    period.cutoverInstant cutover other (some start) =
      period.cutoverInstant cutover events (some start) := by
  cases hclock : cutover.date.clock with
  | universal => simp only [Period.cutoverInstant, hclock]
  | standard => simp only [Period.cutoverInstant, hclock]
  | wall =>
    rw [Period.cutoverInstant_eq ordered hclock, Period.cutoverInstant_eq ordered' hclock,
      savingsBefore_eq ordered hnone (hread hclock),
      savingsBefore_eq ordered' hnone' (hread hclock), h.effectAt_eq]

/-- The last of the events chosen is the same, if it is chosen from the limit on. -/
theorem getLast?_filter_congr (ordered : events.Pairwise fun a b => a.instant ≤ b.instant)
    (ordered' : other.Pairwise fun a b => a.instant ≤ b.instant)
    (h : other.filter (fun e => limit ≤ e.instant) = events.filter fun e => limit ≤ e.instant)
    {p : Event → Bool} (hexists : ∃ e ∈ events, limit ≤ e.instant ∧ p e = true) :
    (other.filter p).getLast? = (events.filter p).getLast? := by
  have hsplit : ∀ all : List Event, (all.Pairwise fun a b => a.instant ≤ b.instant) →
      (all.filter p).getLast? =
        (((all.filter fun e => limit ≤ e.instant).filter p).getLast?).or
          ((all.filter p).filter fun e => e.instant < limit).getLast? := by
    intro all hall
    have hlater : (all.filter p).filter (fun e => !decide (e.instant < limit)) =
        (all.filter fun e => limit ≤ e.instant).filter p := by
      rw [List.filter_filter, List.filter_filter]
      refine List.filter_congr fun e _ => ?_
      rw [← decide_not, decide_eq_decide.mpr Int.not_lt, Bool.and_comm]
    rw [← List.getLast?_append, ← hlater,
      filter_append_filter_not (hall.filter p) (closed_lt limit)]
  obtain ⟨e, he, hle, hp⟩ := hexists
  have hmem : e ∈ (events.filter fun e => limit ≤ e.instant).filter p :=
    List.mem_filter.mpr ⟨List.mem_filter.mpr ⟨he, decide_eq_true hle⟩, hp⟩
  rw [hsplit other ordered', hsplit events ordered, h,
    List.getLast?_eq_some_getLast (List.ne_nil_of_mem hmem), Option.some_or, Option.some_or]

/-- Layouts agree if they have the same events from a limit on and one of these by the start. -/
theorem agreeFrom_of_anchor (ordered : events.Pairwise fun a b => a.instant ≤ b.instant)
    (ordered' : other.Pairwise fun a b => a.instant ≤ b.instant)
    (h : other.filter (fun e => limit ≤ e.instant) = events.filter fun e => limit ≤ e.instant)
    (hanchor : ∃ e ∈ events, limit ≤ e.instant ∧ e.instant ≤ start) :
    AgreeFrom period events other start := by
  have hle : limit ≤ start := by
    obtain ⟨e, -, hlimit, hstart⟩ := hanchor
    omega
  have hlast : Period.lastEffect? other start = Period.lastEffect? events start := by
    rw [Period.lastEffect?, Period.lastEffect?, takeWhile_eq_filter ordered (closed_le start),
      takeWhile_eq_filter ordered' (closed_le start),
      getLast?_filter_congr ordered ordered' h (by simpa using hanchor)]
  refine ⟨?_, ?_⟩
  · rw [Period.opening, Period.opening, Option.bind_some, Option.bind_some, hlast]
  · refine filter_congr_of_imp (fun e he => ?_) h
    simp only [decide_eq_true_eq] at he ⊢
    omega

end Agreement

/-! ## Years that are left out without harm -/

namespace Period

variable {period : Period} {lastYear : Int} {cutover : Option Cutover} {start : Int}

/-- An end on the wall clock comes after the start, also on the clock without savings. -/
def EndsAfter (period : Period) (cutover : Option Cutover) (start : Int) : Prop :=
  ∀ c ∈ cutover, c.date.clock = .wall → start < period.standardReading c

/-- Why it does not matter that years before the start of a period are left out. -/
inductive Harmless (period : Period) (lastYear : Int) (cutover : Option Cutover) (start : Int) :
    Prop
  /-- Nothing occurs in them. -/
  | vacant (vacant : (period.yearsLeftOut lastYear cutover start).flatMap period.occurrences = [])
  /-- What they change is over when an event comes by the start. -/
  | anchored (limit : Int) (resumes : period.ResumesBy lastYear cutover start limit)
      (anchor : ∃ e ∈ period.events lastYear cutover (some start),
        limit ≤ e.instant ∧ e.instant ≤ start)
      (ends : period.EndsAfter cutover start)
  /-- The next event comes after the start, and they have ended with the effect and the savings with
  which a period begins. -/
  | lapsed (before : ∀ e ∈ period.eventsIn (period.yearsLeftOut lastYear cutover start),
        e.instant ≤ start)
      (after : ∀ e ∈ period.events lastYear cutover (some start), start < e.instant)
      (last : ∀ e ∈ (period.eventsIn (period.yearsLeftOut lastYear cutover start)).getLast?,
        e.effect = period.defaultEffect)
      (savings : period.savingsThrough (period.yearsLeftOut lastYear cutover start) =
        period.initialSave)
      (ends : period.EndsAfter cutover start)

theorem events_eq_of_vacant
    (h : (period.yearsLeftOut lastYear cutover start).flatMap period.occurrences = []) :
    period.events lastYear cutover none = period.events lastYear cutover (some start) := by
  rw [events, events, period.years_eq_leftOut_append lastYear cutover start, eventsIn, eventsIn,
    List.flatMap_append, h, List.nil_append]

theorem opening_eq_last {events : List Event}
    (ordered : events.Pairwise fun a b => a.instant ≤ b.instant)
    (hnone : period.recurrences = [] → events = []) :
    period.opening events (some start) =
      (((events.filter fun e => e.instant ≤ start).getLast?).map (·.effect)).getD
        period.defaultEffect := by
  rw [opening_eq _ hnone, Option.bind_some, lastEffect?,
    takeWhile_eq_filter ordered (closed_le start)]

theorem agreeFrom_of_lapsed
    (before : ∀ e ∈ period.eventsIn (period.yearsLeftOut lastYear cutover start),
      e.instant ≤ start)
    (after : ∀ e ∈ period.events lastYear cutover (some start), start < e.instant)
    (last : ∀ e ∈ (period.eventsIn (period.yearsLeftOut lastYear cutover start)).getLast?,
      e.effect = period.defaultEffect)
    (savings : period.savingsThrough (period.yearsLeftOut lastYear cutover start) =
      period.initialSave) :
    AgreeFrom period (period.events lastYear cutover (some start))
      (period.events lastYear cutover none) start := by
  have hopening : ∀ other, period.opening (period.events lastYear cutover other) (some start) =
      ((((period.events lastYear cutover other).filter fun e => e.instant ≤ start).getLast?).map
        (·.effect)).getD period.defaultEffect := fun other =>
    opening_eq_last (Timeline.pairwise_events period lastYear cutover other)
      (Timeline.events_eq_nil lastYear cutover other)
  have hwhole : (period.events lastYear cutover none).filter (fun e => e.instant ≤ start) =
      period.eventsIn (period.yearsLeftOut lastYear cutover start) := by
    have hkept : (period.eventsIn (period.yearsLeftOut lastYear cutover start)).filter
        (fun e => e.instant ≤ start) =
          period.eventsIn (period.yearsLeftOut lastYear cutover start) :=
      List.filter_eq_self.mpr fun e he => decide_eq_true (before e he)
    rw [events, period.years_eq_leftOut_append lastYear cutover start]
    refine (filter_eventsIn_append fun e he => ?_).trans hkept
    rw [eventsFollowing, ← savingsThrough, savings] at he
    exact decide_eq_false (Int.not_le.mpr (after e (List.mem_mergeSort.mpr he)))
  have hnothing : (period.events lastYear cutover (some start)).filter
      (fun e => e.instant ≤ start) = [] :=
    List.filter_eq_nil_iff.mpr fun e he => by simpa using after e he
  have hresumes : period.ResumesBy lastYear cutover start (start + 1) :=
    ⟨fun e he => Int.lt_add_one_of_le (before e he),
      fun o _ => Or.inl (congrArg (period.reading · o) savings)⟩
  refine ⟨?_, hresumes.filter_events⟩
  rw [hopening, hopening, hwhole, hnothing]
  cases hlast : (period.eventsIn (period.yearsLeftOut lastYear cutover start)).getLast? with
  | none => rfl
  | some e => exact last e hlast

theorem Harmless.agreeFrom (h : period.Harmless lastYear cutover start) :
    AgreeFrom period (period.events lastYear cutover (some start))
      (period.events lastYear cutover none) start := by
  cases h with
  | vacant hvacant =>
    rw [events_eq_of_vacant hvacant]
    exact ⟨rfl, rfl⟩
  | anchored limit resumes anchor ends =>
    exact agreeFrom_of_anchor (Timeline.pairwise_events _ _ _ _) (Timeline.pairwise_events _ _ _ _)
      resumes.filter_events anchor
  | lapsed before after last savings ends => exact agreeFrom_of_lapsed before after last savings

theorem Harmless.cutoverInstant_eq {cutover : Cutover}
    (h : period.Harmless lastYear (some cutover) start) :
    period.cutoverInstant cutover (period.events lastYear (some cutover) none) (some start) =
      period.cutoverInstant cutover (period.events lastYear (some cutover) (some start))
        (some start) := by
  have hends : period.EndsAfter (some cutover) start →
      period.cutoverInstant cutover (period.events lastYear (some cutover) none) (some start) =
        period.cutoverInstant cutover (period.events lastYear (some cutover) (some start))
          (some start) := fun ends =>
    h.agreeFrom.cutoverInstant_eq (Timeline.pairwise_events _ _ _ _)
      (Timeline.pairwise_events _ _ _ _) (Timeline.events_eq_nil _ _ _)
      (Timeline.events_eq_nil _ _ _) (ends cutover rfl)
  cases h with
  | vacant hvacant => rw [events_eq_of_vacant hvacant]
  | anchored limit resumes anchor ends => exact hends ends
  | lapsed before after last savings ends => exact hends ends

/-- Where something has occurred by the start, the last of it gives the effect of the opening. -/
theorem Harmless.opening_eq (h : period.Harmless lastYear cutover start) {effect : Effect}
    (hlast : lastEffect? (period.events lastYear cutover none) start = some effect) :
    period.opening (period.events lastYear cutover (some start)) (some start) = effect := by
  rw [← h.agreeFrom.opening, Period.opening_eq _ (Timeline.events_eq_nil lastYear cutover none),
    Option.bind_some, hlast, Option.getD_some]

end Period

end ZoneHistory
