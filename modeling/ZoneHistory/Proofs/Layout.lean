import ZoneHistory.Proofs.Overlay
import ZoneHistory.Proofs.Sorting

/-!
# The periods of a timeline in their places

Each period of a timeline has its place: it starts where the one before it ends, and its events are
laid out from there. What a zone shows at an instant can be read off the last period that has
started by then, whatever the order in time of the cutovers. The layout adds transitions period
after period, and the history it arrives at shows just this.
-/
namespace ZoneHistory

def Transition.restamp (t : Transition) (instant : Int) : Transition :=
  { t with instant := instant }

@[simp] theorem Transition.look_restamp (t : Transition) (instant : Int) :
    (t.restamp instant).look = t.look := rfl

@[simp] theorem Period.instant_transition (period : Period) (instant : Int) (effect : Effect) :
    (period.transition instant effect).instant = instant := rfl

@[simp] theorem Period.restamp_transition (period : Period) (instant other : Int)
    (effect : Effect) :
    (period.transition instant effect).restamp other = period.transition other effect := rfl

section Ordered

variable {events : List Event} {p : Event → Bool}
  (ordered : events.Pairwise fun a b => a.instant ≤ b.instant)
  (closed : ∀ a b : Event, a.instant ≤ b.instant → p b = true → p a = true)

include closed

theorem filter_cons_eq_nil {e : Event} {rest : List Event}
    (later : ∀ a ∈ rest, e.instant ≤ a.instant) (he : ¬ p e = true) :
    (e :: rest).filter p = [] := by
  rw [List.filter_eq_nil_iff]
  intro a ha hp
  rcases List.mem_cons.mp ha with rfl | ha
  · exact he hp
  · exact he (closed e a (later a ha) hp)

include ordered

/-- What holds of all events before one of which it holds is found by looking from the front. -/
theorem takeWhile_eq_filter : events.takeWhile p = events.filter p := by
  induction ordered with
  | nil => rfl
  | @cons e rest later _ ih =>
    by_cases he : p e = true
    · rw [List.takeWhile_cons_of_pos he, List.filter_cons_of_pos he, ih]
    · rw [List.takeWhile_cons_of_neg he, filter_cons_eq_nil closed later he]

theorem filter_append_filter_not : events.filter p ++ events.filter (fun e => !p e) = events := by
  induction ordered with
  | nil => rfl
  | @cons e rest later _ ih =>
    by_cases he : p e = true
    · rw [List.filter_cons_of_pos he, List.filter_cons_of_neg (by simp [he]), List.cons_append, ih]
    · have hnone := filter_cons_eq_nil closed later he
      rw [hnone, List.nil_append, List.filter_eq_self]
      intro a ha
      simpa using List.filter_eq_nil_iff.mp hnone a ha

end Ordered

theorem closed_le (instant : Int) (a b : Event) (h : a.instant ≤ b.instant) :
    decide (b.instant ≤ instant) = true → decide (a.instant ≤ instant) = true := by
  simp only [decide_eq_true_eq]
  omega

theorem closed_lt (instant : Int) (a b : Event) (h : a.instant ≤ b.instant) :
    decide (b.instant < instant) = true → decide (a.instant < instant) = true := by
  simp only [decide_eq_true_eq]
  omega

/-- Lists that agree in a choice of their elements agree in every narrower choice. -/
theorem filter_congr_of_imp {α : Type} {p q : α → Bool} {l other : List α}
    (himp : ∀ a, p a = true → q a = true) (h : other.filter q = l.filter q) :
    other.filter p = l.filter p := by
  have hnarrow : ∀ all : List α, all.filter p = (all.filter q).filter p := by
    intro all
    rw [List.filter_filter]
    refine List.filter_congr fun a _ => ?_
    cases hp : p a with
    | false => rfl
    | true => rw [himp a hp, Bool.and_self]
  rw [hnarrow, h, ← hnarrow]

theorem filter_takeWhile_lt {events : List Event} {instant finish : Int}
    (ordered : events.Pairwise fun a b => a.instant ≤ b.instant) (h : instant < finish) :
    (events.takeWhile fun e => e.instant < finish).filter (fun e => e.instant ≤ instant) =
      events.filter fun e => e.instant ≤ instant := by
  rw [takeWhile_eq_filter ordered (closed_lt finish), List.filter_filter]
  refine List.filter_congr fun e _ => ?_
  simp only [← Bool.decide_and, decide_eq_decide]
  omega

/-- A period in its place: where it starts, unless it has always been, and its events. -/
structure Span where
  period : Period
  cutover : Option Cutover
  start : Option Int
  events : List Event
  deriving DecidableEq

namespace Span

/-- Whether a period has started by an instant. -/
def hasBegun (span : Span) (instant : Int) : Bool := span.start.all fun s => s ≤ instant

def eventsBy (span : Span) (instant : Int) : List Event :=
  span.events.filter fun e => span.start.all (fun s => s < e.instant) && e.instant ≤ instant

def opening (span : Span) : Effect := span.period.opening span.events span.start

/-- The effect that a period has at an instant: that of the last event since its start, else the
one with which it opens. -/
def effectAt (span : Span) (instant : Int) : Effect :=
  match (span.eventsBy instant).getLast? with
  | some event => event.effect
  | none => span.opening

def stateAt (span : Span) (instant : Int) : Transition :=
  span.period.transition instant (span.effectAt instant)

def opened (span : Span) : List Transition :=
  match span.start with
  | some s => [span.period.transition s span.opening]
  | none => []

/-- The transitions that a period adds, in the order in which it adds them. -/
def added (span : Span) (finish : Option Int) : List Transition :=
  span.opened ++ (Period.inForce span.events span.start finish).map fun e =>
    span.period.transition e.instant e.effect

/-- With other events a period ends at the same instant and adds the same transitions. -/
structure AddsAlike (span : Span) (other : List Event) : Prop where
  finish : ∀ cutover ∈ span.cutover, span.period.cutoverInstant cutover other span.start =
    span.period.cutoverInstant cutover span.events span.start
  added : added { span with events := other }
      (span.cutover.map fun c => span.period.cutoverInstant c other span.start) =
    span.added (span.cutover.map fun c => span.period.cutoverInstant c span.events span.start)

theorem inForce_eq (events : List Event) (start finish : Option Int) :
    Period.inForce events start finish =
      match finish with
      | some f => (events.filter fun e => start.all fun s => s < e.instant).takeWhile
          fun e => e.instant < f
      | none => events.filter fun e => start.all fun s => s < e.instant := by
  cases start <;> cases finish <;> simp [Period.inForce]

theorem inForce_sublist (events : List Event) (start finish : Option Int) :
    (Period.inForce events start finish).Sublist
      (events.filter fun e => start.all fun s => s < e.instant) := by
  rw [inForce_eq]
  cases finish with
  | none => exact List.Sublist.refl _
  | some f => exact List.takeWhile_sublist _

theorem filter_inForce {span : Span} {finish : Option Int} {instant : Int}
    (ordered : span.events.Pairwise fun a b => a.instant ≤ b.instant)
    (h : ∀ f ∈ finish, instant < f) :
    (Period.inForce span.events span.start finish).filter (fun e => e.instant ≤ instant) =
      span.eventsBy instant := by
  have hby : (span.events.filter fun e => span.start.all fun s => s < e.instant).filter
      (fun e => e.instant ≤ instant) = span.eventsBy instant := by
    rw [List.filter_filter]
    exact List.filter_congr fun e _ => Bool.and_comm _ _
  rw [inForce_eq]
  cases finish with
  | none => exact hby
  | some f =>
    rw [← hby]
    exact filter_takeWhile_lt (ordered.filter _) (h f rfl)

theorem lastAdded_events {span : Span} {finish : Option Int} {instant : Int}
    (ordered : span.events.Pairwise fun a b => a.instant ≤ b.instant)
    (h : ∀ f ∈ finish, instant < f) :
    lastAdded ((Period.inForce span.events span.start finish).map fun e =>
      span.period.transition e.instant e.effect) instant =
      (span.eventsBy instant).getLast?.map fun e => span.period.transition e.instant e.effect := by
  rw [lastAdded, List.filter_map, List.getLast?_map]
  congr 2
  exact filter_inForce ordered h

/-- A period that has a start adds the states that it gives from its start on, and none before. -/
theorem lastAdded_of_start {span : Span} {s : Int} {finish : Option Int} {instant : Int}
    (hstart : span.start = some s)
    (ordered : span.events.Pairwise fun a b => a.instant ≤ b.instant)
    (h : ∀ f ∈ finish, instant < f) :
    (lastAdded (span.added finish) instant).map (·.restamp instant) =
      if span.hasBegun instant then some (span.stateAt instant) else none := by
  rw [added, lastAdded_append, lastAdded_events ordered h, opened, hstart, hasBegun, hstart,
    stateAt, effectAt]
  by_cases hs : s ≤ instant
  · cases (span.eventsBy instant).getLast? <;> simp [lastAdded, hs]
  · have hnone : span.eventsBy instant = [] := by
      rw [eventsBy, hstart, List.filter_eq_nil_iff]
      intro e _ he
      simp only [Option.all_some, Bool.and_eq_true, decide_eq_true_eq] at he
      omega
    simp [lastAdded, hs, hnone]

/-- A period that has always been adds the states that it gives, but for the one it opens with. -/
theorem lastAdded_of_no_start {span : Span} {finish : Option Int} {instant other : Int}
    (hstart : span.start = none)
    (ordered : span.events.Pairwise fun a b => a.instant ≤ b.instant)
    (h : ∀ f ∈ finish, instant < f) :
    ((lastAdded (span.added finish) instant).getD
      (span.period.transition other span.opening)).restamp instant = span.stateAt instant := by
  rw [added, lastAdded_append, lastAdded_events ordered h, opened, hstart, stateAt, effectAt]
  cases (span.eventsBy instant).getLast? <;> simp [lastAdded]

end Span

/-- The last of the periods, in their order, that has started by an instant. -/
def lastBegun (spans : List Span) (instant : Int) : Option Span :=
  (spans.filter fun span => span.hasBegun instant).getLast?

theorem lastBegun_cons (span : Span) (rest : List Span) (instant : Int) :
    lastBegun (span :: rest) instant =
      (lastBegun rest instant).or (if span.hasBegun instant then some span else none) := by
  unfold lastBegun
  rw [← List.singleton_append, List.filter_append, List.getLast?_append]
  congr 1
  split <;> simp_all

namespace Timeline

/-- The periods from a start on in their places: each ends, and the next starts, at its cutover. -/
def spansFrom (expand : Expansion) : List (Period × Option Cutover) → Option Int → List Span
  | [], _ => []
  | (period, none) :: _, start => [⟨period, none, start, expand period none start⟩]
  | (period, some cutover) :: rest, start =>
    let events := expand period (some cutover) start
    ⟨period, some cutover, start, events⟩ ::
      spansFrom expand rest (some (period.cutoverInstant cutover events start))

def addedFrom (expand : Expansion) : List (Period × Option Cutover) → Option Int → List Transition
  | [], _ => []
  | (period, none) :: _, start => Span.added ⟨period, none, start, expand period none start⟩ none
  | (period, some cutover) :: rest, start =>
    let events := expand period (some cutover) start
    let finish := period.cutoverInstant cutover events start
    Span.added ⟨period, some cutover, start, events⟩ (some finish) ++
      addedFrom expand rest (some finish)

theorem events_of_mem_spansFrom {expand : Expansion} {periods : List (Period × Option Cutover)}
    {start : Option Int} {span : Span} (h : span ∈ spansFrom expand periods start) :
    span.events = expand span.period span.cutover span.start := by
  fun_induction spansFrom expand periods start with
  | case1 => simp at h
  | case2 period rest start =>
    rw [List.mem_singleton] at h
    rw [h]
  | case3 period cutover rest start events ih =>
    rcases List.mem_cons.mp h with rfl | h
    · rfl
    · exact ih h

def spans (t : Timeline) (expand : Expansion) : List Span := spansFrom expand t.periods none

def added (t : Timeline) (expand : Expansion) : List Transition := addedFrom expand t.periods none

def expansion (t : Timeline) : Expansion := fun period => period.events t.lastYear

def InOrder (expand : Expansion) : Prop :=
  ∀ period cutover start, (expand period cutover start).Pairwise fun a b => a.instant ≤ b.instant

theorem layPeriod_eq (initial : Transition) (span : Span) (finish : Option Int)
    (earlier : List Transition) :
    layPeriod initial span.period span.events span.start finish earlier =
      (span.added finish).foldl (pushTransition initial) earlier := by
  obtain ⟨period, cutover, start, events⟩ := span
  cases start <;>
    simp [layPeriod, Span.added, Span.opened, Span.opening, List.foldl_map]

theorem layOut_eq (expand : Expansion) (initial : Transition)
    (periods : List (Period × Option Cutover)) (start : Option Int) (earlier : List Transition) :
    layOut expand initial periods start earlier =
      (addedFrom expand periods start).foldl (pushTransition initial) earlier := by
  fun_induction layOut expand initial periods start earlier with
  | case1 => rfl
  | case2 period rest start earlier =>
    exact layPeriod_eq initial ⟨period, none, start, expand period none start⟩ none earlier
  | case3 period cutover rest start earlier events finish ih =>
    rw [ih, addedFrom, List.foldl_append]
    congr 1
    exact layPeriod_eq initial ⟨period, some cutover, start, events⟩ (some finish) earlier

/-- A history consists of what remains of all the transitions that the layout adds. -/
theorem toHistoryBy_eq (expand : Expansion) (t : Timeline) (zone : String) :
    t.toHistoryBy expand zone =
      ⟨zone, initialState expand t.periods,
        (overlay (initialState expand t.periods) (t.added expand)).reverse.toArray⟩ := by
  unfold toHistoryBy
  dsimp only
  rw [layOut_eq, overlay, added]

theorem toHistoryBy_normal (expand : Expansion) (t : Timeline) (zone : String) :
    (t.toHistoryBy expand zone).Normal := by
  rw [toHistoryBy_eq]
  exact (laid_overlay _ _).normal zone

theorem pairwise_events (period : Period) (lastYear : Int) (cutover : Option Cutover)
    (start : Option Int) :
    (period.events lastYear cutover start).Pairwise fun a b => a.instant ≤ b.instant :=
  pairwise_key_mergeSort Event.instant _

theorem inOrder_expansion (t : Timeline) : InOrder t.expansion :=
  fun period cutover start => pairwise_events period t.lastYear cutover start

def closedBefore (current : Period) (closed : List (Period × Cutover)) :
    List (Period × Option Cutover) :=
  closed.map (fun (p, c) => (p, some c)) ++ [(current, none)]

theorem closedBefore_nil (current : Period) : closedBefore current [] = [(current, none)] := rfl

theorem closedBefore_cons (current period : Period) (cutover : Cutover)
    (rest : List (Period × Cutover)) :
    closedBefore current ((period, cutover) :: rest) =
      (period, some cutover) :: closedBefore current rest := rfl

theorem periods_eq (t : Timeline) : t.periods = closedBefore t.current t.closed := rfl

/-- The opening of the first period does not depend on its events. -/
theorem initialState_congr (expand expand' : Expansion) (periods : List (Period × Option Cutover)) :
    initialState expand periods = initialState expand' periods := by
  cases periods with
  | nil => rfl
  | cons head rest => rfl

/-- Layouts add the same if every period does, with the same end, under either. -/
theorem addedFrom_congr {expand expand' : Expansion} (current : Period)
    (closed : List (Period × Cutover)) (start : Option Int)
    (h : ∀ span ∈ spansFrom expand (closedBefore current closed) start,
      span.AddsAlike (expand' span.period span.cutover span.start)) :
    addedFrom expand' (closedBefore current closed) start =
      addedFrom expand (closedBefore current closed) start := by
  induction closed generalizing start with
  | nil => exact (h _ List.mem_cons_self).added
  | cons head rest ih =>
    obtain ⟨period, cutover⟩ := head
    rw [closedBefore_cons, spansFrom, List.forall_mem_cons] at h
    have hfinish := h.1.finish cutover rfl
    have hadded := h.1.added
    dsimp only [Option.map_some] at hfinish hadded
    rw [closedBefore_cons, addedFrom, addedFrom, hadded, hfinish, ih _ h.2]

theorem toHistoryBy_congr {expand expand' : Expansion} {t : Timeline}
    (h : ∀ span ∈ t.spans expand, span.AddsAlike (expand' span.period span.cutover span.start))
    (zone : String) : t.toHistoryBy expand zone = t.toHistoryBy expand' zone := by
  have hadded : t.added expand' = t.added expand := addedFrom_congr t.current t.closed none h
  rw [toHistoryBy_eq, toHistoryBy_eq, hadded, initialState_congr expand expand']

theorem lt_of_lastBegun_eq_none {expand : Expansion} {closed : List (Period × Cutover)}
    {current : Period} {start instant : Int}
    (h : lastBegun (spansFrom expand (closedBefore current closed) (some start)) instant = none) :
    instant < start := by
  cases closed with
  | nil =>
    simp only [closedBefore_nil, spansFrom, lastBegun_cons, Option.or_eq_none_iff] at h
    simpa [Span.hasBegun] using h.2
  | cons head rest =>
    obtain ⟨period, cutover⟩ := head
    simp only [closedBefore_cons, spansFrom, lastBegun_cons, Option.or_eq_none_iff] at h
    simpa [Span.hasBegun] using h.2

/-- Of all that periods add from a start on, what is added last shows the last period that has
started. Later periods add nothing before their starts, and nothing that an earlier one adds after
the start of a later one is the last. -/
theorem lastAdded_addedFrom {expand : Expansion} (ordered : InOrder expand)
    (closed : List (Period × Cutover)) (current : Period) (start instant : Int) :
    (lastAdded (addedFrom expand (closedBefore current closed) (some start)) instant).map
        (·.restamp instant) =
      (lastBegun (spansFrom expand (closedBefore current closed) (some start)) instant).map
        (·.stateAt instant) := by
  induction closed generalizing start with
  | nil =>
    simp only [closedBefore_nil, addedFrom, spansFrom]
    rw [Span.lastAdded_of_start rfl (ordered _ _ _) (by simp), lastBegun_cons]
    split <;> simp [lastBegun]
  | cons head rest ih =>
    obtain ⟨period, cutover⟩ := head
    simp only [closedBefore_cons, addedFrom, spansFrom]
    rw [lastAdded_append, Option.map_or, ih, lastBegun_cons, Option.map_or]
    generalize period.cutoverInstant cutover (expand period (some cutover) (some start))
      (some start) = finish
    cases hlater : lastBegun (spansFrom expand (closedBefore current rest) (some finish))
        instant with
    | some span => simp
    | none =>
      have hlt := lt_of_lastBegun_eq_none hlater
      rw [Span.lastAdded_of_start rfl (ordered _ _ _) (by simpa using hlt)]
      split <;> simp

/-- At every instant a last period has started, since the first has always been; and what is added
last, or else the initial state, is the state that it gives. -/
theorem exists_lastBegun {expand : Expansion} (ordered : InOrder expand) (t : Timeline)
    (instant : Int) :
    ∃ span, lastBegun (t.spans expand) instant = some span ∧
      ((lastAdded (t.added expand) instant).getD (initialState expand t.periods)).restamp instant =
        span.stateAt instant := by
  rw [spans, added, periods_eq]
  cases t.closed with
  | nil =>
    refine ⟨⟨t.current, none, none, expand t.current none none⟩, rfl, ?_⟩
    exact Span.lastAdded_of_no_start rfl (ordered _ _ _) (by simp)
  | cons head rest =>
    obtain ⟨period, cutover⟩ := head
    simp only [closedBefore_cons, addedFrom, spansFrom, initialState]
    rw [lastAdded_append, lastBegun_cons]
    generalize period.cutoverInstant cutover (expand period (some cutover) none) none = finish
    have hrest := lastAdded_addedFrom ordered rest t.current finish instant
    cases hlater : lastBegun (spansFrom expand (closedBefore t.current rest) (some finish))
        instant with
    | some span =>
      rw [hlater, Option.map_some, Option.map_eq_some_iff] at hrest
      obtain ⟨added, hadded, hstate⟩ := hrest
      refine ⟨span, by simp, ?_⟩
      rw [hadded]
      exact hstate
    | none =>
      rw [hlater, Option.map_none, Option.map_eq_none_iff] at hrest
      have hlt := lt_of_lastBegun_eq_none hlater
      refine ⟨⟨period, some cutover, none, expand period (some cutover) none⟩,
        by simp [Span.hasBegun], ?_⟩
      rw [hrest, Option.none_or]
      exact Span.lastAdded_of_no_start rfl (ordered _ _ _) (by simpa using hlt)

theorem shownAt_toHistoryBy {expand : Expansion} (ordered : InOrder expand) (t : Timeline)
    (zone : String) {instant : Int} {span : Span}
    (h : lastBegun (t.spans expand) instant = some span) :
    (t.toHistoryBy expand zone).shownAt instant = (span.stateAt instant).look := by
  obtain ⟨span', hspan', hstate⟩ := exists_lastBegun ordered t instant
  obtain rfl : span = span' := by simpa [h] using hspan'
  rw [← hstate, History.shownAt_eq_look, toHistoryBy_eq, (laid_overlay _ _).stateAt_eq,
    look_overlay, Transition.look_restamp]

theorem stateAt_of_changesAt {expand : Expansion} (ordered : InOrder expand) (t : Timeline)
    (zone : String) {instant : Int} {span : Span}
    (h : lastBegun (t.spans expand) instant = some span)
    (hchange : (t.toHistoryBy expand zone).ChangesAt instant) :
    (t.toHistoryBy expand zone).stateAt instant = span.stateAt instant := by
  obtain ⟨span', hspan', hstate⟩ := exists_lastBegun ordered t instant
  obtain rfl : span = span' := by simpa [h] using hspan'
  have hnormal := t.toHistoryBy_normal expand zone
  obtain ⟨e, he, rfl⟩ := (hnormal.changesAt_iff instant).mp hchange
  have hmem : e ∈ overlay (initialState expand t.periods) (t.added expand) := by
    rw [toHistoryBy_eq] at he
    simpa using he
  rw [hnormal.stateAt_instant he, ← hstate, lastAdded_of_mem_overlay hmem]
  rfl

/-- Two ways of laying a timeline out give one history exactly when, at every instant, the periods
that have started last show the same, with the same standard offset where the history changes. -/
theorem toHistoryBy_eq_iff {expand expand' : Expansion} (ordered : InOrder expand)
    (ordered' : InOrder expand') (t : Timeline) (zone : String)
    (hinitial : initialState expand t.periods = initialState expand' t.periods) :
    t.toHistoryBy expand zone = t.toHistoryBy expand' zone ↔
      ∀ instant, ∃ span span', lastBegun (t.spans expand) instant = some span ∧
        lastBegun (t.spans expand') instant = some span' ∧
        (span.stateAt instant).look = (span'.stateAt instant).look ∧
        ((t.toHistoryBy expand zone).ChangesAt instant →
          span.period.standardOffset = span'.period.standardOffset) := by
  constructor
  · intro heq instant
    obtain ⟨span, hspan, -⟩ := exists_lastBegun ordered t instant
    obtain ⟨span', hspan', -⟩ := exists_lastBegun ordered' t instant
    refine ⟨span, span', hspan, hspan', ?_, fun hchange => ?_⟩
    · rw [← shownAt_toHistoryBy ordered t zone hspan, heq,
        shownAt_toHistoryBy ordered' t zone hspan']
    · have hstate := stateAt_of_changesAt ordered t zone hspan hchange
      rw [heq] at hchange hstate
      have hstate' := stateAt_of_changesAt ordered' t zone hspan' hchange
      exact congrArg Transition.standardOffset (hstate.symm.trans hstate')
  · intro hagree
    have hnormal := t.toHistoryBy_normal expand zone
    have hnormal' := t.toHistoryBy_normal expand' zone
    have hshown : ∀ i, (t.toHistoryBy expand zone).shownAt i =
        (t.toHistoryBy expand' zone).shownAt i := by
      intro i
      obtain ⟨span, span', hspan, hspan', hlook, -⟩ := hagree i
      rw [shownAt_toHistoryBy ordered t zone hspan, hlook,
        shownAt_toHistoryBy ordered' t zone hspan']
    refine hnormal.eq_of_agree hnormal' rfl hinitial hshown fun i hchange => ?_
    have hchange' : (t.toHistoryBy expand' zone).ChangesAt i := by
      rw [History.ChangesAt, ← hshown, ← hshown]
      exact hchange
    obtain ⟨span, span', hspan, hspan', -, hstandard⟩ := hagree i
    rw [History.standardOffsetAt, History.standardOffsetAt,
      stateAt_of_changesAt ordered t zone hspan hchange,
      stateAt_of_changesAt ordered' t zone hspan' hchange']
    exact hstandard hchange

/-- The offset and the abbreviation that a timeline gives a zone at an instant are those of the last
period, in their order, that has started by then: the effect of the last of its events since its
start, or else the one with which it opens. Cutovers may come in any order of time. -/
theorem shownAt_toHistory (t : Timeline) (zone : String) (instant : Int) :
    ∃ span, lastBegun (t.spans t.expansion) instant = some span ∧
      ((t.toHistory zone).offsetAt instant, (t.toHistory zone).nameAt instant) =
        (span.period.standardOffset + (span.effectAt instant).save,
          (span.effectAt instant).name) := by
  obtain ⟨span, hspan, -⟩ := exists_lastBegun t.inOrder_expansion t instant
  exact ⟨span, hspan, shownAt_toHistoryBy t.inOrder_expansion t zone hspan⟩

/-- The transitions of the history that a timeline gives stand in order and each shows, and so a
step to the next or the previous transition is one to the next or the previous instant at which
what the zone shows changes. -/
theorem steps_toHistory (t : Timeline) (zone : String) :
    (t.toHistory zone).Normal ∧ ∀ instant : Int,
      (IsLeast { j | instant < j ∧ (t.toHistory zone).ChangesAt j }
          ((t.toHistory zone).nextTransition instant) ∨
        (t.toHistory zone).nextTransition instant = instant ∧
          ∀ j, instant < j → ¬ (t.toHistory zone).ChangesAt j) ∧
      (IsGreatest { j | j ≤ instant ∧ (t.toHistory zone).ChangesAt j }
          ((t.toHistory zone).previousTransition instant + 1) ∨
        (t.toHistory zone).previousTransition instant = instant ∧
          ∀ j, j ≤ instant → ¬ (t.toHistory zone).ChangesAt j) := by
  have hnormal : (t.toHistory zone).Normal := t.toHistoryBy_normal t.expansion zone
  exact ⟨hnormal, fun instant =>
    ⟨hnormal.nextTransition_least instant, hnormal.previousTransition_greatest instant⟩⟩

end Timeline

end ZoneHistory
