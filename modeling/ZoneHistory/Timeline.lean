import ZoneHistory.DateSpec
import ZoneHistory.History
import ZoneHistory.Zone
import ZoneHistory.Abbreviation

/-!
# Timelines

A timeline is built up period by period: each period has a standard offset and fixed or recurring
savings, and all but the last have a cutover into the next. `Timeline.toHistory` lays the periods
out one after the other, from the first year of rules, but not before `firstYear`, to the last year
of the timeline.
-/
namespace ZoneHistory

/-- The savings and the abbreviation in force. -/
structure Effect where
  save : Int
  name : String
  deriving DecidableEq

/-- A change of the savings that returns every year of a span. -/
structure Recurrence where
  effect : Effect
  fromYear : Int
  toYear : Int
  date : DateSpec
  deriving DecidableEq

def Recurrence.covers (recurrence : Recurrence) (year : Int) : Bool :=
  recurrence.fromYear ≤ year && year ≤ recurrence.toYear

/-- One occurrence of a recurrence, in UTC. -/
structure Event where
  instant : Int
  effect : Effect
  deriving DecidableEq

structure FixedSavings where
  format : String
  save : Int
  deriving DecidableEq

def FixedSavings.effect (fixed : FixedSavings) : Effect :=
  ⟨fixed.save, Abbreviation.underFixed fixed.format fixed.save⟩

structure Period where
  standardOffset : Int := 0
  fixed : Option FixedSavings := none
  recurrences : List Recurrence := []
  deriving DecidableEq

namespace Period

/-- The earliest year in which recurrences are laid out. -/
def firstYear : Int := 1800

/-- The years from `first` to `last`. -/
def yearRange (first last : Int) : List Int :=
  (List.range (last + 1 - first).toNat).map fun (i : Nat) => first + (i : Int)

/-- The years in which the recurrences of a period are laid out: from the year before the period
starts to the year in which it ends. -/
def years (period : Period) (lastYear : Int) (cutover : Option Cutover) (start : Option Int) :
    List Int :=
  match period.recurrences with
  | [] => []
  | r :: rest =>
    let first := max ((rest.map (·.fromYear)).foldl min r.fromYear) firstYear
    let first := match start with
      | some instant => max first (Calendar.yearOf instant - 1)
      | none => first
    let last := min ((rest.map (·.toYear)).foldl max r.toYear) lastYear
    let last := match cutover with
      | some cutover => min last cutover.year
      | none => last
    yearRange first last

/-- The recurrences of a year by local time; those at the same time stay in their order. -/
def occurrences (period : Period) (year : Int) : List (Int × Recurrence) :=
  ((period.recurrences.filter (·.covers year)).map fun r => (r.date.localMillis year, r)).mergeSort
    fun a b => decide (a.1 ≤ b.1)

/-- The occurrences as events. Each is read on a clock that shows the savings before it. -/
def eventsAfter (standardOffset : Int) : Int → List (Int × Recurrence) → List Event
  | _, [] => []
  | save, (localTime, r) :: rest =>
    ⟨localTime - r.date.clock.offset standardOffset save, r.effect⟩ ::
      eventsAfter standardOffset r.effect.save rest

/-- The savings before the first event. -/
def initialSave (period : Period) : Int :=
  match period.fixed with
  | some fixed => fixed.save
  | none => 0

/-- The events of a period in the given years, by instant. -/
def eventsIn (period : Period) (years : List Int) : List Event :=
  (eventsAfter period.standardOffset period.initialSave (years.flatMap period.occurrences)).mergeSort
    fun a b => decide (a.instant ≤ b.instant)

/-- The events of a period that starts at the given instant, or has always been. -/
def events (period : Period) (lastYear : Int) (cutover : Option Cutover) (start : Option Int) :
    List Event :=
  period.eventsIn (period.years lastYear cutover start)

/-- The last of the events, in order, that is not after an instant. -/
def lastEffect? (events : List Event) (instant : Int) : Option Effect :=
  ((events.takeWhile fun e => e.instant ≤ instant).getLast?).map (·.effect)

/-- The effect before any event: that of the first recurrence to standard time, else of the fixed
savings. -/
def defaultEffect (period : Period) : Effect :=
  match period.recurrences.find? (fun r => r.effect.save = 0) with
  | some r => r.effect
  | none =>
    match period.fixed with
    | some fixed => fixed.effect
    | none => ⟨0, ""⟩

/-- The effect with which a period opens. -/
def opening (period : Period) (events : List Event) (start : Option Int) : Effect :=
  match period.fixed, period.recurrences with
  | some fixed, [] => fixed.effect
  | _, _ => ((start.bind (lastEffect? events)).getD period.defaultEffect)

/-- The savings in force just before an instant. -/
def saveBefore (period : Period) (events : List Event) (start : Option Int) (instant : Int) : Int :=
  match (events.takeWhile fun e => e.instant < instant).getLast? with
  | some event => event.effect.save
  | none => (period.opening events start).save

/-- The instant at which a period ends. Wall time is read with the savings in force at the time that
the clock without savings shows. -/
def cutoverInstant (period : Period) (cutover : Cutover) (events : List Event)
    (start : Option Int) : Int :=
  let localTime := cutover.date.localMillis cutover.year
  match cutover.date.clock with
  | .universal => localTime
  | .standard => localTime - period.standardOffset
  | .wall =>
    localTime - period.standardOffset -
      period.saveBefore events start (localTime - period.standardOffset)

/-- The transition into an effect of the period. -/
def transition (period : Period) (instant : Int) (effect : Effect) : Transition :=
  ⟨instant, period.standardOffset + effect.save, period.standardOffset, effect.name⟩

/-- The events after the start of a period and before its end. -/
def inForce (events : List Event) (start finish : Option Int) : List Event :=
  let started := match start with
    | some s => events.filter fun e => s < e.instant
    | none => events
  match finish with
  | some f => started.takeWhile fun e => e.instant < f
  | none => started

end Period

/-- Add a transition to those before it, which are held latest first: it replaces any at or after
its instant, and is left out if nothing changes. -/
def pushTransition (initial : Transition) (earlier : List Transition) (t : Transition) :
    List Transition :=
  let kept := earlier.dropWhile fun e => t.instant ≤ e.instant
  if t.looksLike (kept.headD initial) then kept else t :: kept

structure Timeline where
  /-- The last year in which recurrences are laid out. -/
  lastYear : Int
  closed : List (Period × Cutover)
  current : Period
  deriving DecidableEq

namespace Timeline

/-- The last year unless another is asked for. -/
def defaultLastYear : Int := 2100

def empty (lastYear : Int) : Timeline := ⟨lastYear, [], {}⟩

def setStandardOffset (t : Timeline) (offset : Int) : Timeline :=
  { t with current := { t.current with standardOffset := offset } }

def setFixedSavings (t : Timeline) (fixed : FixedSavings) : Timeline :=
  { t with current := { t.current with fixed := some fixed } }

def addRecurrence (t : Timeline) (recurrence : Recurrence) : Timeline :=
  { t with current := { t.current with recurrences := t.current.recurrences ++ [recurrence] } }

/-- End the current period and open an empty one. -/
def addCutover (t : Timeline) (cutover : Cutover) : Timeline :=
  { t with closed := t.closed ++ [(t.current, cutover)], current := {} }

/-- One step of building a timeline. -/
inductive Instruction where
  | setStandardOffset (offset : Int)
  | setFixedSavings (fixed : FixedSavings)
  | addRecurrence (recurrence : Recurrence)
  | addCutover (cutover : Cutover)
  deriving DecidableEq

def apply (t : Timeline) : Instruction → Timeline
  | .setStandardOffset offset => t.setStandardOffset offset
  | .setFixedSavings fixed => t.setFixedSavings fixed
  | .addRecurrence recurrence => t.addRecurrence recurrence
  | .addCutover cutover => t.addCutover cutover

/-- The timeline that instructions build. -/
def build (lastYear : Int) (instructions : List Instruction) : Timeline :=
  instructions.foldl apply (empty lastYear)

def periodCount (t : Timeline) : Nat := t.closed.length + 1

/-- The periods in order, each with its end if it has one. -/
def periods (t : Timeline) : List (Period × Option Cutover) :=
  t.closed.map (fun (p, c) => (p, some c)) ++ [(t.current, none)]

/-- How the recurrences of a period, with its end and its start, become events. -/
abbrev Expansion := Period → Option Cutover → Option Int → List Event

/-- Lay out one period over the transitions before it, latest first. -/
def layPeriod (initial : Transition) (period : Period) (events : List Event)
    (start finish : Option Int) (earlier : List Transition) : List Transition :=
  let opened := match start with
    | some s => pushTransition initial earlier (period.transition s (period.opening events start))
    | none => earlier
  (Period.inForce events start finish).foldl
    (fun laid e => pushTransition initial laid (period.transition e.instant e.effect)) opened

/-- Lay out the periods from the given start on, over the transitions before it, latest first. -/
def layOut (expand : Expansion) (initial : Transition) :
    List (Period × Option Cutover) → Option Int → List Transition → List Transition
  | [], _, earlier => earlier
  | (period, none) :: _, start, earlier =>
    layPeriod initial period (expand period none start) start none earlier
  | (period, some cutover) :: rest, start, earlier =>
    let events := expand period (some cutover) start
    let finish := period.cutoverInstant cutover events start
    layOut expand initial rest (some finish)
      (layPeriod initial period events start (some finish) earlier)

/-- The state in which the first of the periods opens. -/
def initialState (expand : Expansion) : List (Period × Option Cutover) → Transition
  | [] => ⟨0, 0, 0, ""⟩
  | (period, cutover) :: _ =>
    period.transition 0 (period.opening (expand period cutover none) none)

/-- The history of the named zone that a timeline describes under an expansion. -/
def toHistoryBy (expand : Expansion) (t : Timeline) (zone : String) : History :=
  let initial := initialState expand t.periods
  ⟨zone, initial, (layOut expand initial t.periods none []).reverse.toArray⟩

/-- The history of the named zone that a timeline describes. -/
def toHistory (t : Timeline) (zone : String) : History :=
  t.toHistoryBy (fun period => period.events t.lastYear) zone

end Timeline

end ZoneHistory
