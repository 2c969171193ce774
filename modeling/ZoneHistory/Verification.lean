import ZoneHistory.Calendar.Timestamp
import ZoneHistory.History

/-!
# Verification of histories

A history is accepted if it reports the name it was built for and if a walk over its transitions,
forward and back over a window of years, finds every transition visible, every abbreviation usable
and every step back to end just before the transition that was met on the way forward.
-/
namespace ZoneHistory

inductive VerificationError where
  | otherZone (zone reported : String)
  | invisible (zone : String) (instant : Int)
  | unusableName (zone : String) (instant : Int) (name : String)
  | strayStep (zone : String) (reached expected : Int)
  deriving DecidableEq

def VerificationError.message : VerificationError → String
  | otherZone zone reported => s!"*i* Error in {zone}: compiled zone reports id {reported}"
  | invisible zone instant => s!"*d* Error in {zone} " ++ Calendar.timestamp instant
  | unusableName zone instant name =>
    s!"*s* Error in {zone} " ++ Calendar.timestamp instant ++ s!", nameKey={name}"
  | strayStep zone reached expected =>
    s!"*r* Error in {zone} " ++ Calendar.timestamp reached ++ " != " ++
      Calendar.timestamp expected

namespace History

/-- The instant at which the walk begins. -/
def windowStart : Int := Calendar.yearStart 1850

/-- The last instant that the walk may reach. -/
def windowEnd : Int := Calendar.yearStart 2050

/-- An abbreviation has at least three characters, or is the one for an unknown local time. -/
def isUsableName (name : String) : Bool :=
  name = "??" || 3 ≤ name.length

/-- The instants met by at most the given number of steps from transition to transition. -/
def stepsFrom (history : History) : Nat → Int → List Int
  | 0, _ => []
  | fuel + 1, instant =>
    let next := history.nextTransition instant
    if next = instant ∨ windowEnd < next then []
    else next :: history.stepsFrom fuel next

/-- The instants of the transitions that the walk meets. No more steps are possible than there are
transitions, since each leads to a later instant of a transition. -/
def steps (history : History) : List Int :=
  history.stepsFrom history.transitions.size windowStart

/-- Check the states at the given instants in order, each against the one before it. -/
def checkSteps (history : History) (zone : String) (before : Transition) :
    List Int → Except VerificationError Unit
  | [] => .ok ()
  | instant :: rest =>
    let state := history.stateAt instant
    if before.looksLike state then .error (.invisible zone instant)
    else if !isUsableName state.name then .error (.unusableName zone instant state.name)
    else checkSteps history zone state rest

/-- Walk back from an instant over transitions that were met on the way forward, latest first. -/
def checkBack (history : History) (zone : String) : List Int → Int → Except VerificationError Unit
  | [], _ => .ok ()
  | expected :: rest, instant =>
    let previous := history.previousTransition instant
    if previous = instant ∨ previous < windowStart then .ok ()
    else if expected - 1 ≠ previous then .error (.strayStep zone previous (expected - 1))
    else checkBack history zone rest previous

/-- Accept or refuse a history as that of the zone of the given name. -/
def verify (zone : String) (history : History) : Except VerificationError Unit := do
  if zone ≠ history.zone then throw (.otherZone zone history.zone)
  history.checkSteps zone (history.stateAt windowStart) history.steps
  history.checkBack zone history.steps.reverse windowEnd

end History

end ZoneHistory
