/-!
# Histories of zones

A history gives the offsets and the abbreviation of a zone at every instant: an initial state and
the transitions to later ones. A state is looked up by bisection over the instants of the
transitions, which is defined for transitions in any order.
-/
namespace ZoneHistory

/-- The state of a zone from an instant on. -/
structure Transition where
  /-- Milliseconds from the start of 1970, UTC. -/
  instant : Int
  /-- The standard offset and the savings. -/
  wallOffset : Int
  standardOffset : Int
  name : String
  deriving DecidableEq, Repr

/-- Whether the clocks and abbreviations of two states are the same. -/
def Transition.looksLike (a b : Transition) : Bool :=
  a.wallOffset = b.wallOffset && a.name = b.name

structure History where
  zone : String
  /-- The state before the first transition; its instant has no meaning. -/
  initial : Transition
  transitions : Array Transition
  deriving DecidableEq

namespace History

/-- Halve the range from `lo` to `hi` until it is empty: the range continues on the left of a
transition that is later than the instant, and on its right otherwise. -/
def bisectFrom (transitions : Array Transition) (instant : Int) (lo hi : Nat)
    (bound : hi ≤ transitions.size) : Nat :=
  if h : lo < hi then
    have inside : (lo + hi) / 2 < transitions.size := by omega
    if instant < transitions[(lo + hi) / 2].instant then
      bisectFrom transitions instant lo ((lo + hi) / 2) (by omega)
    else bisectFrom transitions instant ((lo + hi) / 2 + 1) hi bound
  else lo
termination_by hi - lo

/-- The number of transitions that an instant lies behind, as bisection finds it. -/
def position (history : History) (instant : Int) : Nat :=
  bisectFrom history.transitions instant 0 history.transitions.size (Nat.le_refl _)

/-- The state at an instant. -/
def stateAt (history : History) (instant : Int) : Transition :=
  match history.position instant with
  | 0 => history.initial
  | i + 1 => history.transitions.getD i history.initial

def offsetAt (history : History) (instant : Int) : Int := (history.stateAt instant).wallOffset

def standardOffsetAt (history : History) (instant : Int) : Int :=
  (history.stateAt instant).standardOffset

def nameAt (history : History) (instant : Int) : String := (history.stateAt instant).name

/-- The first transition after an instant, or the instant itself if there is none. -/
def nextTransition (history : History) (instant : Int) : Int :=
  match history.transitions[history.position instant]? with
  | some transition => transition.instant
  | none => instant

/-- The millisecond before the last transition at or before an instant, or the instant itself if
there is none. -/
def previousTransition (history : History) (instant : Int) : Int :=
  match history.position instant with
  | 0 => instant
  | i + 1 =>
    match history.transitions[i]? with
    | some transition => transition.instant - 1
    | none => instant

end History

end ZoneHistory
