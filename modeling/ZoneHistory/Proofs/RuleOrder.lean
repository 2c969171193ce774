import Mathlib.Data.List.Forall2
import ZoneHistory.Proofs.Effects

/-!
# The order of recurrences

In which order the recurrences of a period are listed matters in two places only: for those that
occur at one local time, and for the one that gives the abbreviation before any has occurred. Where
neither is in question, periods with their recurrences in another order have the same events and
open alike, and so timelines of such periods give one history.
-/
namespace ZoneHistory

/-- Two recurrences never occur at one local time. -/
def Recurrence.Apart (a b : Recurrence) : Prop :=
  ∀ year, a.covers year = true → b.covers year = true →
    a.date.localMillis year ≠ b.date.localMillis year

theorem min?_eq_of_perm {l other : List Int} (h : other.Perm l) : other.min? = l.min? := by
  apply Option.ext
  intro least
  rw [List.min?_eq_some_iff, List.min?_eq_some_iff]
  simp only [h.mem_iff]

theorem max?_eq_of_perm {l other : List Int} (h : other.Perm l) : other.max? = l.max? := by
  apply Option.ext
  intro greatest
  rw [List.max?_eq_some_iff, List.max?_eq_some_iff]
  simp only [h.mem_iff]

namespace Period

/-- The other period has the same recurrences in some order, and else the same. -/
structure Reorders (period other : Period) : Prop where
  standardOffset : other.standardOffset = period.standardOffset
  fixed : other.fixed = period.fixed
  recurrences : other.recurrences.Perm period.recurrences

/-- The abbreviation of the first recurrence to standard time. -/
def standardName? (period : Period) : Option String :=
  (period.recurrences.find? fun r => r.effect.save = 0).map (·.effect.name)

/-- What a timeline sees of a period is the same in the other: its standard offset, its events and
how it opens. -/
structure Alike (lastYear : Int) (period other : Period) : Prop where
  standardOffset : other.standardOffset = period.standardOffset
  events : other.events lastYear = period.events lastYear
  opening : other.opening = period.opening

section Reorders

variable {period other : Period}

theorem Reorders.recurrences_cases (h : period.Reorders other) :
    (period.recurrences = [] ∧ other.recurrences = []) ∨
      ∃ r rest r' rest', period.recurrences = r :: rest ∧ other.recurrences = r' :: rest' := by
  have hperm := h.recurrences
  cases hrecurrences : period.recurrences with
  | nil => exact Or.inl ⟨rfl, by simpa [hrecurrences] using hperm⟩
  | cons r rest =>
    cases hother : other.recurrences with
    | nil => simp [hrecurrences, hother] at hperm
    | cons r' rest' => exact Or.inr ⟨r, rest, r', rest', rfl, rfl⟩

theorem Reorders.years_eq (h : period.Reorders other) (lastYear : Int) (cutover : Option Cutover)
    (start : Option Int) :
    other.years lastYear cutover start = period.years lastYear cutover start := by
  have hfirst := min?_eq_of_perm (h.recurrences.map (·.fromYear))
  have hlast := max?_eq_of_perm (h.recurrences.map (·.toYear))
  rcases h.recurrences_cases with ⟨hnone, hnone'⟩ | ⟨r, rest, r', rest', hsome, hsome'⟩
  · simp only [years, hnone, hnone']
  · simp only [hsome, hsome', List.map_cons, List.min?_cons', List.max?_cons',
      Option.some.injEq] at hfirst hlast
    simp only [years, hsome, hsome', hfirst, hlast]

theorem Reorders.occurrences_eq (h : period.Reorders other)
    (hapart : period.recurrences.Pairwise Recurrence.Apart) (year : Int) :
    other.occurrences year = period.occurrences year := by
  have hperm := (h.recurrences.filter (·.covers year)).map
    fun r => (r.date.localMillis year, r)
  have hnodup : (((period.recurrences.filter (·.covers year)).map
      fun r => (r.date.localMillis year, r)).map (·.1)).Nodup := by
    -- only recurrences that cover the year have a local time in it
    rw [List.map_map, List.Nodup, List.pairwise_map, List.pairwise_filter]
    exact hapart.imp fun hab ha hb => hab year ha hb
  apply mergeSort_congr_of_perm (key_trans Prod.fst) (key_total Prod.fst) hperm
  intro a ha b hb hab hba
  have htime : a.1 = b.1 := Int.le_antisymm (of_decide_eq_true hab) (of_decide_eq_true hba)
  exact List.inj_on_of_nodup_map hnodup ha hb htime

theorem Reorders.events_eq (h : period.Reorders other)
    (hapart : period.recurrences.Pairwise Recurrence.Apart) (lastYear : Int) :
    other.events lastYear = period.events lastYear := by
  have hoccurrences : other.occurrences = period.occurrences :=
    funext (h.occurrences_eq hapart)
  funext cutover start
  simp only [events, eventsIn, initialSave, h.years_eq, h.standardOffset, h.fixed, hoccurrences]

theorem Reorders.defaultEffect_eq (h : period.Reorders other)
    (hstandard : other.standardName? = period.standardName?) :
    other.defaultEffect = period.defaultEffect := by
  rw [standardName?, standardName?] at hstandard
  rw [defaultEffect, defaultEffect, h.fixed]
  cases hfind : period.recurrences.find? fun r => r.effect.save = 0 with
  | none =>
    rw [hfind, Option.map_none, Option.map_eq_none_iff] at hstandard
    rw [hstandard]
  | some r =>
    rw [hfind, Option.map_some, Option.map_eq_some_iff] at hstandard
    obtain ⟨r', hfind', hname⟩ := hstandard
    have hsave : r.effect.save = 0 := by simpa using List.find?_some hfind
    have hsave' : r'.effect.save = 0 := by simpa using List.find?_some hfind'
    have heffect : r'.effect = r.effect := calc
      r'.effect = ⟨r'.effect.save, r'.effect.name⟩ := rfl
      _ = ⟨r.effect.save, r.effect.name⟩ := by rw [hsave', hsave, hname]
    rw [hfind']
    exact heffect

theorem Reorders.opening_eq (h : period.Reorders other)
    (hstandard : other.standardName? = period.standardName?) :
    other.opening = period.opening := by
  have hdefault := h.defaultEffect_eq hstandard
  funext events start
  rcases h.recurrences_cases with ⟨hnone, hnone'⟩ | ⟨r, rest, r', rest', hsome, hsome'⟩
  · simp only [opening, hnone, hnone', h.fixed, hdefault]
  · simp only [opening, hsome, hsome', h.fixed, hdefault]
    cases period.fixed <;> rfl

/-- Recurrences in another order make no difference if they never occur at one local time, and if
the abbreviation before any of them is the same. -/
theorem Reorders.alike (h : period.Reorders other)
    (hapart : period.recurrences.Pairwise Recurrence.Apart)
    (hstandard : other.standardName? = period.standardName?) (lastYear : Int) :
    Alike lastYear period other where
  standardOffset := h.standardOffset
  events := h.events_eq hapart lastYear
  opening := h.opening_eq hstandard

end Reorders

section Alike

variable {lastYear : Int} {period other : Period} (h : Alike lastYear period other)

include h

theorem Alike.transition_eq : other.transition = period.transition := by
  funext instant effect
  simp only [transition, h.standardOffset]

theorem Alike.cutoverInstant_eq : other.cutoverInstant = period.cutoverInstant := by
  funext cutover events start
  simp only [cutoverInstant, saveBefore, h.standardOffset, h.opening]

theorem Alike.layPeriod_eq (initial : Transition) :
    Timeline.layPeriod initial other = Timeline.layPeriod initial period := by
  funext events start finish earlier
  simp only [Timeline.layPeriod, h.transition_eq, h.opening]

end Alike

end Period

namespace Timeline

/-- Periods that are alike, and end alike. -/
def AlikeThroughout (lastYear : Int) : List (Period × Option Cutover) →
    List (Period × Option Cutover) → Prop :=
  List.Forall₂ fun head head' => head.1.Alike lastYear head'.1 ∧ head'.2 = head.2

section AlikeThroughout

variable {lastYear : Int} {periods others : List (Period × Option Cutover)}

theorem alikeThroughout_of_reorders (hperiods : List.Forall₂
      (fun head head' => head.1.Reorders head'.1 ∧ head'.2 = head.2) periods others)
    (hapart : ∀ head ∈ periods, head.1.recurrences.Pairwise Recurrence.Apart)
    (hstandard : others.map (·.1.standardName?) = periods.map (·.1.standardName?)) :
    AlikeThroughout lastYear periods others := by
  induction hperiods with
  | nil => exact .nil
  | cons hreorders _ ih =>
    rw [List.forall_mem_cons] at hapart
    simp only [List.map_cons, List.cons.injEq] at hstandard
    have hfirst := hreorders.1.alike hapart.1 hstandard.1 lastYear
    exact .cons ⟨hfirst, hreorders.2⟩ (ih hapart.2 hstandard.2)

theorem AlikeThroughout.layOut_eq (h : AlikeThroughout lastYear periods others)
    (initial : Transition) (start : Option Int) (earlier : List Transition) :
    layOut (fun period => period.events lastYear) initial others start earlier =
      layOut (fun period => period.events lastYear) initial periods start earlier := by
  -- the end of a period, in both layouts the same, is the start of the next
  induction h generalizing start earlier with
  | nil => rfl
  | @cons head head' rest rest' halike _ ih =>
    obtain ⟨period, cutover⟩ := head
    obtain ⟨other, cutover'⟩ := head'
    obtain ⟨halike, rfl⟩ := halike
    cases cutover' with
    | none => simp only [layOut, halike.events, halike.layPeriod_eq]
    | some cutover =>
      simp only [layOut, halike.events, halike.cutoverInstant_eq, halike.layPeriod_eq, ih]

theorem AlikeThroughout.initialState_eq (h : AlikeThroughout lastYear periods others) :
    initialState (fun period => period.events lastYear) others =
      initialState (fun period => period.events lastYear) periods := by
  cases h with
  | nil => rfl
  | cons halike _ =>
    simp only [initialState, halike.1.transition_eq, halike.1.opening, halike.1.events, halike.2]

end AlikeThroughout

/-- Timelines whose periods differ only in the order of their recurrences give one history, if in
each period no two recurrences occur at one local time, and if the first recurrence to standard time
has one abbreviation in both orders, or there is none. -/
theorem toHistory_of_reorders {t other : Timeline} (hlastYear : other.lastYear = t.lastYear)
    (hperiods : List.Forall₂ (fun head head' => head.1.Reorders head'.1 ∧ head'.2 = head.2)
      t.periods other.periods)
    (hapart : ∀ head ∈ t.periods, head.1.recurrences.Pairwise Recurrence.Apart)
    (hstandard : other.periods.map (·.1.standardName?) = t.periods.map (·.1.standardName?))
    (zone : String) : other.toHistory zone = t.toHistory zone := by
  have halike : AlikeThroughout t.lastYear t.periods other.periods :=
    alikeThroughout_of_reorders hperiods hapart hstandard
  simp only [toHistory, toHistoryBy, hlastYear, halike.initialState_eq, halike.layOut_eq]

/-- To summer time on the first Sunday of April, in two years. -/
def toSummer : Recurrence := ⟨⟨3600000, "XDT"⟩, 2000, 2001, ⟨4, 1, 7, true, 7200000, .wall⟩⟩

/-- And back on the last Sunday of October. -/
def toWinter : Recurrence := ⟨⟨0, "XST"⟩, 2000, 2001, ⟨10, -1, 7, false, 7200000, .wall⟩⟩

/-- A zone that comes to have two summers with summer time. -/
def twoSummers (first second : Recurrence) : Timeline :=
  build defaultLastYear
    [.setStandardOffset 3000000, .setFixedSavings ⟨"LMT", 0⟩,
      .addCutover ⟨1990, ⟨1, 1, 0, false, 0, .universal⟩⟩,
      .setStandardOffset 3600000, .addRecurrence first, .addRecurrence second]

theorem apart_toSummer_toWinter : toSummer.Apart toWinter := by
  intro year hsummer _
  have hyears : 2000 ≤ year ∧ year ≤ 2001 := by
    rwa [Recurrence.covers, Bool.and_eq_true, decide_eq_true_eq, decide_eq_true_eq] at hsummer
  obtain rfl | rfl : year = 2000 ∨ year = 2001 := by omega
  · decide
  · decide

theorem twoSummers_swapped :
    twoSummers toWinter toSummer ≠ twoSummers toSummer toWinter ∧
      (twoSummers toWinter toSummer).toHistory "Test/Zone" =
        (twoSummers toSummer toWinter).toHistory "Test/Zone" := by
  constructor
  · decide
  · apply toHistory_of_reorders
    · rfl
    · exact .cons ⟨⟨rfl, rfl, .refl _⟩, rfl⟩ (.cons ⟨⟨rfl, rfl, .swap _ _ _⟩, rfl⟩ .nil)
    · have hapart : [toSummer, toWinter].Pairwise Recurrence.Apart := by
        simpa using apart_toSummer_toWinter
      have hnone : ([] : List Recurrence).Pairwise Recurrence.Apart := .nil
      exact List.forall_mem_cons.mpr ⟨hnone, List.forall_mem_singleton.mpr hapart⟩
    · decide

end Timeline

end ZoneHistory
