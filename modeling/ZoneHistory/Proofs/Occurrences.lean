import ZoneHistory.Proofs.Effects

/-!
# Occurrences in turn

The recurrences of a period occur year by year, and in a year in the order of their local times. An
occurrence on the wall clock is read with the savings of the occurrence before it in this order. The
events then stand by instant, which can be another order; where it is not, the savings are those of
the event just before.
-/
namespace ZoneHistory

/-- A recurrence in one year, with the event that it becomes. -/
structure Occurrence where
  year : Int
  recurrence : Recurrence
  event : Event
  deriving DecidableEq

def Occurrence.localTime (o : Occurrence) : Int := o.recurrence.date.localMillis o.year

namespace Period

variable {period : Period} {years : List Int}

/-- Recurrences in years, each read on a clock that shows the savings of the one before it. -/
def readInTurn (standardOffset : Int) : Int → List (Int × Recurrence) → List Occurrence
  | _, [] => []
  | save, (year, r) :: rest =>
    ⟨year, r, ⟨r.date.localMillis year - r.date.clock.offset standardOffset save, r.effect⟩⟩ ::
      readInTurn standardOffset r.effect.save rest

/-- The recurrences of a period in the given years, in turn. -/
def turns (period : Period) (years : List Int) : List (Int × Recurrence) :=
  years.flatMap fun year => (period.occurrences year).map fun o => (year, o.2)

/-- The occurrences of a period in the given years, in turn. -/
def inTurn (period : Period) (years : List Int) : List Occurrence :=
  readInTurn period.standardOffset period.initialSave (period.turns years)

/-- The occurrences by instant. -/
def byInstant (period : Period) (years : List Int) : List Occurrence :=
  (period.inTurn years).mergeSort fun a b => decide (a.event.instant ≤ b.event.instant)

/-- Each occurrence on the wall clock is read with the savings of the one that is listed before it,
and the first with those before all events. -/
def ReadsPredecessors (period : Period) (listed : List Occurrence) : Prop :=
  ∀ before o after, listed = before ++ o :: after → o.recurrence.date.clock = .wall →
    o.event.instant = o.localTime - period.standardOffset -
      (before.getLast?.map (·.event.effect.save)).getD period.initialSave

/-- Occurrences by year, in a year by local time, and at one local time in the order of the
recurrences. -/
structure ListsInTurn (period : Period) (years : List Int) (listed : List Occurrence) : Prop where
  ordered : listed.Pairwise fun a b =>
    a.year < b.year ∨ a.year = b.year ∧ a.localTime ≤ b.localTime
  simultaneous : ∀ year time,
    (listed.filter fun o => o.year = year && o.localTime = time).map (·.recurrence) =
      if year ∈ years then
        period.recurrences.filter fun r => r.covers year && r.date.localMillis year = time
      else []

theorem map_readInTurn (standardOffset save : Int) (turns : List (Int × Recurrence)) :
    (readInTurn standardOffset save turns).map (fun o => (o.year, o.recurrence)) = turns := by
  induction turns generalizing save with
  | nil => rfl
  | cons turn rest ih => rw [readInTurn, List.map_cons, ih]

theorem map_event_readInTurn (standardOffset save : Int) (turns : List (Int × Recurrence)) :
    (readInTurn standardOffset save turns).map (·.event) =
      eventsAfter standardOffset save
        (turns.map fun turn => (turn.2.date.localMillis turn.1, turn.2)) := by
  induction turns generalizing save with
  | nil => rfl
  | cons turn rest ih => rw [readInTurn, List.map_cons, ih, List.map_cons, eventsAfter]

theorem localTime_of_mem_occurrences {year : Int} {o : Int × Recurrence}
    (h : o ∈ period.occurrences year) : o.1 = o.2.date.localMillis year :=
  (mem_occurrences_iff.mp h).2.2

theorem map_turns (period : Period) (years : List Int) :
    (period.turns years).map (fun turn => (turn.2.date.localMillis turn.1, turn.2)) =
      years.flatMap period.occurrences := by
  rw [turns, List.map_flatMap]
  refine List.flatMap_congr fun year _ => ?_
  rw [List.map_map]
  conv_rhs => rw [← List.map_id (period.occurrences year)]
  exact List.map_congr_left fun o ho => Prod.ext (localTime_of_mem_occurrences ho).symm rfl

theorem map_event_inTurn (period : Period) (years : List Int) :
    (period.inTurn years).map (·.event) =
      eventsAfter period.standardOffset period.initialSave (years.flatMap period.occurrences) := by
  rw [inTurn, map_event_readInTurn, map_turns]

/-- The events of a period are those of its occurrences. -/
theorem map_event_byInstant (period : Period) (years : List Int) :
    (period.byInstant years).map (·.event) = period.eventsIn years := by
  rw [eventsIn, ← map_event_inTurn]
  exact List.map_mergeSort fun _ _ _ _ => rfl

/-! ## The order of the turns -/

theorem pairwise_turns (period : Period) (hyears : years.Pairwise (· < ·)) :
    (period.turns years).Pairwise fun a b =>
      a.1 < b.1 ∨ a.1 = b.1 ∧ a.2.date.localMillis a.1 ≤ b.2.date.localMillis b.1 := by
  rw [turns, List.pairwise_flatMap]
  refine ⟨fun year _ => ?_, hyears.imp fun hlt a ha b hb => ?_⟩
  · rw [List.pairwise_map]
    refine List.Pairwise.imp_of_mem (fun ha hb hle => Or.inr ⟨rfl, ?_⟩)
      (pairwise_key_mergeSort Prod.fst _)
    rwa [← localTime_of_mem_occurrences ha, ← localTime_of_mem_occurrences hb]
  · obtain ⟨_, -, rfl⟩ := List.mem_map.mp ha
    obtain ⟨_, -, rfl⟩ := List.mem_map.mp hb
    exact Or.inl hlt

/-- Recurrences that occur at one local time stay in their order. -/
theorem filter_occurrences (period : Period) (year time : Int) :
    ((period.occurrences year).filter fun o => o.1 = time).map (·.2) =
      period.recurrences.filter fun r => r.covers year && r.date.localMillis year = time := by
  have hsame : ∀ l : List (Int × Recurrence),
      (l.filter fun o => o.1 = time).mergeSort (fun a b => decide (a.1 ≤ b.1)) =
        l.filter fun o => o.1 = time := by
    refine fun l => List.mergeSort_of_pairwise (List.pairwise_of_forall_mem_list ?_)
    intro a ha b hb
    have htime := of_decide_eq_true (List.mem_filter.mp ha).2
    have htime' := of_decide_eq_true (List.mem_filter.mp hb).2
    exact decide_eq_true (by omega)
  rw [occurrences, filter_mergeSort (key_trans Prod.fst) (key_total Prod.fst), hsame,
    List.filter_map, List.map_map, List.filter_filter]
  simp [Function.comp_def, Bool.and_comm]

theorem filter_turns (period : Period) (hyears : years.Nodup) (year time : Int) :
    ((period.turns years).filter fun turn =>
        turn.1 = year && turn.2.date.localMillis turn.1 = time).map (·.2) =
      if year ∈ years then
        period.recurrences.filter fun r => r.covers year && r.date.localMillis year = time
      else [] := by
  induction years with
  | nil => rfl
  | cons first rest ih =>
    obtain ⟨hfirst, hrest⟩ := List.nodup_cons.mp hyears
    rw [turns, List.flatMap_cons, ← turns, List.filter_append, List.map_append, ih hrest,
      List.filter_map, List.map_map]
    by_cases hyear : first = year
    · subst hyear
      have hkept : (period.occurrences first).filter
          (fun o => first = first && o.2.date.localMillis first = time) =
            (period.occurrences first).filter fun o => o.1 = time := by
        refine List.filter_congr fun o ho => ?_
        rw [localTime_of_mem_occurrences ho, decide_eq_true rfl, Bool.true_and]
      rw [if_neg hfirst, if_pos List.mem_cons_self, List.append_nil, ← filter_occurrences]
      exact congrArg (List.map _) hkept
    · have hnone : (period.occurrences first).filter
          (fun o => first = year && o.2.date.localMillis first = time) = [] :=
        List.filter_eq_nil_iff.mpr fun o _ => by simp [hyear]
      have hmem : year ∈ first :: rest ↔ year ∈ rest := by
        rw [List.mem_cons, or_iff_right (Ne.symm hyear)]
      simp only [hmem]
      exact congrArg (fun l => List.map _ l ++ _) hnone

theorem listsInTurn_inTurn (period : Period) (hyears : years.Pairwise (· < ·)) :
    period.ListsInTurn years (period.inTurn years) where
  ordered := by
    have hturns := period.pairwise_turns hyears
    rw [← map_readInTurn period.standardOffset period.initialSave (period.turns years),
      List.pairwise_map] at hturns
    exact hturns
  simultaneous year time := by
    rw [← period.filter_turns (hyears.imp fun h => Int.ne_of_lt h)]
    conv_rhs => rw [← map_readInTurn period.standardOffset period.initialSave (period.turns years)]
    rw [List.filter_map, List.map_map]
    rfl

theorem pairwise_years (period : Period) (lastYear : Int) (cutover : Option Cutover)
    (start : Option Int) : (period.years lastYear cutover start).Pairwise (· < ·) := by
  obtain ⟨low, high, -, -, hyears⟩ := period.exists_years_eq cutover start
  rw [hyears, yearRange, List.pairwise_map]
  exact List.pairwise_lt_range.imp fun h => by omega

/-! ## The savings that occurrences are read with -/

theorem instant_of_readInTurn {standardOffset save : Int} {turns : List (Int × Recurrence)}
    {before after : List Occurrence} {o : Occurrence}
    (h : readInTurn standardOffset save turns = before ++ o :: after) :
    o.event.instant = o.localTime - o.recurrence.date.clock.offset standardOffset
      ((before.getLast?.map (·.event.effect.save)).getD save) := by
  induction turns generalizing save before with
  | nil => simp [readInTurn] at h
  | cons turn rest ih =>
    cases before with
    | nil =>
      obtain ⟨rfl, -⟩ := List.cons_eq_cons.mp h
      rfl
    | cons first before =>
      obtain ⟨rfl, hrest⟩ := List.cons_eq_cons.mp h
      rw [ih hrest, List.getLast?_cons]
      cases before.getLast? <;> rfl

theorem readsPredecessors_inTurn (period : Period) (years : List Int) :
    period.ReadsPredecessors (period.inTurn years) := by
  intro before o after h hwall
  rw [instant_of_readInTurn h, hwall, Clock.offset, Int.sub_sub]

theorem byInstant_append {before after : List Occurrence}
    (h : ∀ a ∈ before, ∀ b ∈ after, a.event.instant ≤ b.event.instant) :
    (before ++ after).mergeSort (fun a b => decide (a.event.instant ≤ b.event.instant)) =
      before.mergeSort (fun a b => decide (a.event.instant ≤ b.event.instant)) ++
        after.mergeSort fun a b => decide (a.event.instant ≤ b.event.instant) :=
  mergeSort_append_of_le (key_trans fun o : Occurrence => o.event.instant)
    (key_total fun o : Occurrence => o.event.instant) fun a ha b hb => decide_eq_true (h a ha b hb)

/-- An occurrence stands behind the same one by instant if none before it comes after either of the
two, and none behind it comes before it. -/
theorem exists_byInstant_eq {before after : List Occurrence} {o : Occurrence}
    (h : period.inTurn years = before ++ o :: after)
    (hlast : ∀ p ∈ before.getLast?, ∀ a ∈ before, a.event.instant ≤ p.event.instant)
    (hbefore : ∀ a ∈ before, a.event.instant ≤ o.event.instant)
    (hafter : ∀ b ∈ after, o.event.instant ≤ b.event.instant) :
    ∃ before' after', period.byInstant years = before' ++ o :: after' ∧
      before'.getLast? = before.getLast? := by
  have hplace : period.byInstant years =
      before.mergeSort (fun a b => decide (a.event.instant ≤ b.event.instant)) ++
        o :: after.mergeSort fun a b => decide (a.event.instant ≤ b.event.instant) := by
    have hsingle : ∀ a ∈ [o], ∀ b ∈ after, a.event.instant ≤ b.event.instant := by simpa using hafter
    have hsplit : ∀ a ∈ before, ∀ b ∈ o :: after, a.event.instant ≤ b.event.instant := fun a ha =>
      List.forall_mem_cons.mpr ⟨hbefore a ha, fun b hb => (hbefore a ha).trans (hafter b hb)⟩
    rw [byInstant, h, byInstant_append hsplit, ← List.singleton_append, byInstant_append hsingle,
      List.mergeSort_singleton]
    rfl
  refine ⟨_, _, hplace, ?_⟩
  rcases before.eq_nil_or_concat with rfl | ⟨front, p, rfl⟩
  · simp
  · rw [List.concat_eq_append] at hlast ⊢
    have hfront : ∀ a ∈ front, ∀ b ∈ [p], a.event.instant ≤ b.event.instant := fun a ha =>
      List.forall_mem_singleton.mpr (hlast p (by simp) a (List.mem_append_left _ ha))
    rw [byInstant_append hfront]
    simp

/-- The events of a period are its occurrences by instant, and each occurrence on the wall clock is
read with the savings of the one before it in turn: by year, in a year by local time, and at one
local time in the order of the recurrences. Where instants and turns do not change the place of an
occurrence, these are the savings of the event before it. -/
theorem events_readInTurn (period : Period) (lastYear : Int) (cutover : Option Cutover)
    (start : Option Int) :
    let years := period.years lastYear cutover start
    (period.byInstant years).map (·.event) = period.events lastYear cutover start ∧
    (period.byInstant years).Perm (period.inTurn years) ∧
    period.ListsInTurn years (period.inTurn years) ∧
    period.ReadsPredecessors (period.inTurn years) ∧
    ∀ before o after, period.inTurn years = before ++ o :: after →
      (∀ p ∈ before.getLast?, ∀ a ∈ before, a.event.instant ≤ p.event.instant) →
      (∀ a ∈ before, a.event.instant ≤ o.event.instant) →
      (∀ b ∈ after, o.event.instant ≤ b.event.instant) →
      ∃ before' after', period.byInstant years = before' ++ o :: after' ∧
        before'.getLast? = before.getLast? ∧
        (o.recurrence.date.clock = .wall → o.event.instant =
          o.localTime - period.standardOffset -
            (before'.getLast?.map (·.event.effect.save)).getD period.initialSave) := by
  intro years
  have hreads := period.readsPredecessors_inTurn years
  refine ⟨period.map_event_byInstant years, List.mergeSort_perm _ _,
    period.listsInTurn_inTurn (period.pairwise_years lastYear cutover start), hreads, ?_⟩
  intro before o after h hlast hbefore hafter
  obtain ⟨before', after', hplace, hsame⟩ := exists_byInstant_eq h hlast hbefore hafter
  refine ⟨before', after', hplace, hsame, fun hwall => ?_⟩
  rw [hsame]
  exact hreads before o after h hwall

/-- Five hours behind. Summer time ends on the last evening of 1999 by the wall clock, and begins
with 2000 in universal time, which is earlier. -/
def newYearsEve : Period :=
  { standardOffset := -18000000
    recurrences := [⟨⟨0, "XST"⟩, 1999, 1999, ⟨12, 31, 0, false, 73800000, .wall⟩⟩,
      ⟨⟨3600000, "XDT"⟩, 2000, 2000, ⟨1, 1, 0, false, 0, .universal⟩⟩] }

theorem inTurn_newYearsEve :
    newYearsEve.inTurn (newYearsEve.years 2100 none none) =
      [⟨1999, ⟨⟨0, "XST"⟩, 1999, 1999, ⟨12, 31, 0, false, 73800000, .wall⟩⟩,
          ⟨946690200000, ⟨0, "XST"⟩⟩⟩,
        ⟨2000, ⟨⟨3600000, "XDT"⟩, 2000, 2000, ⟨1, 1, 0, false, 0, .universal⟩⟩,
          ⟨946684800000, ⟨3600000, "XDT"⟩⟩⟩] := by
  decide +kernel

/-- The end of summer time is read without savings, although its beginning is the event before it. -/
theorem newYearsEve_not_readsPredecessors :
    ¬ newYearsEve.ReadsPredecessors
      (newYearsEve.byInstant (newYearsEve.years 2100 none none)) := by
  intro hreads
  have hplace : newYearsEve.byInstant (newYearsEve.years 2100 none none) =
      [⟨2000, ⟨⟨3600000, "XDT"⟩, 2000, 2000, ⟨1, 1, 0, false, 0, .universal⟩⟩,
        ⟨946684800000, ⟨3600000, "XDT"⟩⟩⟩] ++
        ⟨1999, ⟨⟨0, "XST"⟩, 1999, 1999, ⟨12, 31, 0, false, 73800000, .wall⟩⟩,
          ⟨946690200000, ⟨0, "XST"⟩⟩⟩ :: [] := by
    rw [byInstant, inTurn_newYearsEve]
    simp [List.mergeSort]
  exact absurd (hreads _ _ _ hplace rfl) (by decide)

end Period

end ZoneHistory
