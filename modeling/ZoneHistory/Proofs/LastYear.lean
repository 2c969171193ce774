import ZoneHistory.Proofs.Building
import ZoneHistory.Proofs.Calendar
import ZoneHistory.Proofs.Effects

/-!
# Later last years

The last year of a timeline bounds the years in which recurrences are laid out. With a later one
the events of a period continue; those of the further years come last, and all of them stand behind
the last November before. A cutover in these years stands there too, and so does all that follows
it. Before, the two histories are the same.
-/
namespace ZoneHistory

/-! ## Dates of later years -/

/-- The start of the last month of a year, in UTC. -/
def Calendar.decemberStart (year : Int) : Int := daysFromEpoch year 12 1 * dayMillis

/-- A month of the calendar, and a time of not more than a week before its day. -/
structure DateSpec.Ordinary (spec : DateSpec) : Prop where
  month : 1 ≤ spec.month ∧ spec.month ≤ 12
  day : -1 ≤ spec.day
  time : -(7 * Calendar.dayMillis) ≤ spec.time

instance (spec : DateSpec) : Decidable spec.Ordinary :=
  decidable_of_iff
    ((1 ≤ spec.month ∧ spec.month ≤ 12) ∧ -1 ≤ spec.day ∧ -(7 * Calendar.dayMillis) ≤ spec.time)
    ⟨fun h => ⟨h.1, h.2.1, h.2.2⟩, fun h => ⟨h.month, h.day, h.time⟩⟩

/-- Clocks that are not more than a day ahead, and recurrences on ordinary dates. -/
structure Period.Ordinary (period : Period) : Prop where
  offset : period.standardOffset ≤ Calendar.dayMillis
  fixed : ∀ fixed ∈ period.fixed, fixed.save ≤ Calendar.dayMillis
  recurrences : ∀ recurrence ∈ period.recurrences,
    recurrence.effect.save ≤ Calendar.dayMillis ∧ recurrence.date.Ordinary

theorem Clock.offset_le (clock : Clock) {standardOffset save : Int}
    (hoffset : standardOffset ≤ Calendar.dayMillis) (hsave : save ≤ Calendar.dayMillis) :
    clock.offset standardOffset save ≤ 2 * Calendar.dayMillis := by
  rw [Calendar.dayMillis] at *
  cases clock <;> rw [offset] <;> omega

theorem DateSpec.Ordinary.decemberStart_le {spec : DateSpec} (h : spec.Ordinary)
    {first year ahead : Int} (hyear : first < year) (hahead : ahead ≤ 2 * Calendar.dayMillis) :
    Calendar.decemberStart first ≤ spec.localMillis year - ahead := by
  have hlocal := (localMillis_bounds year h.month h.day).1
  have hnewYear := Calendar.newYear_mono (Int.add_one_le_of_lt hyear)
  have hdecember := Calendar.daysFromEpoch_december first
  have htime := h.time
  rw [Calendar.decemberStart]
  rw [Calendar.dayMillis] at *
  omega

namespace Period

variable {period : Period} {first last : Int} {years : List Int} {start : Option Int}

theorem Ordinary.save_le (h : period.Ordinary) :
    ∀ effect ∈ period.effects, effect.save ≤ Calendar.dayMillis := by
  rw [forall_mem_effects]
  exact ⟨fun recurrence hmem => (h.recurrences recurrence hmem).1, h.fixed, by decide⟩

theorem Ordinary.decemberStart_le_event (h : period.Ordinary)
    (hyears : ∀ year ∈ years, first < year) {event : Event} (hevent : period.Occurs years event) :
    Calendar.decemberStart first ≤ event.instant := by
  obtain ⟨year, hyear, recurrence, hrecurrence, earlier, hearlier, -, rfl⟩ := hevent
  exact (h.recurrences recurrence hrecurrence).2.decemberStart_le (hyears year hyear)
    (recurrence.date.clock.offset_le h.offset (h.save_le earlier hearlier))

theorem Ordinary.decemberStart_le_cutoverInstant (h : period.Ordinary) {cutover : Cutover}
    (hdate : cutover.date.Ordinary) (hyear : first < cutover.year) (start : Option Int) :
    Calendar.decemberStart first ≤
      period.cutoverInstant cutover (period.events last (some cutover) start) start := by
  obtain ⟨effect, heffect, hinstant⟩ := exists_cutoverInstant_eq
    (fun _ => effect_mem_of_mem_events) cutover start
  rw [hinstant]
  exact hdate.decemberStart_le hyear
    (cutover.date.clock.offset_le h.offset (h.save_le effect heffect))

/-! ## Events of later years -/

theorem exists_yearRange_eq_append (low : Int) (h : first ≤ last) :
    ∃ extra, yearRange low last = yearRange low first ++ extra ∧
      ∀ year ∈ extra, first < year ∧ year ≤ last := by
  obtain ⟨more, hmore⟩ : ∃ more, (last + 1 - low).toNat = (first + 1 - low).toNat + more :=
    Nat.exists_eq_add_of_le (by omega)
  refine ⟨(List.range more).map fun i => low + (((first + 1 - low).toNat + i : Nat) : Int), ?_, ?_⟩
  · rw [yearRange, hmore, List.range_add, List.map_append, List.map_map]
    rfl
  · intro year hyear
    obtain ⟨i, hi, rfl⟩ := List.mem_map.mp hyear
    rw [List.mem_range] at hi
    omega

/-- The further years are behind the earlier last year, and not behind the end of the period. -/
theorem exists_years_eq_append (period : Period) (h : first ≤ last) (cutover : Option Cutover)
    (start : Option Int) :
    ∃ extra, period.years last cutover start = period.years first cutover start ++ extra ∧
      ∀ year ∈ extra, first < year ∧ ∀ c ∈ cutover, year ≤ c.year := by
  obtain ⟨low, high, -, hhigh, hyears⟩ := period.exists_years_eq cutover start
  obtain ⟨extra, heq, hextra⟩ := exists_yearRange_eq_append low
    (show min high first ≤ min high last by omega)
  refine ⟨extra, by rw [hyears, hyears, heq], fun year hyear => ?_⟩
  have hbounds := hextra year hyear
  refine ⟨by omega, fun c hc => ?_⟩
  have hend := hhigh c hc
  omega

/-- The events of the further years come last and stand behind the last November. -/
theorem Ordinary.filter_events (h : period.Ordinary) (hle : first ≤ last) (cutover : Option Cutover)
    (start : Option Int) :
    (period.events last cutover start).filter
        (fun e => e.instant < Calendar.decemberStart first) =
      (period.events first cutover start).filter
        fun e => e.instant < Calendar.decemberStart first := by
  obtain ⟨extra, hyears, hextra⟩ := period.exists_years_eq_append hle cutover start
  rw [events, events, hyears]
  refine filter_eventsIn_append fun event hevent => ?_
  simpa using h.decemberStart_le_event (fun year hyear => (hextra year hyear).1)
    (occurs_of_mem_eventsFollowing hevent)

/-- A period that ends by the earlier last year has the same events. -/
theorem events_eq_of_cutover (period : Period) (hle : first ≤ last) {cutover : Cutover}
    (hyear : cutover.year ≤ first) (start : Option Int) :
    period.events last (some cutover) start = period.events first (some cutover) start := by
  obtain ⟨extra, hyears, hextra⟩ := period.exists_years_eq_append hle (some cutover) start
  obtain rfl : extra = [] := by
    rw [List.eq_nil_iff_forall_not_mem]
    intro year hmem
    obtain ⟨hbehind, hend⟩ := hextra year hmem
    exact absurd (hend cutover rfl) (by omega)
  rw [events, events, hyears, List.append_nil]

end Period

/-! ## What is laid out before a limit -/

section Limit

variable {events other : List Event} {limit : Int}

theorem filter_inForce_lt (ordered : events.Pairwise fun a b => a.instant ≤ b.instant)
    (start finish : Option Int) :
    (Period.inForce events start finish).filter (fun e => e.instant < limit) =
      (events.filter fun e => e.instant < limit).filter fun e =>
        start.all (fun s => s < e.instant) && finish.all fun f => e.instant < f := by
  rw [Span.inForce_eq]
  cases finish with
  | none =>
    rw [List.filter_filter, List.filter_filter]
    refine List.filter_congr fun e _ => ?_
    rw [Option.all_none, Bool.and_true, Bool.and_comm]
  | some f =>
    dsimp only
    rw [takeWhile_eq_filter (ordered.filter _) (closed_lt f)]
    simp only [List.filter_filter]
    refine List.filter_congr fun e _ => ?_
    rw [Option.all_some]
    ac_rfl

theorem Period.opening_congr (period : Period)
    (ordered : events.Pairwise fun a b => a.instant ≤ b.instant)
    (ordered' : other.Pairwise fun a b => a.instant ≤ b.instant)
    (h : other.filter (fun e => e.instant < limit) = events.filter fun e => e.instant < limit)
    {start : Int} (hstart : start < limit) :
    period.opening other (some start) = period.opening events (some start) := by
  have hby : other.filter (fun e => e.instant ≤ start) =
      events.filter fun e => e.instant ≤ start := by
    refine filter_congr_of_imp (fun e he => ?_) h
    simp only [decide_eq_true_eq] at he ⊢
    omega
  have hlast : lastEffect? other start = lastEffect? events start := by
    rw [lastEffect?, lastEffect?, takeWhile_eq_filter ordered (closed_le start),
      takeWhile_eq_filter ordered' (closed_le start), hby]
  rw [opening, opening, Option.bind_some, Option.bind_some, hlast]

end Limit

namespace Span

variable {period : Period} {cutover : Option Cutover} {start finish : Option Int}
  {events other : List Event} {limit : Int}

/-- What a period adds before a limit depends on its events before the limit, and on its end if that
is before the limit too. -/
theorem filter_added_congr (ordered : events.Pairwise fun a b => a.instant ≤ b.instant)
    (ordered' : other.Pairwise fun a b => a.instant ≤ b.instant)
    (h : other.filter (fun e => e.instant < limit) = events.filter fun e => e.instant < limit)
    {finish' : Option Int} (hfinish : ∀ instant, instant < limit →
      (finish'.all fun f => instant < f) = finish.all fun f => instant < f) :
    (added ⟨period, cutover, start, other⟩ finish').filter (fun t => t.instant < limit) =
      (added ⟨period, cutover, start, events⟩ finish).filter fun t => t.instant < limit := by
  have hopened : (opened ⟨period, cutover, start, other⟩).filter (fun t => t.instant < limit) =
      (opened ⟨period, cutover, start, events⟩).filter fun t => t.instant < limit := by
    cases start with
    | none => rfl
    | some s =>
      by_cases hs : s < limit
      · simp only [opened, opening, period.opening_congr ordered ordered' h hs]
      · simp [opened, hs]
  have hinForce : (Period.inForce other start finish').filter (fun e => e.instant < limit) =
      (Period.inForce events start finish).filter fun e => e.instant < limit := by
    rw [filter_inForce_lt ordered, filter_inForce_lt ordered', h]
    refine List.filter_congr fun e he => ?_
    rw [hfinish e.instant (of_decide_eq_true (List.mem_filter.mp he).2)]
  simp only [added, List.filter_append, List.filter_map, hopened]
  exact congrArg _ (congrArg _ hinForce)

theorem le_of_mem_added {span : Span} {s : Int} (hstart : span.start = some s) {t : Transition}
    (h : t ∈ span.added finish) : s ≤ t.instant := by
  rcases List.mem_append.mp h with hopened | hmem
  · rw [opened, hstart, List.mem_singleton] at hopened
    rw [hopened]
    exact le_rfl
  · obtain ⟨e, he, rfl⟩ := List.mem_map.mp hmem
    have hlt := (List.mem_filter.mp ((inForce_sublist _ _ _).subset he)).2
    rw [hstart, Option.all_some, decide_eq_true_eq] at hlt
    exact hlt.le

end Span

namespace Timeline

variable {first last : Int} {closed : List (Period × Cutover)} {current : Period}

/-- Where all periods that end do so behind a limit, all that is added from there on stands behind
it. -/
theorem le_of_mem_addedFrom {expand : Expansion} {limit start : Int} {t : Transition}
    (hends : ∀ head ∈ closed, ∀ start, limit ≤
      head.1.cutoverInstant head.2 (expand head.1 (some head.2) start) start)
    (hstart : limit ≤ start)
    (h : t ∈ addedFrom expand (closedBefore current closed) (some start)) : limit ≤ t.instant := by
  induction closed generalizing start with
  | nil => exact hstart.trans (Span.le_of_mem_added rfl h)
  | cons head rest ih =>
    obtain ⟨period, cutover⟩ := head
    rw [List.forall_mem_cons] at hends
    rw [closedBefore_cons, addedFrom] at h
    rcases List.mem_append.mp h with hmem | hmem
    · exact hstart.trans (Span.le_of_mem_added rfl hmem)
    · exact ih hends.2 (hends.1 _) hmem

/-- Up to a period that ends in a later year the two layouts go along; behind it, all that either
adds stands behind the last November. -/
theorem filter_addedFrom (hle : first ≤ last) (hcurrent : current.Ordinary)
    (hclosed : ∀ head ∈ closed, head.1.Ordinary ∧ head.2.date.Ordinary)
    (hyears : (closed.map (·.2.year)).Pairwise (· ≤ ·)) (start : Option Int) :
    (addedFrom (fun period => period.events last) (closedBefore current closed) start).filter
        (fun t => t.instant < Calendar.decemberStart first) =
      (addedFrom (fun period => period.events first) (closedBefore current closed) start).filter
        fun t => t.instant < Calendar.decemberStart first := by
  induction closed generalizing start with
  | nil =>
    exact Span.filter_added_congr (pairwise_events _ _ _ _) (pairwise_events _ _ _ _)
      (hcurrent.filter_events hle none start) fun _ _ => rfl
  | cons head rest ih =>
    obtain ⟨period, cutover⟩ := head
    obtain ⟨⟨hperiod, hdate⟩, hrest⟩ := List.forall_mem_cons.mp hclosed
    obtain ⟨hlater, hyears⟩ := List.pairwise_cons.mp hyears
    simp only [closedBefore_cons, addedFrom, List.filter_append]
    by_cases hyear : cutover.year ≤ first
    · rw [period.events_eq_of_cutover hle hyear, ih hrest hyears]
    · have hbehind : ∀ lastYear start, Calendar.decemberStart first ≤
          period.cutoverInstant cutover (period.events lastYear (some cutover) start) start :=
        fun lastYear start =>
          hperiod.decemberStart_le_cutoverInstant hdate (Int.not_le.mp hyear) start
      have hends : ∀ lastYear, ∀ head ∈ rest, ∀ start, Calendar.decemberStart first ≤
          head.1.cutoverInstant head.2 (head.1.events lastYear (some head.2) start) start := by
        intro lastYear head hhead start
        have hnext : cutover.year ≤ head.2.year := hlater _ (List.mem_map_of_mem hhead)
        exact (hrest head hhead).1.decemberStart_le_cutoverInstant (hrest head hhead).2
          (by omega) start
      have hnone : ∀ lastYear start, Calendar.decemberStart first ≤ start →
          (addedFrom (fun period => period.events lastYear) (closedBefore current rest)
            (some start)).filter (fun t => t.instant < Calendar.decemberStart first) = [] := by
        intro lastYear start hstart
        rw [List.filter_eq_nil_iff]
        intro t ht hlt
        have hle : Calendar.decemberStart first ≤ t.instant :=
          le_of_mem_addedFrom (hends lastYear) hstart ht
        exact absurd (of_decide_eq_true hlt) (Int.not_lt.mpr hle)
      rw [hnone last _ (hbehind last start), hnone first _ (hbehind first start)]
      refine congrArg (· ++ []) (Span.filter_added_congr (pairwise_events _ _ _ _)
        (pairwise_events _ _ _ _) (hperiod.filter_events hle _ start) fun instant hlt => ?_)
      rw [Option.all_some, Option.all_some, decide_eq_true (hlt.trans_le (hbehind last start)),
        decide_eq_true (hlt.trans_le (hbehind first start))]

theorem filter_transitions (expand : Expansion) (t : Timeline) (zone : String) (limit : Int) :
    (t.toHistoryBy expand zone).transitions.toList.filter (fun e => e.instant < limit) =
      (overlay (initialState expand t.periods)
        ((t.added expand).filter fun e => e.instant < limit)).reverse := by
  rw [toHistoryBy_eq, List.toList_toArray, List.filter_reverse, filter_overlay]

/-- A later last year adds nothing before the last December. -/
theorem toHistory_of_le (t : Timeline) (hle : t.lastYear ≤ last) (hcurrent : t.current.Ordinary)
    (hclosed : ∀ head ∈ t.closed, head.1.Ordinary ∧ head.2.date.Ordinary)
    (hyears : (t.closed.map (·.2.year)).Pairwise (· ≤ ·)) (zone : String) :
    (toHistory { t with lastYear := last } zone).initial = (t.toHistory zone).initial ∧
      (toHistory { t with lastYear := last } zone).transitions.toList.filter
          (fun e => e.instant < Calendar.decemberStart t.lastYear) =
        (t.toHistory zone).transitions.toList.filter
          fun e => e.instant < Calendar.decemberStart t.lastYear := by
  have hinitial := initialState_congr (fun period => period.events last) t.expansion t.periods
  have hadded := filter_addedFrom hle hcurrent hclosed hyears none
  refine ⟨hinitial, ?_⟩
  rw [toHistory, toHistory, filter_transitions, filter_transitions]
  refine congrArg List.reverse (congr (congrArg overlay hinitial) hadded)

/-! ## What instructions build -/

/-- An instruction that puts nothing out of the ordinary on a timeline. -/
def Instruction.Ordinary : Instruction → Prop
  | setStandardOffset offset => offset ≤ Calendar.dayMillis
  | setFixedSavings fixed => fixed.save ≤ Calendar.dayMillis
  | addRecurrence recurrence =>
    recurrence.effect.save ≤ Calendar.dayMillis ∧ recurrence.date.Ordinary
  | addCutover cutover => cutover.date.Ordinary

instance : (instruction : Instruction) → Decidable instruction.Ordinary
  | .setStandardOffset offset => inferInstanceAs (Decidable (offset ≤ Calendar.dayMillis))
  | .setFixedSavings fixed => inferInstanceAs (Decidable (fixed.save ≤ Calendar.dayMillis))
  | .addRecurrence recurrence => inferInstanceAs
    (Decidable (recurrence.effect.save ≤ Calendar.dayMillis ∧ recurrence.date.Ordinary))
  | .addCutover cutover => inferInstanceAs (Decidable cutover.date.Ordinary)

def Instruction.cutover? : Instruction → Option Cutover
  | addCutover cutover => some cutover
  | _ => none

/-- The years of the cutovers, in their order. -/
def cutoverYears (instructions : List Instruction) : List Int :=
  instructions.filterMap fun instruction => instruction.cutover?.map (·.year)

theorem cutoverYears_build (lastYear : Int) (instructions : List Instruction) :
    (build lastYear instructions).closed.map (·.2.year) = cutoverYears instructions := by
  induction instructions using List.reverseRecOn with
  | nil => rfl
  | append_singleton instructions instruction ih =>
    rw [build_concat, cutoverYears, List.filterMap_append, ← cutoverYears, ← ih]
    cases instruction <;> simp [apply, addCutover, setStandardOffset, setFixedSavings,
      addRecurrence, Instruction.cutover?]

theorem ordinary_of_builtBy {instructions : List Instruction} {period : Period}
    (h : ∀ instruction ∈ instructions, instruction.Ordinary)
    (hbuilt : period.BuiltBy instructions) : period.Ordinary where
  offset := by
    rcases hbuilt.offset with hzero | hmem
    · rw [hzero]
      decide
    · exact h _ hmem
  fixed fixed hfixed := h _ (hbuilt.fixed fixed hfixed)
  recurrences recurrence hmem := h _ (hbuilt.recurrences recurrence hmem)

/-- Laid out to a later last year, what the same instructions build begins in the same state and has
the same transitions up to the December of the earlier one. For this the clocks are at most a day
ahead, the times at most a week before their days, and the years of the cutovers in order. -/
theorem toHistory_build_of_le {first last : Int} (hle : first ≤ last)
    {instructions : List Instruction}
    (hordinary : ∀ instruction ∈ instructions, instruction.Ordinary)
    (hyears : (cutoverYears instructions).Pairwise (· ≤ ·)) (zone : String) :
    ((build last instructions).toHistory zone).initial =
        ((build first instructions).toHistory zone).initial ∧
      ((build last instructions).toHistory zone).transitions.toList.filter
          (fun t => t.instant < Calendar.decemberStart first) =
        ((build first instructions).toHistory zone).transitions.toList.filter
          fun t => t.instant < Calendar.decemberStart first := by
  obtain ⟨hcurrent, hclosed⟩ := builtBy_build first instructions
  have hfirst : (build first instructions).lastYear = first := lastYear_build first instructions
  rw [← cutoverYears_build first] at hyears
  have hhistory := toHistory_of_le (build first instructions) (hfirst.symm ▸ hle)
    (ordinary_of_builtBy hordinary hcurrent)
    (fun head hhead => ⟨ordinary_of_builtBy hordinary (hclosed head hhead).1,
      hordinary _ (hclosed head hhead).2⟩)
    hyears zone
  rw [hfirst, ← build_eq first last] at hhistory
  exact hhistory

/-- Standard time from 1972 on, and summer time from June 2007 on. -/
def lateSummer : List Instruction :=
  [.setFixedSavings ⟨"LMT", 0⟩,
    .addCutover ⟨1972, ⟨1, 1, 0, false, 0, .universal⟩⟩,
    .setFixedSavings ⟨"XST", 0⟩,
    .addRecurrence ⟨⟨3600000, "XDT"⟩, 2007, 2007, ⟨6, 1, 0, false, 0, .wall⟩⟩]

/-- Laid out to 2007 there is one transition more, and the one of 1972 stays. -/
theorem toHistory_build_lateSummer :
    (∀ instruction ∈ lateSummer, instruction.Ordinary) ∧
      (cutoverYears lateSummer).Pairwise (· ≤ ·) ∧
      ((build 2006 lateSummer).toHistory "Test/Zone").transitions.toList.map (·.instant) =
        [63072000000] ∧
      ((build 2007 lateSummer).toHistory "Test/Zone").transitions.toList.map (·.instant) =
        [63072000000, 1180656000000] ∧
      ((build 2007 lateSummer).toHistory "Test/Zone").transitions.toList.filter
          (fun t => t.instant < Calendar.decemberStart 2006) =
        ((build 2006 lateSummer).toHistory "Test/Zone").transitions.toList.filter
          fun t => t.instant < Calendar.decemberStart 2006 := by
  have hordinary : ∀ instruction ∈ lateSummer, instruction.Ordinary := by decide
  have hyears : (cutoverYears lateSummer).Pairwise (· ≤ ·) := by decide
  refine ⟨hordinary, hyears, by decide +kernel, by decide +kernel, ?_⟩
  exact (toHistory_build_of_le (by decide) hordinary hyears "Test/Zone").2

end Timeline

end ZoneHistory
