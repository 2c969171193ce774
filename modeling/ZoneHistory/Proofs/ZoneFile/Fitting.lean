import ZoneHistory.Proofs.Building
import ZoneHistory.Proofs.Calendar
import ZoneHistory.Proofs.Compilation.Independent
import ZoneHistory.Proofs.Effects
import ZoneHistory.Proofs.Feed
import ZoneHistory.Proofs.ZoneFile

/-!
# Histories that fit a zone file

Every transition of a history shows an effect of one of the periods, at an occurrence of a
recurrence or at a cutover. So bounds of what instructions say are bounds of the offsets, names and
instants of the history that they build, and of the number of its transitions.
-/
namespace ZoneHistory

/-! ## Where transitions come from -/

namespace Timeline

variable {expand : Expansion} {periods : List (Period × Option Cutover)} {start : Option Int}

/-- Each place is that of a period, and starts where all of them do or where one of them ends. -/
theorem place_of_mem_spansFrom {span : Span} (h : span ∈ spansFrom expand periods start) :
    (span.period, span.cutover) ∈ periods ∧
      (span.start = start ∨ ∃ period cutover before, (period, some cutover) ∈ periods ∧
        span.start =
          some (period.cutoverInstant cutover (expand period (some cutover) before) before)) := by
  fun_induction spansFrom expand periods start with
  | case1 => cases h
  | case2 period rest start =>
    rw [List.mem_singleton] at h
    rw [h]
    exact ⟨List.mem_cons_self, Or.inl rfl⟩
  | case3 period cutover rest start events ih =>
    rcases List.mem_cons.mp h with rfl | h
    · exact ⟨List.mem_cons_self, Or.inl rfl⟩
    · obtain ⟨hmem, hstart⟩ := ih h
      refine ⟨List.mem_cons_of_mem _ hmem, Or.inr ?_⟩
      rcases hstart with hstart | ⟨other, end', before, hother, hstart⟩
      · exact ⟨period, cutover, start, List.mem_cons_self, hstart⟩
      · exact ⟨other, end', before, List.mem_cons_of_mem _ hother, hstart⟩

/-- A transition that is laid out is that into a period or an event of it. -/
theorem exists_of_mem_added {span : Span} {finish : Option Int} {t : Transition}
    (h : t ∈ span.added finish) :
    (∃ s, span.start = some s ∧ t = span.period.transition s span.opening) ∨
      ∃ e ∈ span.events, t = span.period.transition e.instant e.effect := by
  rcases List.mem_append.mp h with hopened | hmem
  · rw [Span.opened] at hopened
    split at hopened
    · next s hs => exact Or.inl ⟨s, hs, List.mem_singleton.mp hopened⟩
    · cases hopened
  · obtain ⟨e, he, rfl⟩ := List.mem_map.mp hmem
    exact Or.inr ⟨e, (List.mem_filter.mp ((Span.inForce_sublist _ _ _).subset he)).1, rfl⟩

theorem exists_span_of_mem_addedFrom {t : Transition} (h : t ∈ addedFrom expand periods start) :
    ∃ span ∈ spansFrom expand periods start, ∃ finish, t ∈ span.added finish := by
  fun_induction addedFrom expand periods start with
  | case1 => cases h
  | case2 period rest start => exact ⟨_, List.mem_cons_self, none, h⟩
  | case3 period cutover rest start events finish ih =>
    rcases List.mem_append.mp h with h | h
    · exact ⟨_, List.mem_cons_self, _, h⟩
    · obtain ⟨span, hspan, other, hmem⟩ := ih h
      exact ⟨span, List.mem_cons_of_mem _ hspan, other, hmem⟩

theorem length_added_le (span : Span) (finish : Option Int) :
    (span.added finish).length ≤ 1 + span.events.length := by
  have hopened : span.opened.length ≤ 1 := by
    rw [Span.opened]
    split <;> simp
  have hinForce : (Period.inForce span.events span.start finish).length ≤ span.events.length :=
    (Span.inForce_sublist _ _ _).length_le.trans (List.length_filter_le _ _)
  rw [Span.added, List.length_append, List.length_map]
  omega

theorem length_addedFrom_le {most : Nat} (h : ∀ period cutover start,
      (expand period cutover start).length ≤ most * period.recurrences.length)
    (periods : List (Period × Option Cutover)) (start : Option Int) :
    (addedFrom expand periods start).length ≤
      periods.length + most * (periods.flatMap fun head => head.1.recurrences).length := by
  fun_induction addedFrom expand periods start with
  | case1 => exact Nat.zero_le _
  | case2 period rest start =>
    have hspan := length_added_le ⟨period, none, start, expand period none start⟩ none
    have hevents := h period none start
    rw [List.length_cons, List.flatMap_cons, List.length_append, Nat.mul_add]
    dsimp only at hspan ⊢
    omega
  | case3 period cutover rest start events finish ih =>
    have hspan := length_added_le ⟨period, some cutover, start, events⟩ (some finish)
    have hevents : events.length ≤ most * period.recurrences.length := h period (some cutover) start
    rw [List.length_append, List.length_cons, List.flatMap_cons, List.length_append, Nat.mul_add]
    dsimp only at hspan ⊢
    omega

theorem exists_mem_initialState (expand : Expansion) (h : periods ≠ []) :
    ∃ span ∈ spansFrom expand periods none,
      initialState expand periods = span.period.transition 0 span.opening := by
  cases periods with
  | nil => exact absurd rfl h
  | cons head rest =>
    obtain ⟨period, _ | cutover⟩ := head
    · exact ⟨_, List.mem_cons_self, rfl⟩
    · exact ⟨_, List.mem_cons_self, rfl⟩

/-- All that a history holds is the opening or an event of a period in its place. -/
theorem exists_of_mem_toHistory {t : Timeline} {zone : String} {e : Transition}
    (h : e ∈ (t.toHistory zone).initial :: (t.toHistory zone).transitions.toList) :
    ∃ span ∈ t.spans t.expansion,
      (∃ instant, (instant = 0 ∨ span.start = some instant) ∧
        e = span.period.transition instant span.opening) ∨
      ∃ event ∈ span.events, e = span.period.transition event.instant event.effect := by
  rcases List.mem_cons.mp h with rfl | hmem
  · obtain ⟨span, hspan, hinitial⟩ := exists_mem_initialState t.expansion
      (List.append_ne_nil_of_right_ne_nil _ (List.cons_ne_nil _ _))
    exact ⟨span, hspan, Or.inl ⟨0, Or.inl rfl, hinitial⟩⟩
  · rw [toHistory, toHistoryBy_eq, List.toList_toArray, List.mem_reverse] at hmem
    obtain ⟨span, hspan, finish, hadded⟩ := exists_span_of_mem_addedFrom (mem_of_mem_overlay hmem)
    refine ⟨span, hspan, (exists_of_mem_added hadded).imp_left ?_⟩
    rintro ⟨instant, hstart, heq⟩
    exact ⟨instant, Or.inr hstart, heq⟩

end Timeline

/-! ## Bounds of what instructions say -/

/-- The number is at most so far from zero. -/
def Within (bound x : Int) : Prop := -bound ≤ x ∧ x ≤ bound

instance (bound x : Int) : Decidable (Within bound x) :=
  inferInstanceAs (Decidable (-bound ≤ x ∧ x ≤ bound))

/-- The day and the time are not beyond all measure. -/
structure DateSpec.Modest (spec : DateSpec) : Prop where
  day : -1 ≤ spec.day ∧ spec.day ≤ 1000000000
  time : Within 1000000000000000 spec.time

/-- Savings of less than 278 hours, and a name that can be stored. -/
structure Effect.Modest (effect : Effect) : Prop where
  save : Within 1000000000 effect.save
  name : effect.name.utf8ByteSize ≤ 65535

/-- Offsets of less than 278 hours, names that can be stored, and modest dates and years. -/
def Timeline.Instruction.Modest : Timeline.Instruction → Prop
  | setStandardOffset offset => Within 1000000000 offset
  | setFixedSavings fixed => fixed.effect.Modest
  | addRecurrence recurrence => recurrence.effect.Modest ∧ recurrence.date.Modest
  | addCutover cutover => Within 100000000 cutover.year ∧ cutover.date.Modest

theorem DateSpec.Modest.within_localMillis {spec : DateSpec} (h : spec.Modest)
    (hmonth : 1 ≤ spec.month ∧ spec.month ≤ 12) {year : Int} (hyear : Within 100000000 year) :
    Within 4000000000000000000 (spec.localMillis year) := by
  obtain ⟨hday, htime⟩ := h
  have hnewYear := Calendar.newYear_bounds hyear.1 hyear.2
  have hlocal := localMillis_bounds year hmonth hday.1
  rw [Calendar.dayMillis] at hlocal
  rw [Within] at *
  omega

theorem Clock.within_offset (clock : Clock) {standardOffset save : Int}
    (hoffset : Within 1000000000 standardOffset) (hsave : Within 1000000000 save) :
    Within 2000000000 (clock.offset standardOffset save) := by
  rw [Within] at *
  cases clock <;> rw [offset] <;> omega

namespace Period.BuiltBy

variable {period : Period} {instructions : List Timeline.Instruction} {lastYear : Int}
  {start : Option Int} (h : period.BuiltBy instructions)
  (hmodest : ∀ instruction ∈ instructions, instruction.Modest)

include h hmodest

/-- All effects of a period are modest, also the one that it has if there is no other. -/
theorem modest_effects : ∀ effect ∈ period.effects, effect.Modest := by
  rw [Period.forall_mem_effects]
  exact ⟨fun recurrence hmem => (hmodest _ (h.recurrences recurrence hmem)).1,
    fun fixed hmem => hmodest _ (h.fixed fixed hmem), ⟨by decide, by decide⟩⟩

theorem within_standardOffset : Within 1000000000 period.standardOffset := by
  rcases h.offset with hzero | hmem
  · rw [hzero]
    decide
  · exact hmodest _ hmem

/-- A modest date, read on a clock of the period, is an instant that can be stored. -/
theorem within_instant {effect : Effect} (heffect : effect ∈ period.effects) {spec : DateSpec}
    (hspec : spec.Modest) (hcalendar : spec.InCalendar) {year : Int}
    (hyear : Within 100000000 year) :
    Within 5000000000000000000
      (spec.localMillis year - spec.clock.offset period.standardOffset effect.save) := by
  have hlocal := hspec.within_localMillis hcalendar.month hyear
  have hoffset := spec.clock.within_offset (h.within_standardOffset hmodest)
    (h.modest_effects hmodest effect heffect).save
  rw [Within] at *
  omega

variable (hcalendar : ∀ instruction ∈ instructions, instruction.InCalendar)

include hcalendar

theorem within_event (hlast : lastYear ≤ 100000000) {cutover : Option Cutover} {event : Event}
    (hevent : event ∈ period.events lastYear cutover start) :
    Within 5000000000000000000 event.instant := by
  obtain ⟨year, hyear, recurrence, hmem, effect, heffect, -, rfl⟩ :=
    Period.occurs_of_mem_events hevent
  have hbounds := Period.bounds_of_mem_years hyear
  have hinstruction := h.recurrences recurrence hmem
  refine h.within_instant hmodest heffect (hmodest _ hinstruction).2 (hcalendar _ hinstruction) ?_
  rw [Period.firstYear] at hbounds
  rw [Within]
  omega

theorem within_cutoverInstant {cutover : Cutover} (hcutover : .addCutover cutover ∈ instructions) :
    Within 5000000000000000000
      (period.cutoverInstant cutover (period.events lastYear (some cutover) start) start) := by
  obtain ⟨effect, heffect, hinstant⟩ := Period.exists_cutoverInstant_eq
    (fun _ => Period.effect_mem_of_mem_events) cutover start
  rw [hinstant]
  exact h.within_instant hmodest heffect (hmodest _ hcutover).2 (hcalendar _ hcutover)
    (hmodest _ hcutover).1

end Period.BuiltBy

/-! ## Histories of modest instructions -/

/-- Each value fits its field in a zone file. -/
structure Transition.Storable (t : Transition) : Prop where
  instant : -2 ^ 63 ≤ t.instant ∧ t.instant < 2 ^ 63
  wallOffset : -2 ^ 31 ≤ t.wallOffset ∧ t.wallOffset < 2 ^ 31
  standardOffset : -2 ^ 31 ≤ t.standardOffset ∧ t.standardOffset < 2 ^ 31
  name : t.name.utf8ByteSize ≤ 65535

theorem Period.storable_transition {period : Period} {effect : Effect} {instant : Int}
    (hoffset : Within 1000000000 period.standardOffset) (heffect : effect.Modest)
    (hinstant : Within 5000000000000000000 instant) :
    (period.transition instant effect).Storable := by
  obtain ⟨hsave, hname⟩ := heffect
  rw [Within] at hoffset hsave hinstant
  have hfits : -2 ^ 63 ≤ instant ∧ instant < 2 ^ 63 := by omega
  have hwall : -2 ^ 31 ≤ period.standardOffset + effect.save ∧
      period.standardOffset + effect.save < 2 ^ 31 := by omega
  have hstandard : -2 ^ 31 ≤ period.standardOffset ∧ period.standardOffset < 2 ^ 31 := by omega
  exact ⟨hfits, hwall, hstandard, hname⟩

namespace Timeline

variable {lastYear : Int} {instructions : List Instruction}

section Places

variable (hmodest : ∀ instruction ∈ instructions, instruction.Modest)
  (hcalendar : ∀ instruction ∈ instructions, instruction.InCalendar)

include hmodest hcalendar

theorem within_start {span : Span}
    (h : span ∈ (build lastYear instructions).spans (build lastYear instructions).expansion)
    {instant : Int} (hstart : span.start = some instant) :
    Within 5000000000000000000 instant := by
  obtain ⟨-, hnone | ⟨period, cutover, before, hends, hfinish⟩⟩ := place_of_mem_spansFrom h
  · rw [hnone] at hstart
    cases hstart
  · obtain ⟨hbuilt, hcutover⟩ := builtBy_of_mem_periods hends
    rw [hfinish, Option.some.injEq, expansion, lastYear_build] at hstart
    rw [← hstart]
    exact hbuilt.within_cutoverInstant hmodest hcalendar (hcutover cutover rfl)

theorem storable_of_mem_toHistory (hlast : lastYear ≤ 100000000) (zone : String) :
    ∀ e ∈ ((build lastYear instructions).toHistory zone).initial ::
      ((build lastYear instructions).toHistory zone).transitions.toList, e.Storable := by
  intro e he
  obtain ⟨span, hspan, hshown⟩ := exists_of_mem_toHistory he
  have hbuilt := (builtBy_of_mem_periods (place_of_mem_spansFrom hspan).1).1
  have hevents := events_of_mem_spansFrom hspan
  rw [expansion, lastYear_build] at hevents
  have heffects : ∀ event ∈ span.events, event.effect ∈ span.period.effects := by
    intro event hevent
    rw [hevents] at hevent
    exact Period.effect_mem_of_mem_events hevent
  have hoffset := hbuilt.within_standardOffset hmodest
  rcases hshown with ⟨instant, hinstant, rfl⟩ | ⟨event, hevent, rfl⟩
  · have hopening : span.opening.Modest := hbuilt.modest_effects hmodest _
      (Period.opening_mem_effects heffects span.start)
    refine Period.storable_transition hoffset hopening ?_
    rcases hinstant with rfl | hstart
    · decide
    · exact within_start hmodest hcalendar hspan hstart
  · have heffect : event.effect.Modest := hbuilt.modest_effects hmodest _ (heffects event hevent)
    refine Period.storable_transition hoffset heffect ?_
    rw [hevents] at hevent
    exact hbuilt.within_event hmodest hcalendar hlast hevent

end Places

/-- There are at most as many transitions as periods, and one more for each recurrence and year. -/
theorem size_toHistory_build_le (lastYear : Int) (instructions : List Instruction) (zone : String) :
    ((build lastYear instructions).toHistory zone).transitions.size ≤
      ((lastYear + 1 - Period.firstYear).toNat + 1) * (instructions.length + 1) := by
  have hbuilt := length_periods_build lastYear instructions
  have hadded := length_addedFrom_le (fun period => period.length_events_le lastYear)
    (build lastYear instructions).periods none
  rw [toHistory, toHistoryBy_eq, List.size_toArray, List.length_reverse, added, lastYear_build]
  refine (length_overlay_le _ _).trans (hadded.trans ?_)
  rw [Nat.succ_mul, Nat.add_comm]
  refine Nat.add_le_add (Nat.mul_le_mul_left _ ?_) ?_ <;> omega

end Timeline

/-- The name of a zone and what it is fed with are modest, and it is not too much in too many
years. -/
structure Zone.Modest (ruleSets : Keyed RuleSet) (lastYear : Int) (zone : Zone) : Prop where
  name : zone.name.utf8ByteSize ≤ 65535
  years : lastYear ≤ 100000000
  instructions : ∀ instruction ∈ (zone.feed ruleSets).instructions, instruction.Modest
  count : ((lastYear + 1 - Period.firstYear).toNat + 1) *
    ((zone.feed ruleSets).instructions.length + 1) ≤ 2 ^ 32 - 1

theorem Zone.Modest.storable {ruleSets : Keyed RuleSet} {lastYear : Int} {zone : Zone}
    (h : zone.Modest ruleSets lastYear)
    (hcalendar : ∀ instruction ∈ (zone.feed ruleSets).instructions, instruction.InCalendar) :
    ZoneFile.Storable (zone.built ruleSets lastYear) := by
  have hall := Timeline.storable_of_mem_toHistory h.instructions hcalendar h.years zone.name
  exact {
    zone := h.name
    count := (Timeline.size_toHistory_build_le lastYear _ zone.name).trans h.count
    wallOffsets := fun t ht => (hall t ht).wallOffset
    standardOffsets := fun t ht => (hall t ht).standardOffset
    names := fun t ht => (hall t ht).name
    instants := fun t ht => (hall t (List.mem_cons_of_mem _ ht)).instant }

end ZoneHistory
