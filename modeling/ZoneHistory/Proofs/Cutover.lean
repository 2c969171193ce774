import ZoneHistory.Proofs.Effects

/-!
# Ends read on the wall clock

The end of a period is a local time, and on the wall clock the instant that it means depends on the
savings just before that instant. The layout reads it once, with the savings in force when the clock
without savings shows it. That is right exactly if the savings are still the same just before the
instant found, and so it is wherever the savings are none or of one size; with two sizes of savings
an event between the two instants can mislead it.
-/
namespace ZoneHistory.Period

variable {period : Period} {cutover : Cutover} {events : List Event} {start : Option Int}

/-- The savings of the last event before an instant, or else those with which the period opens. -/
def savingsBefore (period : Period) (events : List Event) (start : Option Int) (instant : Int) :
    Int :=
  ((events.filter fun e => e.instant < instant).getLast?.map (·.effect.save)).getD
    (period.opening events start).save

/-- When the clock without savings shows the local time of a cutover. -/
def standardReading (period : Period) (cutover : Cutover) : Int :=
  cutover.date.localMillis cutover.year - period.standardOffset

/-- With the savings in force just before an instant, the clock shows there the local time of a
cutover. -/
def EndsAt (period : Period) (cutover : Cutover) (events : List Event) (start : Option Int)
    (instant : Int) : Prop :=
  instant = cutover.date.localMillis cutover.year - period.standardOffset -
    period.savingsBefore events start instant

instance (period : Period) (cutover : Cutover) (events : List Event) (start : Option Int)
    (instant : Int) : Decidable (period.EndsAt cutover events start instant) :=
  inferInstanceAs (Decidable (_ = _))

theorem endsAt_iff {instant : Int} :
    period.EndsAt cutover events start instant ↔
      instant = period.standardReading cutover - period.savingsBefore events start instant :=
  Iff.rfl

theorem saveBefore_eq (ordered : events.Pairwise fun a b => a.instant ≤ b.instant)
    (instant : Int) :
    period.saveBefore events start instant = period.savingsBefore events start instant := by
  rw [saveBefore, savingsBefore, takeWhile_eq_filter ordered (closed_lt instant)]
  cases (events.filter fun e => decide (e.instant < instant)).getLast? <;> rfl

theorem cutoverInstant_eq (ordered : events.Pairwise fun a b => a.instant ≤ b.instant)
    (hwall : cutover.date.clock = .wall) :
    period.cutoverInstant cutover events start = period.standardReading cutover -
      period.savingsBefore events start (period.standardReading cutover) := by
  simp only [cutoverInstant, hwall, saveBefore_eq ordered, standardReading]

/-- The savings before two instants differ only if something occurs between them. -/
theorem savingsBefore_congr {a b : Int}
    (h : ∀ e ∈ events, ¬ (min a b ≤ e.instant ∧ e.instant < max a b)) :
    period.savingsBefore events start a = period.savingsBefore events start b := by
  have hevents : events.filter (fun e => e.instant < a) = events.filter fun e => e.instant < b := by
    refine List.filter_congr fun e he => ?_
    have hbetween := h e he
    rw [decide_eq_decide]
    omega
  rw [savingsBefore, savingsBefore, hevents]

section Wall

variable (ordered : events.Pairwise fun a b => a.instant ≤ b.instant)
  (hwall : cutover.date.clock = .wall)

include ordered hwall

theorem endsAt_cutoverInstant_iff :
    period.EndsAt cutover events start (period.cutoverInstant cutover events start) ↔
      period.savingsBefore events start (period.cutoverInstant cutover events start) =
        period.savingsBefore events start (period.standardReading cutover) := by
  have hfinish : period.cutoverInstant cutover events start = period.standardReading cutover -
      period.savingsBefore events start (period.standardReading cutover) :=
    cutoverInstant_eq ordered hwall
  rw [endsAt_iff]
  omega

/-- An instant at which the clock shows the cutover is missed only by savings of two sizes: some
before that instant, and others when the clock without savings shows it. -/
theorem endsAt_cutoverInstant_of_endsAt {instant : Int}
    (hends : period.EndsAt cutover events start instant)
    (hsavings : period.savingsBefore events start instant = 0 ∨
      period.savingsBefore events start (period.standardReading cutover) = 0 ∨
      period.savingsBefore events start instant =
        period.savingsBefore events start (period.standardReading cutover)) :
    period.EndsAt cutover events start (period.cutoverInstant cutover events start) := by
  have hfinish : period.cutoverInstant cutover events start = period.standardReading cutover -
      period.savingsBefore events start (period.standardReading cutover) :=
    cutoverInstant_eq ordered hwall
  rw [endsAt_iff] at hends
  rw [endsAt_cutoverInstant_iff ordered hwall, hfinish]
  rcases hsavings with hnone | hnone | hsame
  · -- Without savings the clock shows what the clock without savings shows.
    rw [hnone, Int.sub_zero] at hends
    rw [hends] at hnone
    rw [hnone, Int.sub_zero, hnone]
  · rw [hnone, Int.sub_zero, hnone]
  · rw [← hsame, ← hends]

end Wall

theorem exists_savingsBefore_eq {lastYear : Int} (instant : Int) :
    ∃ effect ∈ period.effects,
      period.savingsBefore (period.events lastYear (some cutover) start) start instant =
        effect.save := by
  rw [← saveBefore_eq (Timeline.pairwise_events _ _ _ _)]
  exact exists_saveBefore_eq (fun _ => effect_mem_of_mem_events) start instant

/-- The end of a period on the wall clock is read with the savings in force when the clock without
savings shows it, so the clock shows it at the instant found exactly if the savings just before that
instant are the same; they are if nothing occurs between the two. Where the clock shows it at all, it
does so at the instant found exactly if it also does at an instant before which there are no savings,
or the same, or if there are none when the clock without savings shows it; so it does in a period
whose savings have one size. -/
theorem endsAt_cutoverInstant (period : Period) {cutover : Cutover}
    (hwall : cutover.date.clock = .wall) (lastYear : Int) (start : Option Int) :
    let events := period.events lastYear (some cutover) start
    let finish := period.cutoverInstant cutover events start
    let reading := period.standardReading cutover
    let savings := period.savingsBefore events start
    (period.EndsAt cutover events start finish ↔ savings finish = savings reading) ∧
    ((∀ e ∈ events, ¬ (min finish reading ≤ e.instant ∧ e.instant < max finish reading)) →
      period.EndsAt cutover events start finish) ∧
    ((∃ instant, period.EndsAt cutover events start instant) →
      (period.EndsAt cutover events start finish ↔
        ∃ instant, period.EndsAt cutover events start instant ∧
          (savings instant = 0 ∨ savings reading = 0 ∨ savings instant = savings reading))) ∧
    ∀ size, (∀ effect ∈ period.effects, effect.save = 0 ∨ effect.save = size) →
      (∃ instant, period.EndsAt cutover events start instant) →
        period.EndsAt cutover events start finish := by
  intro events finish reading savings
  have ordered : events.Pairwise fun a b => a.instant ≤ b.instant :=
    Timeline.pairwise_events period lastYear (some cutover) start
  have hiff : period.EndsAt cutover events start finish ↔ savings finish = savings reading :=
    endsAt_cutoverInstant_iff ordered hwall
  refine ⟨hiff, fun hnone => hiff.mpr (savingsBefore_congr hnone), fun _ => ⟨fun hends => ?_, ?_⟩,
    ?_⟩
  · exact ⟨finish, hends, Or.inr (Or.inr (hiff.mp hends))⟩
  · rintro ⟨instant, hends, hsavings⟩
    exact endsAt_cutoverInstant_of_endsAt ordered hwall hends hsavings
  · rintro size hsize ⟨instant, hends⟩
    obtain ⟨before, hbefore, hinstant⟩ : ∃ effect ∈ period.effects, savings instant = effect.save :=
      exists_savingsBefore_eq instant
    obtain ⟨shown, hshown, hreading⟩ : ∃ effect ∈ period.effects, savings reading = effect.save :=
      exists_savingsBefore_eq reading
    refine endsAt_cutoverInstant_of_endsAt ordered hwall hends ?_
    have hleft := hsize before hbefore
    have hright := hsize shown hshown
    change savings instant = 0 ∨ savings reading = 0 ∨ savings instant = savings reading
    omega

/-- Summer time from October 1998 to March 1999. -/
def oneSummer : Period :=
  { recurrences := [⟨⟨3600000, "XDT"⟩, 1998, 1998, ⟨10, 1, 0, false, 0, .universal⟩⟩,
      ⟨⟨0, "XST"⟩, 1999, 1999, ⟨3, 1, 0, false, 3600000, .universal⟩⟩] }

/-- An end in the hour that the clock shows twice. -/
def inRepeatedHour : Cutover := ⟨1999, ⟨3, 1, 0, false, 5400000, .wall⟩⟩

theorem events_oneSummer :
    oneSummer.events 2100 (some inRepeatedHour) none =
      [⟨907200000000, ⟨3600000, "XDT"⟩⟩, ⟨920250000000, ⟨0, "XST"⟩⟩] := by
  refine eventsIn_of_pairwise ?_ ?_
  · decide +kernel
  · decide

/-- The clock shows the end an hour before the instant found, and again at that instant. -/
theorem endsAt_cutoverInstant_inRepeatedHour :
    inRepeatedHour.date.clock = .wall ∧
      (∀ effect ∈ oneSummer.effects, effect.save = 0 ∨ effect.save = 3600000) ∧
      let events := oneSummer.events 2100 (some inRepeatedHour) none
      oneSummer.EndsAt inRepeatedHour events none 920248200000 ∧
        oneSummer.cutoverInstant inRepeatedHour events none = 920251800000 ∧
        oneSummer.EndsAt inRepeatedHour events none
          (oneSummer.cutoverInstant inRepeatedHour events none) := by
  have hsize : ∀ effect ∈ oneSummer.effects, effect.save = 0 ∨ effect.save = 3600000 := by decide
  have hfirst : oneSummer.EndsAt inRepeatedHour
      (oneSummer.events 2100 (some inRepeatedHour) none) none 920248200000 := by
    rw [events_oneSummer]
    decide
  refine ⟨rfl, hsize, hfirst, ?_, ?_⟩
  · rw [events_oneSummer]
    decide
  · exact (endsAt_cutoverInstant oneSummer rfl 2100 none).2.2.2 3600000 hsize ⟨_, hfirst⟩

/-- Summer time from 1999 on, and double summer time from the beginning of June 2000. -/
def doubleSummer : Period :=
  { recurrences := [⟨⟨0, "GMT"⟩, 1998, 1998, ⟨1, 1, 0, false, 0, .universal⟩⟩,
      ⟨⟨3600000, "BST"⟩, 1999, 1999, ⟨4, 1, 0, false, 0, .universal⟩⟩,
      ⟨⟨7200000, "BDST"⟩, 2000, 2000, ⟨6, 1, 0, false, 0, .universal⟩⟩] }

/-- Half an hour before double summer time, on the clock of summer time. -/
def beforeDoubleSummer : Cutover := ⟨2000, ⟨6, 1, 0, false, 1800000, .wall⟩⟩

theorem events_doubleSummer :
    doubleSummer.events 2100 (some beforeDoubleSummer) none =
      [⟨883612800000, ⟨0, "GMT"⟩⟩, ⟨922924800000, ⟨3600000, "BST"⟩⟩,
        ⟨959817600000, ⟨7200000, "BDST"⟩⟩] := by
  refine eventsIn_of_pairwise ?_ ?_
  · decide +kernel
  · decide

/-- The clock without savings shows the end when double summer time has begun. So the end is put two
hours before, and not one hour, where the clock would show it. -/
theorem doubleSummer_misses_end :
    let events := doubleSummer.events 2100 (some beforeDoubleSummer) none
    beforeDoubleSummer.date.clock = .wall ∧
      doubleSummer.EndsAt beforeDoubleSummer events none 959815800000 ∧
      doubleSummer.cutoverInstant beforeDoubleSummer events none = 959812200000 ∧
      ¬ doubleSummer.EndsAt beforeDoubleSummer events none
        (doubleSummer.cutoverInstant beforeDoubleSummer events none) := by
  rw [events_doubleSummer]
  decide

end ZoneHistory.Period
