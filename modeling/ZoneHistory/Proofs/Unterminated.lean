import ZoneHistory.Proofs.Compilation.Independent
import ZoneHistory.Proofs.Effects
import ZoneHistory.Proofs.UsableNames

/-!
# Zones without a last era

If all eras of a zone end, an empty period follows them, without an offset, savings or a name. A
zone shows it from the end of its last era on, and is refused if it does so first inside the window
that verification looks at. What comes after the window is not looked at.
-/
namespace ZoneHistory

/-- Every era of the zone has an end. -/
def Zone.Unterminated (zone : Zone) : Prop := ∀ era ∈ zone.eras, era.cutover.isSome = true

instance (zone : Zone) : Decidable zone.Unterminated :=
  inferInstanceAs (Decidable (∀ era ∈ zone.eras, era.cutover.isSome = true))

/-! ## What follows the last end -/

theorem Span.effectAt_mem_effects (span : Span)
    (h : ∀ event ∈ span.events, event.effect ∈ span.period.effects) (instant : Int) :
    span.effectAt instant ∈ span.period.effects := by
  rw [effectAt]
  split
  · next event hlast => exact h event (List.mem_filter.mp (List.mem_of_getLast? hlast)).1
  · exact Period.opening_mem_effects h span.start

theorem lastBegun_of_getLast? {spans : List Span} {last : Span} {instant : Int}
    (hlast : spans.getLast? = some last) (hbegun : last.hasBegun instant = true) :
    lastBegun spans instant = some last := by
  obtain ⟨before, rfl⟩ := List.getLast?_eq_some_iff.mp hlast
  have hkept : [last].filter (fun span => span.hasBegun instant) = [last] :=
    List.filter_cons_of_pos hbegun
  rw [lastBegun, List.filter_append, hkept, List.getLast?_concat]

namespace Timeline

/-- The last period of a timeline that has others before it starts at some instant. -/
theorem exists_getLast?_spansFrom (expand : Expansion) {closed : List (Period × Cutover)}
    (hclosed : closed ≠ []) (current : Period) (start : Option Int) :
    ∃ finish, (spansFrom expand (closedBefore current closed) start).getLast? =
      some ⟨current, none, some finish, expand current none (some finish)⟩ := by
  induction closed generalizing start with
  | nil => exact absurd rfl hclosed
  | cons head rest ih =>
    obtain ⟨period, cutover⟩ := head
    simp only [closedBefore_cons, spansFrom]
    generalize period.cutoverInstant cutover (expand period (some cutover) start) start = finish
    cases rest with
    | nil => exact ⟨finish, rfl⟩
    | cons next rest =>
      obtain ⟨finish', hlast⟩ := ih (List.cons_ne_nil _ _) (some finish)
      refine ⟨finish', ?_⟩
      rw [List.getLast?_cons, hlast]
      rfl

/-- The instant at which the last period starts, unless there is no other. -/
def lastStart? (t : Timeline) : Option Int := (t.spans t.expansion).getLast?.bind (·.start)

/-- From its start on, an empty last period shows no offset and no name. -/
theorem exists_lastStart? {t : Timeline} (hclosed : t.closed ≠ []) (hcurrent : t.current = {})
    (zone : String) :
    ∃ finish, t.lastStart? = some finish ∧
      ∀ instant, finish ≤ instant → (t.toHistory zone).shownAt instant = (0, "") := by
  obtain ⟨finish, hlast⟩ := exists_getLast?_spansFrom t.expansion hclosed t.current none
  rw [← periods_eq, ← spans] at hlast
  refine ⟨finish, by rw [lastStart?, hlast]; rfl, fun instant hinstant => ?_⟩
  have hbegun := lastBegun_of_getLast? hlast (decide_eq_true hinstant)
  have hshown := shownAt_toHistoryBy t.inOrder_expansion t zone hbegun
  have hevents : ∀ event ∈ t.expansion t.current none (some finish),
      event.effect ∈ t.current.effects :=
    fun _ => Period.effect_mem_of_mem_events
  have hnone : t.current.effects = [⟨0, ""⟩] := by
    rw [hcurrent]
    rfl
  have heffect := Span.effectAt_mem_effects
    ⟨t.current, none, some finish, t.expansion t.current none (some finish)⟩ hevents instant
  dsimp only at heffect
  rw [hnone, List.mem_singleton] at heffect
  refine hshown.trans ?_
  rw [Span.stateAt, heffect, hcurrent]
  rfl

theorem exists_feedEras_eq {ruleSets : Keyed RuleSet} {eras : List Era} (zone : String)
    (hnonempty : eras ≠ []) (hends : ∀ era ∈ eras, era.cutover.isSome = true)
    (hfailure : (feedEras zone ruleSets eras).failure = none) :
    ∃ before cutover, (feedEras zone ruleSets eras).instructions =
      before ++ [.addCutover cutover] := by
  induction eras with
  | nil => exact absurd rfl hnonempty
  | cons era rest ih =>
    obtain ⟨hera, hrest⟩ := List.forall_mem_cons.mp hends
    obtain ⟨cutover, hcutover⟩ := Option.isSome_iff_exists.mp hera
    rw [feedEras] at hfailure ⊢
    cases hsavings : era.savingsInstructions ruleSets with
    | error name =>
      rw [hsavings] at hfailure
      cases hfailure
    | ok savings =>
      simp only [hsavings, hcutover] at hfailure ⊢
      by_cases hempty : rest = []
      · subst hempty
        exact ⟨_, cutover, rfl⟩
      · obtain ⟨before, last, heq⟩ := ih hempty hrest hfailure
        rw [heq, ← List.cons_append, ← List.append_assoc]
        exact ⟨_, last, rfl⟩

end Timeline

/-! ## What verification sees of it -/

namespace History.Normal

variable {history : History} {zone : String}

/-- A history that reports its name is refused only for an unusable name inside the window. -/
theorem verify_eq_ok_iff (h : history.Normal) (hzone : history.zone = zone) :
    history.verify zone = .ok () ↔ ∀ t ∈ history.transitions,
      windowStart < t.instant → t.instant ≤ windowEnd → isUsableName t.name = true := by
  constructor
  · exact fun hverify t ht => h.isUsableName_of_verify hverify ht
  · intro husable
    rw [verify_eq h.increasing, if_pos hzone.symm, verdict_eq_ok_iff]
    intro change hchange
    obtain ⟨hmem, hwindow⟩ := List.mem_filter.mp hchange
    obtain ⟨hstart, hend⟩ := inWindow_iff.mp hwindow
    have hname := husable change.2 (Array.mem_toList_iff.mp (mem_of_mem_changesFrom hmem)) hstart
      hend
    rw [changeFault, if_neg (look_ne_of_mem_changesFrom h.visible hmem),
      if_neg ((isUsableName_iff _).mp hname)]

/-- A name that a history comes to show inside the window is one that it is refused for. -/
theorem verify_ne_ok_of_shown (h : history.Normal) {earlier instant : Int}
    (hstart : windowStart ≤ earlier) (hlt : earlier ≤ instant) (hend : instant ≤ windowEnd)
    (hchange : history.shownAt earlier ≠ history.shownAt instant)
    (hname : isUsableName (history.nameAt instant) = false) :
    history.verify zone ≠ .ok () := by
  intro hverify
  obtain ⟨j, hj, hji, hchanges⟩ : ∃ j, earlier < j ∧ j ≤ instant ∧ history.ChangesAt j := by
    by_contra hnone
    refine hchange (shownAt_eq_of_no_change hlt fun j hj hji hchanges => ?_).symm
    exact hnone ⟨j, hj, hji, hchanges⟩
  obtain ⟨t, ht, hjt, hti, hshown⟩ := h.exists_last_change hji hchanges
  have husable := h.isUsableName_of_verify hverify ht (by omega) (by omega)
  have hsame : history.nameAt instant = t.name := congrArg Prod.snd hshown
  rw [hsame, husable] at hname
  cases hname

end History.Normal

namespace Zone

variable {ruleSets : Keyed RuleSet} {lastYear : Int} {zone : Zone}

/-- The instant at which the last era of a zone ends. -/
def lastEnd? (ruleSets : Keyed RuleSet) (lastYear : Int) (zone : Zone) : Option Int :=
  (Timeline.build lastYear (zone.feed ruleSets).instructions).lastStart?

/-- The last era ends inside the window, which shows something before. -/
def EndsInView (ruleSets : Keyed RuleSet) (lastYear : Int) (zone : Zone) : Prop :=
  ∃ finish, zone.lastEnd? ruleSets lastYear = some finish ∧
    History.windowStart < finish ∧ finish ≤ History.windowEnd ∧
    ∃ earlier, History.windowStart ≤ earlier ∧ earlier < finish ∧
      (zone.built ruleSets lastYear).shownAt earlier ≠ (0, "")

theorem normal_built : (zone.built ruleSets lastYear).Normal :=
  Timeline.toHistoryBy_normal _ _ _

theorem Unterminated.exists_lastEnd? (h : zone.Unterminated) (hnonempty : zone.eras ≠ [])
    (hresolved : zone.Resolved ruleSets) (lastYear : Int) :
    ∃ finish, zone.lastEnd? ruleSets lastYear = some finish ∧
      ∀ instant, finish ≤ instant → (zone.built ruleSets lastYear).shownAt instant = (0, "") := by
  obtain ⟨before, cutover, hinstructions⟩ := Timeline.exists_feedEras_eq zone.name hnonempty h
    (failure_feed_eq_none_iff.mpr hresolved)
  have hbuild : Timeline.build lastYear (zone.feed ruleSets).instructions =
      (Timeline.build lastYear before).addCutover cutover := by
    rw [feed, hinstructions]
    exact List.foldl_concat ..
  rw [lastEnd?, built, hbuild]
  exact Timeline.exists_lastStart? (List.append_ne_nil_of_right_ne_nil _ (List.cons_ne_nil _ _)) rfl
    zone.name

theorem Unterminated.not_passes (h : zone.Unterminated) (hnonempty : zone.eras ≠ [])
    (hview : zone.Resolved ruleSets → zone.EndsInView ruleSets lastYear) :
    ¬ zone.Passes ruleSets lastYear := by
  rintro ⟨hresolved, hverify⟩
  obtain ⟨finish, hfinish, hstart, hend, earlier, hwindow, hlt, hshown⟩ := hview hresolved
  obtain ⟨finish', hfinish', hafter⟩ := h.exists_lastEnd? hnonempty hresolved lastYear
  obtain rfl : finish = finish' := Option.some.inj (hfinish.symm.trans hfinish')
  have hnone := hafter finish le_rfl
  have hname : History.isUsableName ((zone.built ruleSets lastYear).nameAt finish) = false := by
    have hempty : (zone.built ruleSets lastYear).nameAt finish = "" := congrArg Prod.snd hnone
    rw [hempty]
    decide
  exact normal_built.verify_ne_ok_of_shown hwindow hlt.le hend (hnone ▸ hshown) hname hverify

/-- A zone that begins the window with a usable name is accepted exactly if it keeps one up to the
end of the window. -/
theorem passes_iff_usableThroughout (hresolved : zone.Resolved ruleSets)
    (hname : History.isUsableName
      ((zone.built ruleSets lastYear).nameAt History.windowStart) = true) :
    zone.Passes ruleSets lastYear ↔ (zone.built ruleSets lastYear).UsableThroughout := by
  constructor
  · exact fun hpasses => (normal_built.usableThroughout_iff hpasses.2).mpr hname
  · intro husable
    refine ⟨hresolved, (normal_built.verify_eq_ok_iff rfl).mpr fun t ht hstart hend => ?_⟩
    have ht' := husable t.instant hstart.le hend
    rwa [History.nameAt, normal_built.stateAt_instant ht] at ht'

end Zone

/-- A zone all of whose eras end shows no offset and no name from its last end on. If it begins the
window with a usable name, it is accepted exactly if its names are usable to the end of the window;
an end behind the window is not looked at. A name is not kept, and its zones are removed, if each of
them names a missing rule set or ends in view. -/
theorem unterminated_passes_iff_usable (session : Session) (lastYear : Int) :
    (∀ zone : Zone, zone.Unterminated → zone.eras ≠ [] → zone.Resolved session.ruleSets →
      (∃ finish, zone.lastEnd? session.ruleSets lastYear = some finish ∧
        ∀ instant, finish ≤ instant →
          (zone.built session.ruleSets lastYear).shownAt instant = (0, "")) ∧
      (History.isUsableName
          ((zone.built session.ruleSets lastYear).nameAt History.windowStart) = true →
        (zone.Passes session.ruleSets lastYear ↔
          (zone.built session.ruleSets lastYear).UsableThroughout))) ∧
    ∀ name, (∃ zone ∈ session.zones, zone.name = name) →
      (∀ zone ∈ session.zones, zone.name = name → zone.Unterminated ∧ zone.eras ≠ [] ∧
        (zone.Resolved session.ruleSets → zone.EndsInView session.ruleSets lastYear)) →
      (session.compiled lastYear).zones.find? name = none ∧
        name ∈ (session.compiled lastYear).removedZones.keys := by
  refine ⟨fun zone hends hnonempty hresolved => ⟨hends.exists_lastEnd? hnonempty hresolved lastYear,
    Zone.passes_iff_usableThroughout hresolved⟩, fun name hsome hall => ?_⟩
  have hrefused : ∀ zone ∈ session.zones, zone.name = name →
      ¬ zone.Passes session.ruleSets lastYear := by
    intro zone hzone hname
    obtain ⟨hends, hnonempty, hview⟩ := hall zone hzone hname
    exact hends.not_passes hnonempty hview
  constructor
  · rw [Option.eq_none_iff_forall_ne_some]
    intro history hkept
    obtain ⟨before, zone, after, hzones, hname, hpasses, -⟩ :=
      (find?_zones_iff session lastYear name).mp hkept
    refine hrefused zone ?_ hname hpasses
    rw [hzones]
    exact List.mem_append_right _ List.mem_cons_self
  · obtain ⟨zone, hzone, hname⟩ := hsome
    exact (mem_keys_removedZones session lastYear name).mpr
      ⟨zone, hzone, hname, hrefused zone hzone hname⟩

/-- A zone whose only era ends with the given year. -/
def endingIn (year : Nat) : Session :=
  (Session.empty.readText "<string>" s!"Zone Test/Zone 0 - GMT {year}\n").session

def endingZone (year : Nat) : Zone :=
  ⟨"Test/Zone", [⟨0, .none, "GMT", some ⟨year, .startOfYear⟩, s!"Zone Test/Zone 0 - GMT {year}"⟩]⟩

/-- The year 2000 is in view. -/
theorem unterminated_endingIn2000 :
    (endingIn 2000).zones = [endingZone 2000] ∧
      ((endingIn 2000).compiled 2100).zones.find? "Test/Zone" = none ∧
      "Test/Zone" ∈ ((endingIn 2000).compiled 2100).removedZones.keys := by
  have hzones : (endingIn 2000).zones = [endingZone 2000] := by decide +kernel
  have hview : (endingZone 2000).EndsInView (endingIn 2000).ruleSets 2100 := by
    refine ⟨Calendar.yearStart 2000, ?_, ?_, ?_, 0, ?_, ?_, ?_⟩ <;> decide +kernel
  refine ⟨hzones, (unterminated_passes_iff_usable (endingIn 2000) 2100).2 "Test/Zone" ?_ ?_⟩
  · exact ⟨endingZone 2000, hzones ▸ List.mem_cons_self, rfl⟩
  · rw [hzones, List.forall_mem_singleton]
    exact fun _ => ⟨by decide, List.cons_ne_nil _ _, fun _ => hview⟩

/-- The year 2060 is behind the window, so the zone is kept. -/
theorem endingIn2060_kept :
    (endingIn 2060).zones = [endingZone 2060] ∧ (endingZone 2060).Unterminated ∧
      ((endingIn 2060).compiled 2100).zones.find? "Test/Zone" =
        some ⟨"Test/Zone", ⟨0, 0, 0, "GMT"⟩, #[⟨Calendar.yearStart 2060, 0, 0, ""⟩]⟩ ∧
      ((endingIn 2060).compiled 2100).removedZones.keys = [] := by
  refine ⟨?_, by decide, ?_, ?_⟩ <;> decide +kernel

end ZoneHistory
