import ZoneHistory.Output
import ZoneHistory.Proofs.Feed
import ZoneHistory.Proofs.Links
import ZoneHistory.Proofs.Reading.Sessions
import ZoneHistory.Proofs.Verification

/-!
# Zones do not meet

What is kept under a name, and why zones of that name are removed, is settled by the zones of this
name and the rule sets that they are fed with. A zone that is refused takes nothing else with it.
-/
namespace ZoneHistory

namespace Zone

/-- The history that a timeline of its own gives a zone. -/
def built (ruleSets : Keyed RuleSet) (lastYear : Int) (zone : Zone) : History :=
  (Timeline.build lastYear (zone.feed ruleSets).instructions).toHistory zone.name

/-- The zone finds its rule sets, and its history is accepted. -/
def Passes (ruleSets : Keyed RuleSet) (lastYear : Int) (zone : Zone) : Prop :=
  zone.Resolved ruleSets ∧ (zone.built ruleSets lastYear).verify zone.name = .ok ()

variable {ruleSets other : Keyed RuleSet} {lastYear : Int} {zone : Zone}

theorem timeline_eq_ok_iff {t : Timeline} :
    zone.timeline ruleSets lastYear = .ok t ↔
      zone.Resolved ruleSets ∧ t = .build lastYear (zone.feed ruleSets).instructions := by
  rw [timeline, ← failure_feed_eq_none_iff]
  cases (zone.feed ruleSets).failure with
  | none => simp [eq_comm]
  | some cause => simp

theorem accepted?_eq_some_iff_passes {history : History} :
    zone.accepted? ruleSets lastYear = some history ↔
      zone.Passes ruleSets lastYear ∧ history = zone.built ruleSets lastYear := by
  rw [accepted?_eq_some_iff]
  constructor
  · rintro ⟨timeline, htimeline, rfl, hverify⟩
    obtain ⟨hresolved, rfl⟩ := timeline_eq_ok_iff.mp htimeline
    exact ⟨⟨hresolved, hverify⟩, rfl⟩
  · rintro ⟨⟨hresolved, hverify⟩, rfl⟩
    exact ⟨_, timeline_eq_ok_iff.mpr ⟨hresolved, rfl⟩, rfl, hverify⟩

theorem accepted?_eq_none_iff :
    zone.accepted? ruleSets lastYear = none ↔ ¬ zone.Passes ruleSets lastYear := by
  rw [Option.eq_none_iff_forall_ne_some]
  constructor
  · exact fun hnone hpasses => hnone _ (accepted?_eq_some_iff_passes.mpr ⟨hpasses, rfl⟩)
  · exact fun hfails history hsome => hfails (accepted?_eq_some_iff_passes.mp hsome).1

theorem exists_compile_eq_error_iff :
    (∃ fault, zone.compile ruleSets lastYear = .error fault) ↔
      ¬ zone.Passes ruleSets lastYear := by
  rw [← accepted?_eq_none_iff, accepted?]
  cases zone.compile ruleSets lastYear <;> simp [Except.toOption]

/-- A zone is refused for a rule set that is not there or an unusable name inside the window. -/
theorem cases_of_compile_eq_error {fault : ZoneFault}
    (h : zone.compile ruleSets lastYear = .error fault) :
    (∃ cause, fault = .unknownRuleSet cause) ∨
      ∃ instant name, fault = .unverified (.unusableName zone.name instant name) ∧
        History.windowStart < instant ∧ instant ≤ History.windowEnd := by
  rw [compile] at h
  cases htimeline : zone.timeline ruleSets lastYear with
  | error cause =>
    rw [htimeline] at h
    cases h
    exact Or.inl ⟨cause, rfl⟩
  | ok timeline =>
    simp only [htimeline, Except.mapError, bind, Except.bind] at h
    cases hverify : (timeline.toHistory zone.name).verify zone.name with
    | ok _ =>
      rw [hverify] at h
      cases h
    | error cause =>
      rw [hverify] at h
      cases h
      obtain ⟨instant, name, rfl, hwindow⟩ := History.exists_of_verify_toHistory hverify
      exact Or.inr ⟨instant, name, rfl, hwindow⟩

theorem compile_congr (h : ∀ name ∈ zone.ruleSetNames, other.find? name = ruleSets.find? name) :
    zone.compile other lastYear = zone.compile ruleSets lastYear := by
  rw [compile, compile, timeline, timeline, feed_congr h]

theorem accepted?_congr (h : ∀ name ∈ zone.ruleSetNames, other.find? name = ruleSets.find? name) :
    zone.accepted? other lastYear = zone.accepted? ruleSets lastYear := by
  rw [accepted?, accepted?, compile_congr h]

/-- The reasons under a name after one more zone of that name. -/
def addReason (ruleSets : Keyed RuleSet) (lastYear : Int) (reasons? : Option (List String))
    (zone : Zone) : Option (List String) :=
  match zone.compile ruleSets lastYear with
  | .error fault => some (insertSorted fault.message (reasons?.getD []))
  | .ok _ => reasons?

theorem isSome_addReason_iff {reasons? : Option (List String)} :
    (zone.addReason ruleSets lastYear reasons?).isSome = true ↔
      reasons?.isSome = true ∨ ¬ zone.Passes ruleSets lastYear := by
  rw [← exists_compile_eq_error_iff, addReason]
  cases zone.compile ruleSets lastYear <;> simp

theorem isSome_foldl_addReason_iff {zones : List Zone} {reasons? : Option (List String)} :
    (zones.foldl (fun found zone => zone.addReason ruleSets lastYear found)
        reasons?).isSome = true ↔
      reasons?.isSome = true ∨ ∃ zone ∈ zones, ¬ zone.Passes ruleSets lastYear := by
  induction zones generalizing reasons? with
  | nil => simp
  | cons zone rest ih =>
    rw [List.foldl_cons, ih, isSome_addReason_iff, List.exists_mem_cons_iff, or_assoc]

end Zone

theorem ZoneTable.find?_removed_add (ruleSets : Keyed RuleSet) (lastYear : Int) (table : ZoneTable)
    (zone : Zone) (name : String) :
    (table.add ruleSets lastYear zone).removed.find? name =
      if zone.name = name then zone.addReason ruleSets lastYear (table.removed.find? name)
      else table.removed.find? name := by
  rw [add, Zone.addReason]
  cases zone.compile ruleSets lastYear with
  | error fault =>
    simp only [noting, Comments.find?_add]
    by_cases hname : zone.name = name
    · rw [if_pos hname.symm, if_pos hname, hname]
    · rw [if_neg (Ne.symm hname), if_neg hname]
  | ok result => exact (ite_self _).symm

/-- The reasons under a name are those of the zones of that name. -/
theorem find?_removed_compileZones (session : Session) (lastYear : Int) (name : String) :
    (compileZones session lastYear).removed.find? name =
      (session.zones.filter (·.name = name)).foldl
        (fun reasons? zone => zone.addReason session.ruleSets lastYear reasons?) none := by
  rw [compileZones]
  induction session.zones using List.reverseRecOn with
  | nil => rfl
  | append_singleton zones zone ih =>
    rw [List.foldl_concat, ZoneTable.find?_removed_add, ih, List.filter_append]
    by_cases hname : zone.name = name
    · rw [if_pos hname, List.filter_cons_of_pos (by simpa using hname), List.filter_nil,
        List.foldl_concat]
    · rw [if_neg hname, List.filter_cons_of_neg (by simpa using hname), List.filter_nil,
        List.append_nil]

theorem getLast?_filterMap_eq_some_iff {α β : Type} {value? : α → Option β} {members : List α}
    {value : β} :
    (members.filterMap value?).getLast? = some value ↔ ∃ before last after,
      members = before ++ last :: after ∧ value? last = some value ∧
        ∀ member ∈ after, value? member = none := by
  rw [List.getLast?_filterMap, List.findSome?_eq_some_iff]
  constructor
  · rintro ⟨after, last, before, hmembers, hlast, hafter⟩
    refine ⟨before.reverse, last, after.reverse, ?_, hlast, ?_⟩
    · rw [List.reverse_eq_iff.mp hmembers, List.reverse_append, List.reverse_cons,
        List.append_assoc, List.singleton_append]
    · simpa using hafter
  · rintro ⟨before, last, after, rfl, hlast, hafter⟩
    refine ⟨after.reverse, last, before.reverse, ?_, hlast, ?_⟩
    · rw [List.reverse_append, List.reverse_cons, List.append_assoc, List.singleton_append]
    · simpa using hafter

section Compile

variable (session : Session) (lastYear : Int) (name : String)

theorem find?_zones_iff {history : History} :
    (session.compiled lastYear).zones.find? name = some history ↔
      ∃ before zone after, session.zones = before ++ zone :: after ∧ zone.name = name ∧
        zone.Passes session.ruleSets lastYear ∧ history = zone.built session.ruleSets lastYear ∧
          ∀ later ∈ after, later.name = name → ¬ later.Passes session.ruleSets lastYear := by
  have hsome : ∀ zone : Zone, (if decide (zone.name = name) = true then
      zone.accepted? session.ruleSets lastYear else none) = some history ↔
      zone.name = name ∧ zone.Passes session.ruleSets lastYear ∧
        history = zone.built session.ruleSets lastYear := by
    intro zone
    by_cases hname : zone.name = name <;> simp [hname, Zone.accepted?_eq_some_iff_passes]
  have hnone : ∀ zone : Zone, (if decide (zone.name = name) = true then
      zone.accepted? session.ruleSets lastYear else none) = none ↔
      (zone.name = name → ¬ zone.Passes session.ruleSets lastYear) := by
    intro zone
    by_cases hname : zone.name = name <;> simp [hname, Zone.accepted?_eq_none_iff]
  -- Zones of other names count as members without a value.
  rw [find?_compile, find?_compileZones, List.filterMap_filter, getLast?_filterMap_eq_some_iff]
  simp only [hsome, hnone, and_assoc]

theorem mem_keys_removedZones :
    name ∈ (session.compiled lastYear).removedZones.keys ↔
      ∃ zone ∈ session.zones, zone.name = name ∧ ¬ zone.Passes session.ruleSets lastYear := by
  have hremoved : (session.compiled lastYear).removedZones.find? name =
      (session.zones.filter (·.name = name)).foldl
        (fun reasons? zone => zone.addReason session.ruleSets lastYear reasons?) none :=
    find?_removed_compileZones session lastYear name
  rw [Keyed.mem_keys_iff, ← Option.isSome_iff_exists, hremoved, Zone.isSome_foldl_addReason_iff]
  simp [and_assoc]

theorem pairwise_keys_zones :
    (session.compiled lastYear).zones.keys.Pairwise fun a b => a < b :=
  Keyed.pairwise_keys_sorted _

theorem compileInto_none {σ : Type} [Disk (StateM σ)] [Journal (StateM σ)] (disk : σ) :
    ((compileInto session lastYear none : StateM σ (Except Fault Compilation)) disk).1 =
      .ok (session.compiled lastYear) := rfl

end Compile

/-- The sessions have the same zones of one name, in the same order, and the same rule sets for
these zones. -/
structure Session.SameAt (session other : Session) (name : String) : Prop where
  zones : other.zones.filter (·.name = name) = session.zones.filter (·.name = name)
  ruleSets : ∀ zone ∈ session.zones, zone.name = name → ∀ set ∈ zone.ruleSetNames,
    other.ruleSets.find? set = session.ruleSets.find? set

namespace Session.SameAt

variable {session other : Session} {name : String} (h : session.SameAt other name) (lastYear : Int)
include h

theorem find?_ruleSets {zone : Zone} (hzone : zone ∈ session.zones.filter (·.name = name)) :
    ∀ set ∈ zone.ruleSetNames, other.ruleSets.find? set = session.ruleSets.find? set := by
  obtain ⟨hmem, hname⟩ := List.mem_filter.mp hzone
  exact h.ruleSets zone hmem (of_decide_eq_true hname)

theorem find?_zones :
    (other.compiled lastYear).zones.find? name = (session.compiled lastYear).zones.find? name := by
  rw [find?_compile, find?_compile, find?_compileZones, find?_compileZones, h.zones]
  congr 1
  exact List.filterMap_congr fun zone hzone => Zone.accepted?_congr (h.find?_ruleSets hzone)

theorem find?_removedZones :
    (other.compiled lastYear).removedZones.find? name =
      (session.compiled lastYear).removedZones.find? name := by
  have hremoved : ∀ session : Session, (session.compiled lastYear).removedZones.find? name =
      (compileZones session lastYear).removed.find? name := fun _ => rfl
  rw [hremoved, hremoved, find?_removed_compileZones, find?_removed_compileZones, h.zones]
  refine List.foldl_ext _ _ _ fun reasons? zone hzone => ?_
  rw [Zone.addReason, Zone.addReason, Zone.compile_congr (h.find?_ruleSets hzone)]

end Session.SameAt

theorem Session.Collects.inCalendar_feed {session : Session} {rules : List Rule}
    (h : session.Collects rules) {zone : Zone} (hzone : zone ∈ session.zones) :
    ∀ instruction ∈ (zone.feed session.ruleSets).instructions, instruction.InCalendar := by
  refine inCalendar_feedEras zone.name ?_ (h.zones zone hzone).eras
  intro name set hset rule hrule
  exact h.rules rule ((h.grouped.of_find? hset).2.2 rule hrule).1

/-- A session that was read, from whatever files, always compiles. All its dates lie in the
calendar, and no zone is removed but for a rule set that is not there or an unusable name inside the
window. The zones are in the order of their names, and under each name stands the history that a
timeline of its own gives the last zone of that name that passes. The names of zones that do not
pass are those of the removed zones. What is kept under a name, and why zones of that name are
removed, does not depend on zones of other names and on rule sets that are not named. -/
theorem zones_compiled (calls : List Session.Call) (files : List String) (lastYear : Int) :
    let session : Session := { Session.empty.after calls with files }
    let c := session.compiled lastYear
    (∀ {σ : Type} [Disk (StateM σ)] [Journal (StateM σ)] (disk : σ),
      ((compileInto session lastYear none : StateM σ (Except Fault Compilation)) disk).1 = .ok c) ∧
    (∀ zone ∈ session.zones,
      (∀ instruction ∈ (zone.feed session.ruleSets).instructions, instruction.InCalendar) ∧
      ∀ fault, zone.compile session.ruleSets lastYear = .error fault →
        (∃ cause, fault = .unknownRuleSet cause) ∨
          ∃ instant name, fault = .unverified (.unusableName zone.name instant name) ∧
            History.windowStart < instant ∧ instant ≤ History.windowEnd) ∧
    c.zones.keys.Pairwise (fun a b => a < b) ∧
    (∀ name history, c.zones.find? name = some history ↔
      ∃ before zone after, session.zones = before ++ zone :: after ∧ zone.name = name ∧
        zone.Passes session.ruleSets lastYear ∧ history = zone.built session.ruleSets lastYear ∧
          ∀ later ∈ after, later.name = name → ¬ later.Passes session.ruleSets lastYear) ∧
    (∀ name, name ∈ c.removedZones.keys ↔
      ∃ zone ∈ session.zones, zone.name = name ∧ ¬ zone.Passes session.ruleSets lastYear) ∧
    ∀ (other : Session) (name : String), session.SameAt other name →
      (other.compiled lastYear).zones.find? name = c.zones.find? name ∧
        (other.compiled lastYear).removedZones.find? name = c.removedZones.find? name := by
  intro session c
  have hread := Session.collects_after Session.collects_empty calls
  have hcollects : session.Collects _ := ⟨hread.grouped, hread.rules, hread.zones⟩
  refine ⟨compileInto_none session lastYear, fun zone hzone => ?_,
    pairwise_keys_zones session lastYear, fun name history => find?_zones_iff session lastYear name,
    mem_keys_removedZones session lastYear, fun other name h => ?_⟩
  · exact ⟨hcollects.inCalendar_feed hzone, fun fault => Zone.cases_of_compile_eq_error⟩
  · exact ⟨h.find?_zones lastYear, h.find?_removedZones lastYear⟩

/-- A zone that passes, although an era behind its last one names a rule set that is not there. -/
def keptZone : Zone :=
  ⟨"Test/A", [⟨3600000, .none, "AAA", none, "Zone Test/A 1:00 - AAA"⟩,
    ⟨7200000, .named "Missing", "BBB", none, " 2:00 Missing BBB"⟩]⟩

def refusedZone : Zone :=
  ⟨"Test/A", [⟨3600000, .named "Missing", "CCC", none, "Zone Test/A 1:00 Missing CCC"⟩]⟩

/-- Two zones of one name, the second of which does not pass. -/
def refusedLater : List Session.Call :=
  [.readLines "tz" ["Zone Test/A 1:00 - AAA", " 2:00 Missing BBB", "Zone Test/A 1:00 Missing CCC"]]

/-- A zone that is refused does not replace an earlier one of its name. -/
theorem zones_compiled_refusedLater :
    Session.empty.after refusedLater = ⟨.empty, [keptZone, refusedZone], [], []⟩ ∧
      ((Session.empty.after refusedLater).compiled 2100).zones.find? "Test/A" =
        some (keptZone.built .empty 2100) ∧
      "Test/A" ∈ ((Session.empty.after refusedLater).compiled 2100).removedZones.keys := by
  have hsession : Session.empty.after refusedLater =
      ⟨.empty, [keptZone, refusedZone], [], []⟩ := by decide +kernel
  have hcompiled := zones_compiled refusedLater [] 2100
  simp only [hsession] at hcompiled ⊢
  obtain ⟨-, -, -, hkept, hremoved, -⟩ := hcompiled
  have hpasses : keptZone.Passes .empty 2100 := by
    have hnames : keptZone.ruleSetNames = [] := rfl
    have hok : ((keptZone.built .empty 2100).verify keptZone.name).isOk = true := by decide +kernel
    refine ⟨?_, ?_⟩
    · rw [Zone.Resolved, hnames]
      exact List.forall_mem_nil _
    · cases hverify : (keptZone.built .empty 2100).verify keptZone.name with
      | ok _ => rfl
      | error fault =>
        rw [hverify] at hok
        cases hok
  have hfails : ¬ refusedZone.Passes .empty 2100 := by
    rintro ⟨hresolved, -⟩
    exact absurd (hresolved "Missing" (by decide)) (by decide)
  refine ⟨trivial, (hkept _ _).mpr ⟨[], keptZone, [refusedZone], rfl, rfl, hpasses, rfl, ?_⟩,
    (hremoved _).mpr ⟨refusedZone, List.mem_cons_of_mem _ List.mem_cons_self, rfl, hfails⟩⟩
  exact List.forall_mem_singleton.mpr fun _ => hfails

end ZoneHistory
