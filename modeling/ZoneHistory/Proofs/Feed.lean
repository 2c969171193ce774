import ZoneHistory.Proofs.Keyed.Lookup
import ZoneHistory.Proofs.Reading.Fields
import ZoneHistory.Zone.Feed

/-!
# The eras that are fed

A zone is put on a timeline up to its first era without an end. Whether that succeeds, and what
comes of it, depends only on the rule sets that these eras name.
-/
namespace ZoneHistory

/-- The eras up to the first one without an end, which is among them. -/
def fedEras (eras : List Era) : List Era :=
  eras.take (eras.findIdx (·.cutover.isNone) + 1)

/-- The rule set that an era names. -/
def Era.ruleSet? (era : Era) : Option String :=
  match era.savings with
  | .named name => some name
  | _ => none

/-- The rule sets that the eras name which are fed. -/
def Zone.ruleSetNames (zone : Zone) : List String := (fedEras zone.eras).filterMap Era.ruleSet?

/-- All rule sets are there that a zone is fed with. -/
def Zone.Resolved (ruleSets : Keyed RuleSet) (zone : Zone) : Prop :=
  ∀ name ∈ zone.ruleSetNames, ruleSets.contains name = true

section Eras

variable {ruleSets other : Keyed RuleSet} {era : Era} {rest eras : List Era}

theorem fedEras_of_last (h : era.cutover = none) : fedEras (era :: rest) = [era] := by
  rw [fedEras, List.findIdx_cons, h]
  rfl

theorem fedEras_of_cutover {cutover : Cutover} (h : era.cutover = some cutover) :
    fedEras (era :: rest) = era :: fedEras rest := by
  rw [fedEras, List.findIdx_cons, h]
  rfl

theorem mem_fedEras_head : era ∈ fedEras (era :: rest) := by
  rw [fedEras, List.take_succ_cons]
  exact List.mem_cons_self

theorem Era.savingsInstructions_congr
    (h : ∀ name ∈ era.ruleSet?, other.find? name = ruleSets.find? name) :
    era.savingsInstructions other = era.savingsInstructions ruleSets := by
  rw [ruleSet?] at h
  rw [savingsInstructions, savingsInstructions]
  cases hsavings : era.savings with
  | none => rfl
  | fixed save => rfl
  | named name =>
    rw [hsavings] at h
    dsimp only
    rw [h name rfl]

theorem Era.exists_savingsInstructions_iff :
    (∃ instructions, era.savingsInstructions ruleSets = .ok instructions) ↔
      ∀ name ∈ era.ruleSet?, ruleSets.contains name = true := by
  rw [ruleSet?, savingsInstructions]
  cases era.savings with
  | none => simp
  | fixed save => simp
  | named name => cases hfind : ruleSets.find? name <;> simp [Keyed.contains, hfind]

theorem failure_feedEras_eq_none_iff (zone : String) :
    (feedEras zone ruleSets eras).failure = none ↔
      ∀ era ∈ fedEras eras, ∀ name ∈ era.ruleSet?, ruleSets.contains name = true := by
  induction eras with
  | nil => exact iff_of_true rfl (List.forall_mem_nil _)
  | cons era rest ih =>
    rw [feedEras]
    cases hsavings : era.savingsInstructions ruleSets with
    | error name =>
      -- The first era is always fed, so its rule set would be there.
      refine iff_of_false nofun fun hresolved => ?_
      obtain ⟨instructions, hok⟩ :=
        Era.exists_savingsInstructions_iff.mpr (hresolved era mem_fedEras_head)
      rw [hsavings] at hok
      cases hok
    | ok instructions =>
      have hera := Era.exists_savingsInstructions_iff.mp ⟨instructions, hsavings⟩
      cases hcutover : era.cutover with
      | none =>
        rw [fedEras_of_last hcutover, List.forall_mem_singleton]
        exact iff_of_true rfl hera
      | some cutover =>
        rw [fedEras_of_cutover hcutover, List.forall_mem_cons, and_iff_right hera]
        exact ih

theorem feedEras_congr (zone : String)
    (h : ∀ era ∈ fedEras eras, ∀ name ∈ era.ruleSet?, other.find? name = ruleSets.find? name) :
    feedEras zone other eras = feedEras zone ruleSets eras := by
  induction eras with
  | nil => rfl
  | cons era rest ih =>
    rw [feedEras, feedEras, Era.savingsInstructions_congr (h era mem_fedEras_head)]
    cases era.savingsInstructions ruleSets with
    | error name => rfl
    | ok instructions =>
      cases hcutover : era.cutover with
      | none => rfl
      | some cutover =>
        rw [fedEras_of_cutover hcutover, List.forall_mem_cons] at h
        dsimp only
        rw [ih h.2]

end Eras

namespace Zone

variable {ruleSets other : Keyed RuleSet} {zone : Zone}

theorem forall_mem_ruleSetNames {p : String → Prop} :
    (∀ name ∈ zone.ruleSetNames, p name) ↔
      ∀ era ∈ fedEras zone.eras, ∀ name ∈ era.ruleSet?, p name :=
  List.forall_mem_filterMap

theorem failure_feed_eq_none_iff :
    (zone.feed ruleSets).failure = none ↔ zone.Resolved ruleSets := by
  rw [Resolved, forall_mem_ruleSetNames]
  exact failure_feedEras_eq_none_iff zone.name

theorem feed_congr (h : ∀ name ∈ zone.ruleSetNames, other.find? name = ruleSets.find? name) :
    zone.feed other = zone.feed ruleSets :=
  feedEras_congr zone.name (forall_mem_ruleSetNames.mp h)

end Zone

/-! ## Dates that are put on a timeline -/

/-- A date that the instruction puts on a timeline lies in the calendar. -/
def Timeline.Instruction.InCalendar : Timeline.Instruction → Prop
  | addRecurrence recurrence => recurrence.date.InCalendar
  | addCutover cutover => cutover.date.InCalendar
  | _ => True

theorem Era.inCalendar_savingsInstructions {ruleSets : Keyed RuleSet} {era : Era}
    {instructions : List Timeline.Instruction}
    (hrules : ∀ name set, ruleSets.find? name = some set → ∀ rule ∈ set.rules, rule.Sound)
    (h : era.savingsInstructions ruleSets = .ok instructions) :
    ∀ instruction ∈ instructions, instruction.InCalendar := by
  rw [savingsInstructions] at h
  split at h
  · cases h
    exact List.forall_mem_singleton.mpr trivial
  · cases h
    exact List.forall_mem_singleton.mpr trivial
  · next name _ =>
    split at h
    · next set hfind =>
      cases h
      rw [RuleSet.instructions, List.forall_mem_map]
      intro rule hrule
      exact (hrules name set hfind rule hrule).date
    · cases h

theorem inCalendar_feedEras {ruleSets : Keyed RuleSet} {eras : List Era} (zone : String)
    (hrules : ∀ name set, ruleSets.find? name = some set → ∀ rule ∈ set.rules, rule.Sound)
    (heras : ∀ era ∈ eras, era.Sound) :
    ∀ instruction ∈ (feedEras zone ruleSets eras).instructions, instruction.InCalendar := by
  induction eras with
  | nil => exact List.forall_mem_nil _
  | cons era rest ih =>
    rw [List.forall_mem_cons] at heras
    rw [feedEras]
    cases hsavings : era.savingsInstructions ruleSets with
    | error name => exact List.forall_mem_singleton.mpr trivial
    | ok instructions =>
      have hopening : ∀ instruction ∈
          Timeline.Instruction.setStandardOffset era.standardOffset :: instructions,
          instruction.InCalendar :=
        List.forall_mem_cons.mpr ⟨trivial, era.inCalendar_savingsInstructions hrules hsavings⟩
      cases hcutover : era.cutover with
      | none => exact hopening
      | some cutover =>
        refine List.forall_mem_append.mpr ⟨hopening, List.forall_mem_cons.mpr ⟨?_, ih heras.2⟩⟩
        exact heras.1 cutover hcutover

end ZoneHistory
