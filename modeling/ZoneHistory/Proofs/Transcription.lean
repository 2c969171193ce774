import ZoneHistory.Proofs.Compilation.Independent

/-!
# Zones on their timelines

The timeline of a zone holds a period for each era up to the first one without an end, with the data
of the era and of the rules that it names; behind an era that has an end stands an empty period. If
one of these eras names a rule set that is not there, the first such name is the failure. The eras
behind are never looked at.
-/
namespace ZoneHistory

/-- A rule in an era of the given format, with each part in its place. -/
def Rule.transcribed (rule : Rule) (format : String) : Recurrence where
  effect := { save := rule.save, name := rule.abbreviation format }
  fromYear := rule.fromYear
  toYear := rule.toYear
  date := rule.date

/-- The period that an era stands for: its offset, its format with no or fixed savings, and else the
rules of the set that it names, in their order. -/
def Era.period (era : Era) (ruleSets : Keyed RuleSet) : Period where
  standardOffset := era.standardOffset
  fixed := match era.savings with
    | .none => some { format := era.format, save := 0 }
    | .fixed save => some { format := era.format, save }
    | .named _ => none
  recurrences := match era.savings with
    | .named name => (ruleSets.find? name).elim [] fun set =>
      set.rules.map fun rule => rule.transcribed era.format
    | _ => []

/-- All rule sets are there that an era names. -/
def Era.Resolved (ruleSets : Keyed RuleSet) (era : Era) : Prop :=
  ∀ name ∈ era.ruleSet?, ruleSets.contains name = true

/-- The periods that the eras of a zone stand for, with their ends. An empty period follows if the
last era that is fed has an end. -/
def transcription (ruleSets : Keyed RuleSet) (eras : List Era) : List (Period × Option Cutover) :=
  (fedEras eras).map (fun era => (era.period ruleSets, era.cutover)) ++
    if (fedEras eras).getLast?.all (·.cutover.isSome) then [(({} : Period), none)] else []

section Eras

variable {ruleSets : Keyed RuleSet} {era : Era} {rest eras : List Era}

theorem transcription_of_last (h : era.cutover = none) :
    transcription ruleSets (era :: rest) = [(era.period ruleSets, none)] := by
  simp [transcription, fedEras_of_last h, h]

theorem transcription_of_cutover {cutover : Cutover} (h : era.cutover = some cutover) :
    transcription ruleSets (era :: rest) =
      (era.period ruleSets, some cutover) :: transcription ruleSets rest := by
  have hlast : (fedEras (era :: rest)).getLast?.all (·.cutover.isSome) =
      (fedEras rest).getLast?.all (·.cutover.isSome) := by
    rw [fedEras_of_cutover h, List.getLast?_cons]
    cases (fedEras rest).getLast? <;> simp [h]
  rw [transcription, hlast, fedEras_of_cutover h, List.map_cons, h, List.cons_append]
  rfl

namespace Timeline

theorem foldl_addRecurrence (recurrences : List Recurrence) (t : Timeline) :
    (recurrences.map Instruction.addRecurrence).foldl apply t =
      { t with current := { t.current with
          recurrences := t.current.recurrences ++ recurrences } } := by
  induction recurrences generalizing t with
  | nil => simp
  | cons r rest ih => simp [ih, apply, addRecurrence]

/-- The instructions of an era make an empty period into that of the era. -/
theorem foldl_savingsInstructions {savings : List Instruction}
    (h : era.savingsInstructions ruleSets = .ok savings) (lastYear : Int)
    (closed : List (Period × Cutover)) :
    (.setStandardOffset era.standardOffset :: savings).foldl apply ⟨lastYear, closed, {}⟩ =
      ⟨lastYear, closed, era.period ruleSets⟩ := by
  rw [Era.savingsInstructions] at h
  rw [Era.period]
  cases hsavings : era.savings with
  | none =>
    simp only [hsavings, Except.ok.injEq] at h
    subst h
    rfl
  | fixed save =>
    simp only [hsavings, Except.ok.injEq] at h
    subst h
    rfl
  | named name =>
    cases hfind : ruleSets.find? name with
    | none => simp [hsavings, hfind] at h
    | some set =>
      have hinstructions : savings =
          (set.rules.map fun rule => rule.transcribed era.format).map .addRecurrence := by
        simp only [hsavings, hfind, Except.ok.injEq] at h
        rw [← h, RuleSet.instructions, List.map_map]
        rfl
      rw [hinstructions, List.foldl_cons, foldl_addRecurrence]
      simp [apply, setStandardOffset, hfind]

/-- Eras that can be fed add the periods that they stand for. -/
theorem periods_foldl_feedEras (zone : String)
    (h : (feedEras zone ruleSets eras).failure = none) (lastYear : Int)
    (closed : List (Period × Cutover)) :
    let t := (feedEras zone ruleSets eras).instructions.foldl apply ⟨lastYear, closed, {}⟩
    t.lastYear = lastYear ∧
      t.periods = closed.map (fun (p, c) => (p, some c)) ++ transcription ruleSets eras := by
  induction eras generalizing closed with
  | nil => exact ⟨rfl, rfl⟩
  | cons era rest ih =>
    rw [feedEras] at h ⊢
    cases hsavings : era.savingsInstructions ruleSets with
    | error name => simp [hsavings] at h
    | ok savings =>
      have hera := foldl_savingsInstructions hsavings lastYear closed
      cases hcutover : era.cutover with
      | none =>
        dsimp only
        rw [hera, transcription_of_last hcutover]
        exact ⟨rfl, rfl⟩
      | some cutover =>
        simp only [hsavings, hcutover] at h
        simp only [List.foldl_append, hera, List.foldl_cons]
        obtain ⟨hlastYear, hperiods⟩ := ih h (closed ++ [(era.period ruleSets, cutover)])
        refine ⟨hlastYear, hperiods.trans ?_⟩
        simp [transcription_of_cutover hcutover]

end Timeline

theorem named_of_savingsInstructions_eq_error {name : String}
    (h : era.savingsInstructions ruleSets = .error name) :
    era.savings = .named name ∧ ruleSets.find? name = none := by
  rw [Era.savingsInstructions] at h
  split at h
  · cases h
  · cases h
  · next other hnamed =>
    split at h
    · cases h
    · next hnone =>
      cases h
      exact ⟨hnamed, hnone⟩

/-- The first era that names a rule set which is not there is the failure. -/
theorem exists_failure_feedEras (zone : String)
    (h : ¬ ∀ era ∈ fedEras eras, era.Resolved ruleSets) :
    ∃ before era after name, fedEras eras = before ++ era :: after ∧
      (∀ earlier ∈ before, earlier.Resolved ruleSets) ∧ era.savings = .named name ∧
      ruleSets.find? name = none ∧
      (feedEras zone ruleSets eras).failure = some ⟨zone, name⟩ := by
  induction eras with
  | nil => exact absurd (List.forall_mem_nil _) h
  | cons era rest ih =>
    rw [feedEras]
    cases hsavings : era.savingsInstructions ruleSets with
    | error missing =>
      obtain ⟨hnamed, hnone⟩ := named_of_savingsInstructions_eq_error hsavings
      refine ⟨[], era, (fedEras (era :: rest)).tail, missing, ?_, by simp, hnamed, hnone, rfl⟩
      rw [fedEras, List.take_succ_cons, List.tail_cons, List.nil_append]
    | ok savings =>
      have hera : era.Resolved ruleSets :=
        Era.exists_savingsInstructions_iff.mp ⟨savings, hsavings⟩
      cases hcutover : era.cutover with
      | none => simp [fedEras_of_last hcutover, hera] at h
      | some cutover =>
        rw [fedEras_of_cutover hcutover, List.forall_mem_cons, not_and] at h
        obtain ⟨before, missing, after, name, heras, hbefore, hnamed, hnone, hfailure⟩ := ih (h hera)
        refine ⟨era :: before, missing, after, name, ?_, ?_, hnamed, hnone, hfailure⟩
        · rw [fedEras_of_cutover hcutover, heras, List.cons_append]
        · exact List.forall_mem_cons.mpr ⟨hera, hbefore⟩

/-- The eras behind those that are fed have no part in what is fed. -/
theorem feedEras_fedEras (zone : String) (ruleSets : Keyed RuleSet) (eras : List Era) :
    (feedEras zone ruleSets (fedEras eras)).instructions =
        (feedEras zone ruleSets eras).instructions ∧
      (feedEras zone ruleSets (fedEras eras)).failure = (feedEras zone ruleSets eras).failure := by
  induction eras with
  | nil => exact ⟨rfl, rfl⟩
  | cons era rest ih =>
    cases hcutover : era.cutover with
    | none =>
      rw [fedEras_of_last hcutover]
      cases hsavings : era.savingsInstructions ruleSets <;> simp [feedEras, hsavings, hcutover]
    | some cutover =>
      rw [fedEras_of_cutover hcutover]
      cases hsavings : era.savingsInstructions ruleSets <;> simp [feedEras, hsavings, hcutover, ih]

end Eras

namespace Zone

variable {zone : Zone} {ruleSets : Keyed RuleSet}

theorem resolved_iff :
    zone.Resolved ruleSets ↔ ∀ era ∈ fedEras zone.eras, era.Resolved ruleSets :=
  forall_mem_ruleSetNames

/-- The timeline of a zone whose rule sets are there transcribes its eras, one by one and part by
part; a zone that lacks a rule set fails with the first that is missing. Eras behind the first one
without an end, and rule sets that only they name, have no part in either. -/
theorem timeline_transcribes (zone : Zone) (ruleSets : Keyed RuleSet) (lastYear : Int) :
    (zone.Resolved ruleSets → ∃ t, zone.timeline ruleSets lastYear = .ok t ∧
      t.lastYear = lastYear ∧ t.periods = transcription ruleSets zone.eras) ∧
    (¬ zone.Resolved ruleSets → ∃ before era after name,
      fedEras zone.eras = before ++ era :: after ∧
      (∀ earlier ∈ before, earlier.Resolved ruleSets) ∧ era.savings = .named name ∧
      ruleSets.find? name = none ∧
      zone.timeline ruleSets lastYear = .error { zone := zone.name, ruleSet := name } ∧
      (UnknownRuleSet.mk zone.name name).message = zone.name ++ ": Rules not found: " ++ name) ∧
    ∀ (other : Zone) (otherSets : Keyed RuleSet),
      other.name = zone.name → fedEras other.eras = fedEras zone.eras →
      (∀ name ∈ zone.ruleSetNames, otherSets.find? name = ruleSets.find? name) →
      other.timeline otherSets lastYear = zone.timeline ruleSets lastYear := by
  refine ⟨fun h => ?_, fun h => ?_, fun other otherSets hname heras hsets => ?_⟩
  · have hfailure := failure_feed_eq_none_iff.mpr h
    refine ⟨_, timeline_eq_ok_iff.mpr ⟨h, rfl⟩, ?_⟩
    exact Timeline.periods_foldl_feedEras zone.name hfailure lastYear []
  · rw [resolved_iff] at h
    obtain ⟨before, era, after, name, hsplit, hbefore, hnamed, hnone, hfailure⟩ :=
      exists_failure_feedEras zone.name h
    refine ⟨before, era, after, name, hsplit, hbefore, hnamed, hnone, ?_, ?_⟩
    · rw [timeline, feed, hfailure]
    · rfl
  · have hfeed := feed_congr hsets
    obtain ⟨hinstructions, hfailure⟩ := feedEras_fedEras zone.name otherSets other.eras
    obtain ⟨hinstructions', hfailure'⟩ := feedEras_fedEras zone.name otherSets zone.eras
    rw [feed, feed] at hfeed
    rw [heras, hinstructions', hfeed] at hinstructions
    rw [heras, hfailure', hfeed] at hfailure
    simp only [timeline, feed, hname, ← hinstructions, ← hfailure]

/-- No savings until 1900, fixed ones until 1950, and then rules without end; the era behind these
names a rule set that is nowhere. -/
def chained : Zone where
  name := "Test/Zone"
  eras :=
    [⟨3000000, .none, "LMT", some ⟨1900, .startOfYear⟩, ""⟩,
      ⟨3600000, .fixed 1800000, "XST/XDT", some ⟨1950, ⟨4, 1, 0, false, 7200000, .standard⟩⟩, ""⟩,
      ⟨3600000, .named "XX", "X%sT", none, ""⟩, ⟨0, .named "Missing", "YST", none, ""⟩]

def chainedRules : Keyed RuleSet :=
  Keyed.empty.put "XX" ⟨"XX",
    [⟨"XX", 1950, 1960, none, ⟨4, -1, 7, false, 7200000, .wall⟩, 3600000, some "D", ""⟩,
      ⟨"XX", 1950, 9999, none, ⟨10, -1, 7, false, 7200000, .standard⟩, 0, some "S", ""⟩]⟩

theorem timeline_chained :
    chained.Resolved chainedRules ∧
      (∃ t, chained.timeline chainedRules 2100 = .ok t ∧ t.lastYear = 2100 ∧ t.periods =
        [(⟨3000000, some ⟨"LMT", 0⟩, []⟩, some ⟨1900, ⟨1, 1, 0, false, 0, .wall⟩⟩),
          (⟨3600000, some ⟨"XST/XDT", 1800000⟩, []⟩,
            some ⟨1950, ⟨4, 1, 0, false, 7200000, .standard⟩⟩),
          (⟨3600000, none,
            [⟨⟨3600000, "XDT"⟩, 1950, 1960, ⟨4, -1, 7, false, 7200000, .wall⟩⟩,
              ⟨⟨0, "XST"⟩, 1950, 9999, ⟨10, -1, 7, false, 7200000, .standard⟩⟩]⟩, none)]) ∧
      ¬ chained.Resolved .empty ∧
      chained.timeline .empty 2100 = .error { zone := "Test/Zone", ruleSet := "XX" } ∧
      Zone.timeline { chained with eras := chained.eras.take 3 } chainedRules 2100 =
        chained.timeline chainedRules 2100 := by
  have hnames : chained.ruleSetNames = ["XX"] := by decide
  have hresolved : chained.Resolved chainedRules := by
    rw [Resolved, hnames]
    decide
  have hmissing : ¬ chained.Resolved .empty := by
    rw [Resolved, hnames]
    decide
  obtain ⟨t, htimeline, hlastYear, hperiods⟩ := (timeline_transcribes chained _ 2100).1 hresolved
  have hbehind := (timeline_transcribes chained chainedRules 2100).2.2
    { chained with eras := chained.eras.take 3 } chainedRules rfl rfl fun _ _ => rfl
  refine ⟨hresolved, ⟨t, htimeline, hlastYear, hperiods.trans (by decide +kernel)⟩, hmissing, ?_,
    hbehind⟩
  obtain ⟨before, era, after, name, hsplit, -, hnamed, -, hfailure, -⟩ :=
    (timeline_transcribes chained _ 2100).2.1 hmissing
  have hname : name ∈ chained.ruleSetNames := by
    rw [ruleSetNames, hsplit, List.mem_filterMap]
    exact ⟨era, by simp, by simp [Era.ruleSet?, hnamed]⟩
  rw [hnames, List.mem_singleton] at hname
  rw [hfailure, hname]
  rfl

end Zone

end ZoneHistory
