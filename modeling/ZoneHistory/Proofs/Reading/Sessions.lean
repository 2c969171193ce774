import ZoneHistory.Proofs.Keyed
import ZoneHistory.Proofs.Reading.Fields
import ZoneHistory.Proofs.Reading.Zones

/-!
# What a session collects

However often a session is read into, and wherever the readings fail, its rule sets are the rules of
all lines that were read, gathered by their names in the order in which they came. Which lines these
are shows in the lines alone, whatever is in the session.
-/
namespace ZoneHistory

/-- A line behind these is read: its fields make up the record or the era that it is. Those of a line
that would continue a zone do not matter where there is no zone to continue. -/
def isRead (before : List String) (raw : String) : Bool :=
  match LineShape.ofRaw raw with
  | .blank => true
  | .continuation fields =>
    decide (InZone before → (Era.parse fields (Text.dropLineFeeds raw)).isOk = true)
  | .record fields => (Record.parse fields (Text.dropLineFeeds raw)).isOk

/-- The lines in front of the first that is not read, where others stand before them. -/
def linesRead (before : List String) : List String → List String
  | [] => []
  | raw :: rest => if isRead before raw then raw :: linesRead (before ++ [raw]) rest else []

/-- The rule of a line, if it is the record of one. -/
def ruleLine? (raw : String) : Option Rule :=
  (recordFields? "rule" raw).bind fun fields =>
    (Rule.parse fields (Text.dropLineFeeds raw)).toOption

theorem ruleLine?_of_none {raw : String} (h : recordFields? "rule" raw = none) :
    ruleLine? raw = none := by
  rw [ruleLine?, h]
  rfl

theorem ruleLine?_of_not_record {raw : String}
    (h : ∀ fields, LineShape.ofRaw raw ≠ .record fields) : ruleLine? raw = none :=
  ruleLine?_of_none (recordFields?_of_not_record h)

theorem ruleLine?_of_parse {raw : String} {fields : List String} {rule : Rule}
    (hfields : recordFields? "rule" raw = some fields)
    (hrule : Rule.parse fields (Text.dropLineFeeds raw) = .ok rule) :
    ruleLine? raw = some rule := by
  rw [ruleLine?, hfields, Option.bind_some, hrule]
  rfl

/-- The rule of a record, if it is one. -/
def Record.rule? : Record → Option Rule
  | .rule found => some found
  | _ => none

theorem ruleLine?_of_record {raw : String} {fields : List String} {record : Record}
    (hshape : LineShape.ofRaw raw = .record fields)
    (hrecord : Record.parse fields (Text.dropLineFeeds raw) = .ok record) :
    ruleLine? raw = record.rule? := by
  have hnone : (∀ first rest, fields = first :: rest → Text.lowercase first ≠ "rule") →
      ruleLine? raw = none := by
    intro hkeyword
    refine ruleLine?_of_none (Option.eq_none_iff_forall_ne_some.mpr fun rest hrest => ?_)
    obtain ⟨first, hfirst, hrule⟩ := recordFields?_eq_some_iff.mp hrest
    exact hkeyword first rest (LineShape.record.inj (hshape.symm.trans hfirst)) hrule
  cases fields with
  | nil =>
    obtain rfl : Record.unknown = record := Except.ok.inj hrecord
    exact hnone nofun
  | cons first rest =>
    unfold Record.parse at hrecord
    dsimp only at hrecord
    by_cases hrule : Text.lowercase first = "rule"
    · rw [if_pos hrule] at hrecord
      cases hparse : Rule.parse rest (Text.dropLineFeeds raw) with
      | error cause =>
        rw [hparse] at hrecord
        cases hrecord
      | ok rule =>
        rw [hparse] at hrecord
        cases hrecord
        exact ruleLine?_of_parse (recordFields?_eq_some_iff.mpr ⟨first, hshape, hrule⟩) hparse
    · have hfirst : ruleLine? raw = none := by
        refine hnone fun other others hcons => ?_
        cases hcons
        exact hrule
      rw [hfirst]
      rw [if_neg hrule] at hrecord
      split at hrecord
      · split at hrecord
        · cases hrecord
        · next name others =>
          cases hera : Era.parse others (Text.dropLineFeeds raw) with
          | error cause =>
            rw [hera] at hrecord
            cases hrecord
          | ok era =>
            rw [hera] at hrecord
            cases hrecord
            rfl
      · split at hrecord
        · split at hrecord
          · cases hrecord
            rfl
          · cases hrecord
        · cases hrecord
          rfl

/-- Under a name stands a rule set of another name. -/
def Session.Misnamed (session : Session) (name : String) : Prop :=
  ∃ set, session.ruleSets.find? name = some set ∧ set.name ≠ name

/-- A rule is refused for a set of another name; else it goes into a set of its own. -/
theorem Session.addRule_cases (session : Session) (rule : Rule) :
    session.Misnamed rule.name ∧ (∃ set, session.addRule rule =
      .error (.ruleNameMismatch rule.name set)) ∨
    ¬ session.Misnamed rule.name ∧ ∃ set, set.name = rule.name ∧ session.addRule rule =
      .ok { session with ruleSets := session.ruleSets.put rule.name set } := by
  rw [addRule, Misnamed]
  cases session.ruleSets.find? rule.name with
  | none => exact Or.inr ⟨nofun, .single rule, rfl, rfl⟩
  | some set =>
    by_cases hname : rule.name = set.name
    · refine Or.inr ⟨?_, { set with rules := set.rules ++ [rule] }, hname.symm, ?_⟩
      · rintro ⟨other, hother, hne⟩
        cases hother
        exact hne hname.symm
      · simp only [RuleSet.add, if_pos hname]
        rfl
    · refine Or.inl ⟨⟨set, rfl, Ne.symm hname⟩, set.name, ?_⟩
      simp only [RuleSet.add, if_neg hname]
      rfl

theorem Session.isOk_addRecord_iff {session : Session} {record : Record} :
    (session.addRecord record).isOk = true ↔
      ∀ rule ∈ record.rule?, ¬ session.Misnamed rule.name := by
  cases record with
  | rule rule =>
    simp only [Record.rule?, Option.mem_def, Option.some.injEq, forall_eq']
    rw [addRecord]
    rcases session.addRule_cases rule with ⟨hmisnamed, set, hadd⟩ | ⟨hnamed, set, -, hadd⟩
    · rw [hadd]
      exact iff_of_false Bool.false_ne_true (not_not.mpr hmisnamed)
    · rw [hadd]
      exact iff_of_true rfl hnamed
  | zone zone => exact iff_of_true rfl (by simp [Record.rule?])
  | link link => exact iff_of_true rfl (by simp [Record.rule?])
  | unknown => exact iff_of_true rfl (by simp [Record.rule?])

/-- The rule sets hold the rules of their names, and come in the order of their first rules. -/
structure Grouped (ruleSets : Keyed RuleSet) (rules : List Rule) : Prop where
  keys_eq : ruleSets.keys = (rules.map (·.name)).eraseDups
  find?_eq : ∀ name, ruleSets.find? name =
    if name ∈ rules.map (·.name) then some ⟨name, rules.filter (·.name = name)⟩ else none

namespace Grouped

variable {ruleSets : Keyed RuleSet} {rules : List Rule} {name : String} {set : RuleSet}

theorem empty : Grouped .empty [] where
  keys_eq := rfl
  find?_eq _ := rfl

theorem put (h : Grouped ruleSets rules) (rule : Rule) :
    Grouped
      (ruleSets.put rule.name ⟨rule.name, rules.filter (·.name = rule.name) ++ [rule]⟩)
      (rules ++ [rule]) where
  keys_eq := by
    rw [Keyed.keys_put, h.keys_eq, List.map_append, List.map_singleton, Keyed.eraseDups_concat]
    simp only [List.mem_eraseDups]
  find?_eq := by
    intro name
    rw [Keyed.find?_put, h.find?_eq]
    by_cases hname : name = rule.name
    · subst hname
      simp
    · simp [hname, Ne.symm hname]

/-- A rule set of another name is never met. -/
theorem addRule_eq {session : Session} (h : Grouped session.ruleSets rules) (rule : Rule) :
    session.addRule rule = .ok { session with
      ruleSets := session.ruleSets.put rule.name
        ⟨rule.name, rules.filter (·.name = rule.name) ++ [rule]⟩ } := by
  have hfind := h.find?_eq rule.name
  rw [Session.addRule]
  split at hfind
  · rw [hfind]
    simp only [RuleSet.add, if_true]
    rfl
  · next hnew =>
    have hnone : rules.filter (·.name = rule.name) = [] := by
      rw [List.filter_eq_nil_iff]
      intro other hother
      simpa using fun hname : other.name = rule.name => hnew (hname ▸ List.mem_map_of_mem hother)
    rw [hfind, hnone]
    rfl

theorem of_find? (h : Grouped ruleSets rules) (hfind : ruleSets.find? name = some set) :
    set.name = name ∧ set.rules ≠ [] ∧ ∀ rule ∈ set.rules, rule ∈ rules ∧ rule.name = name := by
  rw [h.find?_eq] at hfind
  split at hfind
  · next hmem =>
    cases hfind
    obtain ⟨rule, hrule, rfl⟩ := List.mem_map.mp hmem
    refine ⟨rfl, List.ne_nil_of_mem (List.mem_filter.mpr ⟨hrule, decide_eq_true rfl⟩), ?_⟩
    intro other hother
    obtain ⟨hother, hname⟩ := List.mem_filter.mp hother
    exact ⟨hother, of_decide_eq_true hname⟩
  · cases hfind

theorem not_misnamed {session : Session} (h : Grouped session.ruleSets rules) (name : String) :
    ¬ session.Misnamed name := by
  rintro ⟨set, hfind, hname⟩
  exact hname (h.of_find? hfind).1

end Grouped

/-- What is in a session into which the rules were read. -/
structure Session.Collects (session : Session) (rules : List Rule) : Prop where
  grouped : Grouped session.ruleSets rules
  rules : ∀ rule ∈ rules, rule.Sound
  zones : ∀ zone ∈ session.zones, zone.Sound

theorem Zone.Sound.chain {zone : Zone} {era : Era} (h : zone.Sound) (hera : era.Sound) :
    (zone.chain era).Sound where
  nonempty := List.append_ne_nil_of_right_ne_nil _ (List.cons_ne_nil _ _)
  eras := List.forall_mem_append.mpr ⟨h.eras, List.forall_mem_singleton.mpr hera⟩

namespace Progress

variable {p next : Progress} {raw : String} {rules : List Rule} {before lines : List String}

/-- A line that is no rule and does not fail leaves the rule sets as they are. -/
theorem collects_of_step (h : p.closed.Collects rules) (hstep : Step raw p next) :
    next.closed.Collects (rules ++ (ruleLine? raw).toList) := by
  have hkept : ∀ {session : Session}, ruleLine? raw = none →
      session.ruleSets = p.closed.ruleSets → (∀ zone ∈ session.zones, zone.Sound) →
      session.Collects (rules ++ (ruleLine? raw).toList) := by
    intro session hnone hsets hzones
    rw [hnone, Option.toList_none, List.append_nil]
    exact ⟨hsets ▸ h.grouped, h.rules, hzones⟩
  cases hstep with
  | blank hshape => exact hkept (ruleLine?_of_not_record (by simp [hshape])) rfl h.zones
  | stray hshape => exact hkept (ruleLine?_of_not_record (by simp [hshape])) rfl h.zones
  | @era fields zone era hshape hcurrent hera =>
    have hsound := Era.gives_parse fields (Text.dropLineFeeds raw)
    rw [hera] at hsound
    obtain ⟨session, current⟩ := p
    cases hcurrent
    obtain ⟨hzones, hzone⟩ := List.forall_mem_append.mp h.zones
    refine hkept (ruleLine?_of_not_record (by simp [hshape])) rfl (List.forall_mem_append.mpr ?_)
    rw [List.forall_mem_singleton] at hzone ⊢
    exact ⟨hzones, hzone.chain hsound⟩
  | @rule rest rule session hfields hrule hadd =>
    have hsound := Rule.gives_parse rest (Text.dropLineFeeds raw)
    rw [hrule] at hsound
    rw [h.grouped.addRule_eq] at hadd
    cases hadd
    refine ⟨?_, ?_, h.zones⟩
    · rw [ruleLine?_of_parse hfields hrule]
      exact h.grouped.put rule
    · rw [ruleLine?_of_parse hfields hrule, Option.toList_some, List.forall_mem_append,
        List.forall_mem_singleton]
      exact ⟨h.rules, hsound⟩
  | @zone name rest era hfields hera =>
    have hsound := Era.gives_parse rest (Text.dropLineFeeds raw)
    rw [hera] at hsound
    have hopened : Zone.Sound ⟨name, [era]⟩ :=
      ⟨List.cons_ne_nil _ _, List.forall_mem_singleton.mpr hsound⟩
    exact hkept (ruleLine?_of_none (recordFields?_of_ne hfields (by decide))) rfl
      (List.forall_mem_append.mpr ⟨h.zones, List.forall_mem_singleton.mpr hopened⟩)
  | link hfields =>
    exact hkept (ruleLine?_of_none (recordFields?_of_ne hfields (by decide))) rfl h.zones
  | unknown hshape hkeyword =>
    exact hkept (ruleLine?_of_none (hkeyword "rule" (by decide))) rfl h.zones

/-- A line that fails adds nothing, and the zone that it would have continued is lost. -/
theorem collects_of_stop {session : Session} {cause : ParseError} (h : p.closed.Collects rules)
    (hstop : Stop raw p session cause) : session.Collects rules ∧ cause.OfLine := by
  have hfails : ∀ {α : Type} {value : α → Prop} {result : Except ParseError α},
      Gives value ParseError.OfLine result → result = .error cause → cause.OfLine := by
    rintro α value result hgives rfl
    exact hgives
  cases hstop with
  | era hshape hcurrent hera =>
    -- The open zone is not added, so there are only fewer zones.
    rw [closed, hcurrent] at h
    have hzones := (List.forall_mem_append.mp h.zones).1
    exact ⟨⟨h.grouped, h.rules, hzones⟩, hfails (Era.gives_parse _ _) hera⟩
  | rule hfields hrule => exact ⟨h, hfails (Rule.gives_parse _ _) hrule⟩
  | mismatch hfields hrule hadd =>
    -- A set stands under the name of its own rules, so there is nothing to mismatch.
    rw [h.grouped.addRule_eq] at hadd
    cases hadd
  | zoneName hfields => exact ⟨h, trivial⟩
  | zone hfields hera => exact ⟨h, hfails (Era.gives_parse _ _) hera⟩
  | link hfields hshort => exact ⟨h, trivial⟩

/-- A line is taken if it is read and its rule does not meet a set of another name. What was read
before only shows in whether a zone is open and in these sets. -/
theorem isOk_take_iff (hopen : p.current.isSome = true ↔ InZone before) (raw : String) :
    (p.take raw).isOk = true ↔
      isRead before raw = true ∧ ∀ rule ∈ ruleLine? raw, ¬ p.closed.Misnamed rule.name := by
  unfold take isRead
  cases hshape : LineShape.ofRaw raw with
  | blank => simp [ruleLine?_of_not_record, hshape, Except.isOk, Except.toBool]
  | continuation fields =>
    have hnone : ruleLine? raw = none := ruleLine?_of_not_record (by simp [hshape])
    simp only [hnone, Option.not_mem_none, false_imp_iff, implies_true, and_true,
      decide_eq_true_eq, ← hopen]
    cases p.current with
    | none => exact iff_of_true rfl nofun
    | some zone =>
      cases Era.parse fields (Text.dropLineFeeds raw) with
      | error cause => exact iff_of_false nofun fun h => nomatch h rfl
      | ok era => exact iff_of_true rfl fun _ => rfl
  | record fields =>
    dsimp only
    cases hrecord : Record.parse fields (Text.dropLineFeeds raw) with
    | error cause => exact iff_of_false nofun fun h => nomatch h.1
    | ok record =>
      have hiff : (p.closed.addRecord record).isOk = true ↔
          ∀ rule ∈ ruleLine? raw, ¬ p.closed.Misnamed rule.name := by
        rw [ruleLine?_of_record hshape hrecord]
        exact Session.isOk_addRecord_iff
      have hread : (Except.ok record : Except ParseError Record).isOk = true := rfl
      rw [← hiff, and_iff_right hread]
      dsimp only
      cases p.closed.addRecord record with
      | error cause => exact iff_of_false nofun nofun
      | ok added => exact iff_of_true rfl rfl

/-- What was read before only shows in whether a zone is open. -/
theorem isOk_take (h : p.closed.Collects rules) (hopen : p.current.isSome = true ↔ InZone before)
    (raw : String) : (p.take raw).isOk = isRead before raw := by
  rw [Bool.eq_iff_iff, isOk_take_iff hopen]
  exact and_iff_left fun rule _ => h.grouped.not_misnamed rule.name

/-- A run leaves the rules of the lines that are read, whether it fails or not. -/
theorem collects_ending (h : p.closed.Collects rules)
    (hopen : p.current.isSome = true ↔ InZone before) (lines : List String) :
    (ending (p.run lines)).Collects (rules ++ (linesRead before lines).filterMap ruleLine?) := by
  induction lines generalizing p before rules with
  | nil =>
    rw [linesRead, List.filterMap_nil, List.append_nil]
    exact h
  | cons raw rest ih =>
    rw [run_cons, linesRead]
    cases htake : p.take raw with
    | error fault =>
      obtain ⟨session, cause⟩ := fault
      have hfails : isRead before raw = false := by
        rw [← isOk_take h hopen, htake]
        rfl
      obtain ⟨hcollects, -⟩ := collects_of_stop h (stop_of_take htake)
      rw [if_neg (Bool.eq_false_iff.mp hfails), List.filterMap_nil, List.append_nil]
      exact hcollects
    | ok next =>
      have hread : isRead before raw = true := by
        rw [← isOk_take h hopen, htake]
        rfl
      have hstep := step_of_take htake
      have hnext := ih (collects_of_step h hstep) (current_of_step hopen hstep)
      rw [List.append_assoc] at hnext
      rw [if_pos hread, List.filterMap_cons]
      cases hrule : ruleLine? raw <;> rwa [hrule] at hnext

end Progress

namespace Session

/-- A request to read into a session. -/
inductive Call where
  | readLines (source : String) (lines : List String)
  | readText (source text : String)

def Call.source : Call → String
  | readLines source _ => source
  | readText source _ => source

def Call.lines : Call → List String
  | readLines _ lines => lines
  | readText _ text => Text.textLines text

def answer (session : Session) : Call → Reading
  | .readLines source lines => session.readLines source lines
  | .readText source text => session.readText source text

/-- The session that calls leave, one after the other; one that fails does not stop the next. -/
def after (session : Session) : List Call → Session
  | [] => session
  | call :: rest => (session.answer call).session.after rest

/-- The rules of all lines that the calls read. -/
def rulesOf (calls : List Call) : List Rule :=
  calls.flatMap fun call => (linesRead [] call.lines).filterMap ruleLine?

variable {session : Session} {rules : List Rule}

theorem answer_eq (session : Session) (call : Call) :
    session.answer call = Progress.read ⟨session, none⟩ call.source 1 call.lines := by
  cases call <;> rfl

theorem collects_answer (h : session.Collects rules) (call : Call) :
    (session.answer call).session.Collects
      (rules ++ (linesRead [] call.lines).filterMap ruleLine?) := by
  have hopened : (Progress.mk session none).closed.Collects rules := h
  rw [answer_eq, Progress.session_read]
  exact Progress.collects_ending hopened (Progress.current_iff_inZone_nil session) call.lines

/-- The line that fails stands behind lines that were read, so each rule set has rules of its own
name. -/
theorem cause_answer (h : session.Collects rules) {call : Call} {failure : SourceError}
    (hfailure : (session.answer call).failure = some failure) : failure.cause.OfLine := by
  have hopened : (Progress.mk session none).closed.Collects rules := h
  rw [answer_eq] at hfailure
  cases hrun : Progress.run ⟨session, none⟩ call.lines with
  | ok q =>
    rw [(Progress.read_of_run hrun).2] at hfailure
    cases hfailure
  | error fault =>
    obtain ⟨left, cause⟩ := fault
    obtain ⟨before, raw, after, q, hlines, hbefore, hstop⟩ := Progress.exists_of_run_eq_error hrun
    rw [hlines, (Progress.read_of_stop hbefore hstop).2] at hfailure
    cases hfailure
    have hread := Progress.collects_ending hopened (Progress.current_iff_inZone_nil session) before
    rw [hbefore] at hread
    rw [SourceError.cause_locate]
    exact (Progress.collects_of_stop hread (Progress.stop_of_take hstop)).2

theorem collects_empty : empty.Collects [] where
  grouped := .empty
  rules := List.forall_mem_nil _
  zones := List.forall_mem_nil _

theorem collects_after (h : session.Collects rules) (calls : List Call) :
    (session.after calls).Collects (rules ++ rulesOf calls) := by
  induction calls generalizing session rules with
  | nil => rwa [rulesOf, List.flatMap_nil, List.append_nil]
  | cons call rest ih =>
    rw [after, rulesOf, List.flatMap_cons, ← List.append_assoc]
    exact ih (collects_answer h call)

/-- Whatever was read into a session, and however the readings ended, its rule sets are the rules of
all lines that were read, by their names in the order in which they came. Each rule set has rules,
all of its own name and of at least one year, and each zone has eras. No reading ever fails for a
rule that would be put into a set of another name. -/
theorem ruleSets_after (calls : List Call) :
    let session := empty.after calls
    Grouped session.ruleSets (rulesOf calls) ∧
    (∀ name set, session.ruleSets.find? name = some set →
      set.name = name ∧ set.rules ≠ [] ∧
        ∀ rule ∈ set.rules, rule.name = name ∧ rule.fromYear ≤ rule.toYear) ∧
    (∀ zone ∈ session.zones, zone.eras ≠ []) ∧
    ∀ call failure, (session.answer call).failure = some failure →
      ∀ rule set, failure.cause ≠ .ruleNameMismatch rule set := by
  have hcollects := collects_after collects_empty calls
  rw [List.nil_append] at hcollects
  refine ⟨hcollects.grouped, fun name set hset => ?_, fun zone hzone => ?_, ?_⟩
  · obtain ⟨hname, hnonempty, hrules⟩ := hcollects.grouped.of_find? hset
    refine ⟨hname, hnonempty, fun rule hrule => ?_⟩
    obtain ⟨hmem, hrule⟩ := hrules rule hrule
    exact ⟨hrule, (hcollects.rules rule hmem).years⟩
  · exact (hcollects.zones zone hzone).nonempty
  · intro call failure hfailure rule set hcause
    have hofLine := cause_answer hcollects hfailure
    rw [hcause] at hofLine
    exact hofLine

/-- The first reading fails in its second line, and what it read stays. -/
example : (rulesOf [.readLines "first" ["Rule B 1980 only - Apr 6 0 1 S", "Rule B"],
    .readText "second" "Rule A 1979 max - Oct 1 0 0 -\n"]).map (·.name) = ["B", "A"] := by
  decide +kernel

end Session

end ZoneHistory
