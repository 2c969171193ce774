import ZoneHistory.Keyed
import ZoneHistory.Notice
import ZoneHistory.Rule
import ZoneHistory.Timeline
import ZoneHistory.Zone

/-!
# Instructions of a zone

A zone is put on a timeline era by era: its offset, its savings, and its end. The first era without
an end is the last; a rule set that is not known ends the instructions with a failure.
-/
namespace ZoneHistory

/-- A zone names a rule set that is not there. -/
structure UnknownRuleSet where
  zone : String
  ruleSet : String
  deriving DecidableEq

def UnknownRuleSet.message (e : UnknownRuleSet) : String :=
  s!"{e.zone}: Rules not found: {e.ruleSet}"

/-- The rule as a recurrence in an era of the given format. -/
def Rule.recurrence (rule : Rule) (format : String) : Recurrence :=
  ⟨⟨rule.save, rule.abbreviation format⟩, rule.fromYear, rule.toYear, rule.date⟩

/-- The recurrences of a rule set in an era of the given format, in its order. -/
def RuleSet.instructions (set : RuleSet) (format : String) : List Timeline.Instruction :=
  set.rules.map fun rule => .addRecurrence (rule.recurrence format)

/-- What a zone puts on a timeline, what was noticed, and the failure that ended it, if any. -/
structure Feed where
  instructions : List Timeline.Instruction
  notices : List Notice
  failure : Option UnknownRuleSet

/-- The instructions for the savings of an era, or the name of a rule set that is not there. -/
def Era.savingsInstructions (era : Era) (ruleSets : Keyed RuleSet) :
    Except String (List Timeline.Instruction) :=
  match era.savings with
  | .none => .ok [.setFixedSavings ⟨era.format, 0⟩]
  | .fixed save => .ok [.setFixedSavings ⟨era.format, save⟩]
  | .named name =>
    match ruleSets.find? name with
    | some set => .ok (set.instructions era.format)
    | none => .error name

/-- What the eras of a zone put on a timeline. -/
def feedEras (zone : String) (ruleSets : Keyed RuleSet) : List Era → Feed
  | [] => ⟨[], [], none⟩
  | era :: rest =>
    match era.savingsInstructions ruleSets with
    | .error name => ⟨[.setStandardOffset era.standardOffset], [], some ⟨zone, name⟩⟩
    | .ok savings =>
      let opening := .setStandardOffset era.standardOffset :: savings
      match era.cutover with
      | none => ⟨opening, if rest.isEmpty then [] else [.erasIgnored zone rest.length], none⟩
      | some cutover =>
        let feed := feedEras zone ruleSets rest
        { feed with instructions := opening ++ .addCutover cutover :: feed.instructions }

def Zone.feed (zone : Zone) (ruleSets : Keyed RuleSet) : Feed :=
  feedEras zone.name ruleSets zone.eras

/-- Whether a zone that can be put on a timeline has recurring savings. -/
def Zone.hasRecurrences (zone : Zone) (ruleSets : Keyed RuleSet) : Bool :=
  let feed := zone.feed ruleSets
  feed.failure.isNone && feed.instructions.any fun instruction =>
    match instruction with
    | .addRecurrence _ => true
    | _ => false

end ZoneHistory
