import ZoneHistory.Proofs.Keyed.Lookup
import ZoneHistory.Proofs.Reading

/-!
# Lines that are quoted

A rule and an era keep the line they were read from, and a failure quotes it. Nothing else comes of
the text of a line than its margin and its fields: lines of the same shape are read alike, apart
from what is kept and quoted of them.
-/
namespace ZoneHistory

/-- The failure without the line that it quotes. -/
def ParseError.bare : ParseError → ParseError
  | ruleFieldCount count _ => ruleFieldCount count ""
  | eraFieldCount count _ => eraFieldCount count ""
  | invalidUntilYear text _ => invalidUntilYear text ""
  | missingZoneName _ => missingZoneName ""
  | missingLinkField _ => missingLinkField ""
  | yearsReversed rule toYear fromYear _ => yearsReversed rule toYear fromYear ""
  | cause => cause

@[simp] theorem ParseError.kind_bare (cause : ParseError) : cause.bare.kind = cause.kind := by
  cases cause <;> rfl

def Rule.bare (rule : Rule) : Rule := { rule with line := "" }

def RuleSet.bare (set : RuleSet) : RuleSet := { set with rules := set.rules.map Rule.bare }

def Era.bare (era : Era) : Era := { era with line := "" }

def Zone.bare (zone : Zone) : Zone := { zone with eras := zone.eras.map Era.bare }

def Record.bare : Record → Record
  | .rule found => .rule found.bare
  | .zone found => .zone found.bare
  | record => record

/-- The session without the lines that its rules and eras keep. -/
def Session.bare (session : Session) : Session :=
  { session with
    ruleSets := session.ruleSets.mapValues RuleSet.bare
    zones := session.zones.map Zone.bare }

def Progress.bare (p : Progress) : Progress := ⟨p.session.bare, p.current.map Zone.bare⟩

@[simp] theorem Zone.bare_chain (zone : Zone) (era : Era) :
    (zone.chain era).bare = zone.bare.chain era.bare := by
  simp [bare, chain]

@[simp] theorem Session.bare_close (session : Session) (current : Option Zone) :
    (session.close current).bare = session.bare.close (current.map Zone.bare) := by
  cases current <;> simp [close, bare]

theorem Progress.bare_closed (p : Progress) : p.closed.bare = p.bare.closed :=
  p.session.bare_close p.current

/-! ## Records of the same fields -/

section Results

variable {α β γ δ : Type}

/-- A result without the lines that are quoted in it. -/
def bareResult (bare : α → β) : Except ParseError α → Except ParseError β
  | .ok a => .ok (bare a)
  | .error cause => .error cause.bare

theorem bareResult_map {bare : α → β} {bare' : γ → δ} {f f' : α → γ} (g : β → δ)
    (hf : ∀ a, bare' (f a) = g (bare a)) (hf' : ∀ a, bare' (f' a) = g (bare a))
    {result other : Except ParseError α} (h : bareResult bare result = bareResult bare other) :
    bareResult bare' (result.map f) = bareResult bare' (other.map f') := by
  have hmap : bareResult bare' (result.map f) = (bareResult bare result).map g := by
    cases result with
    | error cause => rfl
    | ok a => exact congrArg Except.ok (hf a)
  have hmap' : bareResult bare' (other.map f') = (bareResult bare other).map g := by
    cases other with
    | error cause => rfl
    | ok a => exact congrArg Except.ok (hf' a)
  rw [hmap, hmap', h]

theorem bareResult_bind {bare : α → β} {bare' : γ → δ} {result other : Except ParseError α}
    {next next' : α → Except ParseError γ} (h : bareResult bare result = bareResult bare other)
    (hnext : ∀ a a', bare a = bare a' → bareResult bare' (next a) = bareResult bare' (next' a')) :
    bareResult bare' (result >>= next) = bareResult bare' (other >>= next') := by
  cases result with
  | error cause =>
    cases other with
    | error cause' =>
      have hcause : cause.bare = cause'.bare := Except.error.inj h
      exact congrArg Except.error hcause
    | ok a' => cases h
  | ok a =>
    cases other with
    | error cause' => cases h
    | ok a' => exact hnext a a' (Except.ok.inj h)

/-- What comes first may be the same although what follows it is not. -/
theorem bareResult_bind_right {bare : β → γ} {result : Except ParseError α}
    {next next' : α → Except ParseError β}
    (hnext : ∀ a, bareResult bare (next a) = bareResult bare (next' a)) :
    bareResult bare (result >>= next) = bareResult bare (result >>= next') := by
  cases result with
  | error cause => rfl
  | ok a => exact hnext a

end Results

theorem Rule.bareResult_parse (fields : List String) (line other : String) :
    bareResult bare (parse fields line) = bareResult bare (parse fields other) := by
  unfold parse
  split
  · refine bareResult_bind_right fun fromYear => bareResult_bind_right fun toYear => ?_
    split
    · rfl
    · exact bareResult_bind_right fun date => bareResult_bind_right fun save => rfl
  · rfl

theorem Cutover.bareResult_parse (year : String) (fields : List String) (line other : String) :
    bareResult id (parse year fields line) = bareResult id (parse year fields other) := by
  unfold parse
  split <;> rfl

theorem Era.bareResult_parse (fields : List String) (line other : String) :
    bareResult bare (parse fields line) = bareResult bare (parse fields other) := by
  unfold parse
  split
  · next offset savings format rest =>
    extract_lets afterCutover afterCutover'
    -- What follows the end of the era is the same for all eras, whether they have an end or not.
    have hafter : ∀ cutover,
        bareResult bare (afterCutover cutover) = bareResult bare (afterCutover' cutover) := by
      intro cutover
      exact bareResult_bind_right fun standardOffset => bareResult_bind_right fun savings => rfl
    cases rest with
    | nil => exact hafter none
    | cons year date =>
      have hcutover : bareResult id ((Cutover.parse year date line).map some) =
          bareResult id ((Cutover.parse year date other).map some) := by
        refine bareResult_map some ?_ ?_ (Cutover.bareResult_parse year date line other)
        · exact fun _ => rfl
        · exact fun _ => rfl
      refine bareResult_bind hcutover fun cutover cutover' hsame => ?_
      obtain rfl : cutover = cutover' := hsame
      exact hafter cutover
  · rfl

theorem Record.bareResult_parse (fields : List String) (line other : String) :
    bareResult bare (parse fields line) = bareResult bare (parse fields other) := by
  unfold parse
  split
  · rfl
  · next keyword fields =>
    dsimp only
    split
    · refine bareResult_map rule ?_ ?_ (Rule.bareResult_parse fields line other)
      · exact fun _ => rfl
      · exact fun _ => rfl
    · split
      · split
        · rfl
        · next name fields =>
          refine bareResult_map (fun era => zone ⟨name, [era]⟩) ?_ ?_
            (Era.bareResult_parse fields line other)
          · exact fun _ => rfl
          · exact fun _ => rfl
      · split
        · split <;> rfl
        · rfl

/-! ## Lines of the same shape -/

theorem Keyed.mapValues_put {α β : Type} (f : α → β) (m : Keyed α) (key : String) (value : α) :
    (m.put key value).mapValues f = (m.mapValues f).put key (f value) := by
  apply Keyed.ext
  change (assign key value m.entries).map _ = assign key (f value) (m.entries.map _)
  induction m.entries with
  | nil => rfl
  | cons entry rest ih =>
    by_cases hentry : entry.1 = key
    · simp [assign, hentry]
    · simp [assign, hentry, ih]

namespace Session

theorem bare_addRule (session : Session) (rule : Rule) :
    bareResult bare (session.addRule rule) = session.bare.addRule rule.bare := by
  have hfind : session.bare.ruleSets.find? rule.bare.name =
      (session.ruleSets.find? rule.name).map RuleSet.bare := Keyed.find?_mapValues _ _ _
  have hput : ∀ set, bare { session with ruleSets := session.ruleSets.put rule.name set } =
      { session.bare with ruleSets := session.bare.ruleSets.put rule.name set.bare } := by
    intro set
    simp only [bare, Keyed.mapValues_put]
  unfold addRule
  rw [hfind]
  cases session.ruleSets.find? rule.name with
  | none => exact congrArg Except.ok (hput _)
  | some set =>
    have hname : set.bare.name = set.name := rfl
    by_cases hsame : rule.name = set.name
    · have hadd : set.add rule = .ok { set with rules := set.rules ++ [rule] } := if_pos hsame
      have hbare : set.bare.add rule.bare =
          .ok (RuleSet.bare { set with rules := set.rules ++ [rule] }) := by
        simp [RuleSet.add, RuleSet.bare, Rule.bare, hsame]
      simp only [Option.map_some, hadd, hbare]
      exact congrArg Except.ok (hput _)
    · have hadd : set.add rule = .error (.ruleNameMismatch rule.name set.name) := if_neg hsame
      have hbare : set.bare.add rule.bare = .error (.ruleNameMismatch rule.name set.name) :=
        if_neg hsame
      simp only [Option.map_some, hadd, hbare]
      rfl

/-- A session into which a record was taken, and the zone that it may have opened. -/
def bareAdded (added : Session × Option Zone) : Session × Option Zone :=
  (added.1.bare, added.2.map Zone.bare)

theorem bare_addRecord (session : Session) (record : Record) :
    bareResult bareAdded (session.addRecord record) = session.bare.addRecord record.bare := by
  cases record with
  | rule rule =>
    have hadd := session.bare_addRule rule
    simp only [addRecord, Record.bare, ← hadd]
    cases session.addRule rule <;> rfl
  | zone zone => rfl
  | link link => rfl
  | unknown => rfl

end Session

namespace Progress

variable {p q : Progress}

/-- What comes of lines, without the lines that are kept and quoted. -/
def bareOutcome :
    Except (Session × ParseError) Progress → Except (Session × ParseError) Progress
  | .ok p => .ok p.bare
  | .error (session, cause) => .error (session.bare, cause.bare)

theorem bareOutcome_mapError {session session' : Session}
    {result other : Except ParseError Progress} (hsession : session.bare = session'.bare)
    (h : bareResult bare result = bareResult bare other) :
    bareOutcome (result.mapError (session, ·)) = bareOutcome (other.mapError (session', ·)) := by
  cases result with
  | error cause =>
    cases other with
    | error cause' =>
      have hcause : cause.bare = cause'.bare := Except.error.inj h
      exact congrArg Except.error (Prod.ext hsession hcause)
    | ok next' => cases h
  | ok next =>
    cases other with
    | error cause' => cases h
    | ok next' =>
      have hnext : next.bare = next'.bare := Except.ok.inj h
      exact congrArg Except.ok hnext

theorem take_of_continuation {raw : String} {fields : List String} {zone : Zone}
    (hshape : LineShape.ofRaw raw = .continuation fields) (hcurrent : p.current = some zone) :
    p.take raw = ((Era.parse fields (Text.dropLineFeeds raw)).map fun era =>
      (⟨p.session, some (zone.chain era)⟩ : Progress)).mapError (p.session, ·) := by
  unfold take
  rw [hshape, hcurrent]
  dsimp only
  cases Era.parse fields (Text.dropLineFeeds raw) <;> rfl

theorem take_of_record {raw : String} {fields : List String}
    (hshape : LineShape.ofRaw raw = .record fields) :
    p.take raw = ((Record.parse fields (Text.dropLineFeeds raw) >>= p.closed.addRecord).map
      fun added => (⟨added.1, added.2⟩ : Progress)).mapError (p.closed, ·) := by
  unfold take
  rw [hshape]
  dsimp only
  cases Record.parse fields (Text.dropLineFeeds raw) with
  | error cause => rfl
  | ok record =>
    have hbind : (Except.ok record >>= p.closed.addRecord) = p.closed.addRecord record := rfl
    rw [hbind]
    dsimp only
    cases p.closed.addRecord record <;> rfl

/-- Lines of the same shape do the same, apart from what is kept and quoted of them. -/
theorem bareOutcome_take {raw other : String} (h : p.bare = q.bare)
    (hshape : LineShape.ofRaw raw = LineShape.ofRaw other) :
    bareOutcome (p.take raw) = bareOutcome (q.take other) := by
  have hsession : p.session.bare = q.session.bare := congrArg Progress.session h
  have hcurrent : p.current.map Zone.bare = q.current.map Zone.bare := congrArg Progress.current h
  have hclosed : p.closed.bare = q.closed.bare := by rw [bare_closed, bare_closed, h]
  cases hother : LineShape.ofRaw other with
  | blank =>
    unfold take
    rw [hshape, hother]
    exact congrArg Except.ok h
  | continuation fields =>
    cases hp : p.current with
    | none =>
      have hq : q.current = none := by simpa [hp, eq_comm] using hcurrent
      unfold take
      rw [hshape, hother, hp, hq]
      exact congrArg Except.ok h
    | some zone =>
      obtain ⟨zone', hq, hzone⟩ : ∃ zone', q.current = some zone' ∧ zone'.bare = zone.bare := by
        simpa [hp, eq_comm] using hcurrent
      rw [take_of_continuation (hshape.trans hother) hp, take_of_continuation hother hq]
      refine bareOutcome_mapError hsession ?_
      refine bareResult_map (fun era => ⟨p.session.bare, some (zone.bare.chain era)⟩) ?_ ?_
        (Era.bareResult_parse fields _ _)
      · simp [bare]
      · simp [bare, hsession, hzone]
  | record fields =>
    rw [take_of_record (hshape.trans hother), take_of_record hother]
    refine bareOutcome_mapError hclosed ?_
    have hadded : bareResult Session.bareAdded
          (Record.parse fields (Text.dropLineFeeds raw) >>= p.closed.addRecord) =
        bareResult Session.bareAdded
          (Record.parse fields (Text.dropLineFeeds other) >>= q.closed.addRecord) := by
      refine bareResult_bind (Record.bareResult_parse fields _ _) fun record record' hrecord => ?_
      rw [Session.bare_addRecord, Session.bare_addRecord, hclosed, hrecord]
    refine bareResult_map (fun added => ⟨added.1, added.2⟩) ?_ ?_ hadded
    · exact fun _ => rfl
    · exact fun _ => rfl

end Progress

end ZoneHistory
