import ZoneHistory.Session

/-!
# Reading line by line

Between two lines of a source there is a session and perhaps an open zone. Each line leads on from
there or ends the reading, so a source is read by running through its lines up to the first that
fails.
-/
namespace ZoneHistory

/-- What a line is, line feeds at its end apart. -/
def LineShape.ofRaw (raw : String) : LineShape := .ofLine (Text.dropLineFeeds raw)

/-- The fields behind the keyword, if a line is a record of this keyword. -/
def recordFields? (keyword raw : String) : Option (List String) :=
  match LineShape.ofRaw raw with
  | .record (first :: rest) => if Text.lowercase first = keyword then some rest else none
  | _ => none

theorem recordFields?_eq_some_iff {keyword raw : String} {rest : List String} :
    recordFields? keyword raw = some rest ↔
      ∃ first, LineShape.ofRaw raw = .record (first :: rest) ∧ Text.lowercase first = keyword := by
  unfold recordFields?
  split
  · next first others hshape =>
    rw [hshape]
    constructor
    · intro h
      split at h
      · next hkeyword =>
        cases h
        exact ⟨first, rfl, hkeyword⟩
      · cases h
    · rintro ⟨other, hother, hkeyword⟩
      cases hother
      rw [if_pos hkeyword]
  · next hother =>
    refine iff_of_false nofun ?_
    rintro ⟨first, hshape, -⟩
    exact hother first rest hshape

/-- A line is a record of one keyword at most. -/
theorem recordFields?_of_ne {keyword other raw : String} {rest : List String}
    (h : recordFields? keyword raw = some rest) (hne : other ≠ keyword) :
    recordFields? other raw = none := by
  obtain ⟨first, hshape, rfl⟩ := recordFields?_eq_some_iff.mp h
  unfold recordFields?
  rw [hshape]
  exact if_neg (Ne.symm hne)

theorem recordFields?_of_not_record {keyword raw : String}
    (h : ∀ fields, LineShape.ofRaw raw ≠ .record fields) : recordFields? keyword raw = none := by
  unfold recordFields?
  split
  · next first rest hshape => exact absurd hshape (h _)
  · rfl

/-- A failure without its place. -/
def SourceError.cause : SourceError → ParseError
  | located _ _ cause => cause
  | numeralTooLong => .numeralTooLong

@[simp] theorem SourceError.cause_locate (cause : ParseError) (source : String) (n : Nat) :
    (cause.locate source n).cause = cause := by
  cases cause <;> rfl

/-- The reading with notices that were given before. -/
def Session.Reading.following (notices : List Notice) (reading : Reading) : Reading :=
  { reading with notices := notices ++ reading.notices }

@[simp] theorem Session.Reading.session_following (notices : List Notice) (reading : Reading) :
    (reading.following notices).session = reading.session := rfl

@[simp] theorem Session.Reading.failure_following (notices : List Notice) (reading : Reading) :
    (reading.following notices).failure = reading.failure := rfl

/-- What there is between two lines of a source. -/
structure Progress where
  session : Session
  /-- The open zone. -/
  current : Option Zone

namespace Progress

/-- The session when the open zone is added to it. -/
def closed (p : Progress) : Session := p.session.close p.current

/-- What there is after one more line, or the session that is left if the line fails, and why. -/
def take (p : Progress) (raw : String) : Except (Session × ParseError) Progress :=
  match LineShape.ofRaw raw with
  | .blank => .ok p
  | .continuation fields =>
    match p.current with
    | none => .ok p
    | some zone =>
      match Era.parse fields (Text.dropLineFeeds raw) with
      | .error cause => .error (p.session, cause)
      | .ok era => .ok ⟨p.session, some (zone.chain era)⟩
  | .record fields =>
    match Record.parse fields (Text.dropLineFeeds raw) with
    | .error cause => .error (p.closed, cause)
    | .ok record =>
      match p.closed.addRecord record with
      | .error cause => .error (p.closed, cause)
      | .ok (session, opened) => .ok ⟨session, opened⟩

/-- What is noticed at a line that does not fail. -/
def notices (p : Progress) (source : String) (n : Nat) (raw : String) : List Notice :=
  match LineShape.ofRaw raw with
  | .blank => []
  | .continuation _ =>
    match p.current with
    | none => [.strayContinuation source n (Text.dropLineFeeds raw)]
    | some _ => []
  | .record fields =>
    match Record.parse fields (Text.dropLineFeeds raw) with
    | .ok .unknown => [.unknownLine (Text.dropLineFeeds raw)]
    | _ => []

/-- Read lines from line number `n` on. -/
def read (p : Progress) (source : String) (n : Nat) (lines : List String) : Session.Reading :=
  Session.readFrom source n lines p.session p.current

/-- What there is after all the lines, if none of them fails. -/
def run (p : Progress) (lines : List String) : Except (Session × ParseError) Progress :=
  lines.foldlM take p

/-! ## What a line does -/

variable {raw : String} {p q : Progress}

/-- What there may be after a line that does not fail. -/
inductive Step (raw : String) (p : Progress) : Progress → Prop
  | blank (hshape : LineShape.ofRaw raw = .blank) : Step raw p p
  | stray {fields} (hshape : LineShape.ofRaw raw = .continuation fields)
      (hcurrent : p.current = none) : Step raw p p
  | era {fields zone era} (hshape : LineShape.ofRaw raw = .continuation fields)
      (hcurrent : p.current = some zone)
      (hera : Era.parse fields (Text.dropLineFeeds raw) = .ok era) :
      Step raw p ⟨p.session, some (zone.chain era)⟩
  | rule {rest rule session} (hfields : recordFields? "rule" raw = some rest)
      (hrule : Rule.parse rest (Text.dropLineFeeds raw) = .ok rule)
      (hadd : p.closed.addRule rule = .ok session) : Step raw p ⟨session, none⟩
  | zone {name rest era} (hfields : recordFields? "zone" raw = some (name :: rest))
      (hera : Era.parse rest (Text.dropLineFeeds raw) = .ok era) :
      Step raw p ⟨p.closed, some ⟨name, [era]⟩⟩
  | link {target name rest} (hfields : recordFields? "link" raw = some (target :: name :: rest)) :
      Step raw p ⟨{ p.closed with links := p.closed.links ++ [⟨target, name⟩] }, none⟩
  | unknown {fields} (hshape : LineShape.ofRaw raw = .record fields)
      (hkeyword : ∀ keyword ∈ ["rule", "zone", "link"], recordFields? keyword raw = none) :
      Step raw p ⟨p.closed, none⟩

/-- What may be left by a line that fails, and why. -/
inductive Stop (raw : String) (p : Progress) : Session → ParseError → Prop
  | era {fields zone cause} (hshape : LineShape.ofRaw raw = .continuation fields)
      (hcurrent : p.current = some zone)
      (hera : Era.parse fields (Text.dropLineFeeds raw) = .error cause) :
      Stop raw p p.session cause
  | rule {rest cause} (hfields : recordFields? "rule" raw = some rest)
      (hrule : Rule.parse rest (Text.dropLineFeeds raw) = .error cause) : Stop raw p p.closed cause
  | mismatch {rest rule cause} (hfields : recordFields? "rule" raw = some rest)
      (hrule : Rule.parse rest (Text.dropLineFeeds raw) = .ok rule)
      (hadd : p.closed.addRule rule = .error cause) : Stop raw p p.closed cause
  | zoneName (hfields : recordFields? "zone" raw = some []) :
      Stop raw p p.closed (.missingZoneName (Text.dropLineFeeds raw))
  | zone {name rest cause} (hfields : recordFields? "zone" raw = some (name :: rest))
      (hera : Era.parse rest (Text.dropLineFeeds raw) = .error cause) : Stop raw p p.closed cause
  | link {rest} (hfields : recordFields? "link" raw = some rest) (hshort : rest.length < 2) :
      Stop raw p p.closed (.missingLinkField (Text.dropLineFeeds raw))

theorem take_cases_of_record {first : String} {rest : List String}
    (hshape : LineShape.ofRaw raw = .record (first :: rest)) :
    (∃ next, p.take raw = .ok next ∧ Step raw p next) ∨
      ∃ session cause, p.take raw = .error (session, cause) ∧ Stop raw p session cause := by
  have hfields : ∀ keyword, Text.lowercase first = keyword →
      recordFields? keyword raw = some rest :=
    fun keyword hkeyword => recordFields?_eq_some_iff.mpr ⟨first, hshape, hkeyword⟩
  unfold take
  rw [hshape]
  simp only [Record.parse]
  by_cases hrule : Text.lowercase first = "rule"
  · rw [if_pos hrule]
    cases hparse : Rule.parse rest (Text.dropLineFeeds raw) with
    | error cause => exact Or.inr ⟨_, _, rfl, .rule (hfields _ hrule) hparse⟩
    | ok rule =>
      simp only [Except.map, Session.addRecord]
      cases hadd : p.closed.addRule rule with
      | error cause => exact Or.inr ⟨_, _, rfl, .mismatch (hfields _ hrule) hparse hadd⟩
      | ok session => exact Or.inl ⟨_, rfl, .rule (hfields _ hrule) hparse hadd⟩
  rw [if_neg hrule]
  by_cases hzone : Text.lowercase first = "zone"
  · rw [if_pos hzone]
    cases rest with
    | nil => exact Or.inr ⟨_, _, rfl, .zoneName (hfields _ hzone)⟩
    | cons name rest =>
      cases hera : Era.parse rest (Text.dropLineFeeds raw) with
      | error cause =>
        exact Or.inr ⟨_, _, by simp only [hera, Except.map], .zone (hfields _ hzone) hera⟩
      | ok era =>
        exact Or.inl ⟨_, by simp only [hera, Except.map, Session.addRecord],
          .zone (hfields _ hzone) hera⟩
  rw [if_neg hzone]
  by_cases hlink : Text.lowercase first = "link"
  · rw [if_pos hlink]
    match rest, hfields _ hlink with
    | [], hfields => exact Or.inr ⟨_, _, rfl, .link hfields (by decide)⟩
    | [target], hfields => exact Or.inr ⟨_, _, rfl, .link hfields (by simp)⟩
    | target :: name :: rest, hfields => exact Or.inl ⟨_, rfl, .link hfields⟩
  · rw [if_neg hlink]
    refine Or.inl ⟨_, rfl, .unknown hshape ?_⟩
    intro keyword hkeyword
    unfold recordFields?
    rw [hshape]
    refine if_neg ?_
    rintro rfl
    simp_all

theorem take_cases (p : Progress) (raw : String) :
    (∃ next, p.take raw = .ok next ∧ Step raw p next) ∨
      ∃ session cause, p.take raw = .error (session, cause) ∧ Stop raw p session cause := by
  cases hshape : LineShape.ofRaw raw with
  | blank =>
    refine Or.inl ⟨p, ?_, .blank hshape⟩
    unfold take
    rw [hshape]
  | continuation fields =>
    unfold take
    rw [hshape]
    cases hcurrent : p.current with
    | none => exact Or.inl ⟨p, rfl, .stray hshape hcurrent⟩
    | some zone =>
      cases hera : Era.parse fields (Text.dropLineFeeds raw) with
      | error cause => exact Or.inr ⟨_, _, by simp only [hera], .era hshape hcurrent hera⟩
      | ok era => exact Or.inl ⟨_, by simp only [hera], .era hshape hcurrent hera⟩
  | record fields =>
    cases fields with
    | nil =>
      unfold take
      rw [hshape]
      refine Or.inl ⟨⟨p.closed, none⟩, rfl, .unknown hshape ?_⟩
      intro keyword _
      unfold recordFields?
      rw [hshape]
    | cons first rest => exact take_cases_of_record hshape

theorem step_of_take {next : Progress} (h : p.take raw = .ok next) : Step raw p next := by
  rcases take_cases p raw with ⟨found, htake, hstep⟩ | ⟨session, cause, htake, -⟩
  · rw [h] at htake
    cases htake
    exact hstep
  · rw [h] at htake
    cases htake

theorem stop_of_take {session : Session} {cause : ParseError}
    (h : p.take raw = .error (session, cause)) : Stop raw p session cause := by
  rcases take_cases p raw with ⟨found, htake, -⟩ | ⟨_, _, htake, hstop⟩
  · rw [h] at htake
    cases htake
  · rw [h] at htake
    cases htake
    exact hstop

/-! ## Runs of lines -/

@[simp] theorem run_nil (p : Progress) : p.run [] = .ok p := rfl

theorem run_cons (p : Progress) (raw : String) (rest : List String) :
    p.run (raw :: rest) = (p.take raw).bind fun next => next.run rest := by
  rw [run, List.foldlM_cons]
  simp only [bind, run]

theorem run_append (p : Progress) (a b : List String) :
    p.run (a ++ b) = (p.run a).bind fun next => next.run b :=
  List.foldlM_append

theorem run_cons_eq_ok_iff {rest : List String} :
    p.run (raw :: rest) = .ok q ↔ ∃ next, p.take raw = .ok next ∧ next.run rest = .ok q := by
  rw [run_cons]
  cases p.take raw with
  | error fault => simp [Except.bind]
  | ok next => simp [Except.bind]

theorem run_concat_eq_ok_iff {lines : List String} :
    p.run (lines ++ [raw]) = .ok q ↔ ∃ next, p.run lines = .ok next ∧ next.take raw = .ok q := by
  rw [run_append]
  cases p.run lines with
  | error fault => simp [Except.bind]
  | ok next => simp [Except.bind, run_cons_eq_ok_iff]

/-- A run that fails does so at some line, after a run of the lines before it. -/
theorem exists_of_run_eq_error {lines : List String} {session : Session} {cause : ParseError}
    (h : p.run lines = .error (session, cause)) :
    ∃ before raw after q, lines = before ++ raw :: after ∧ p.run before = .ok q ∧
      q.take raw = .error (session, cause) := by
  induction lines generalizing p with
  | nil => cases h
  | cons raw rest ih =>
    rw [run_cons] at h
    cases htake : p.take raw with
    | error fault =>
      rw [htake] at h
      cases h
      exact ⟨[], raw, rest, p, rfl, rfl, htake⟩
    | ok next =>
      rw [htake] at h
      obtain ⟨before, line, after, q, rfl, hrun, hstop⟩ := ih h
      exact ⟨raw :: before, line, after, q, rfl, run_cons_eq_ok_iff.mpr ⟨next, htake, hrun⟩, hstop⟩

theorem read_nil (p : Progress) (source : String) (n : Nat) :
    p.read source n [] = ⟨p.closed, [], none⟩ := rfl

theorem read_cons (p : Progress) (source : String) (n : Nat) (raw : String) (rest : List String) :
    p.read source n (raw :: rest) =
      match p.take raw with
      | .error (session, cause) => ⟨session, [], some (cause.locate source n)⟩
      | .ok next => (next.read source (n + 1) rest).following (p.notices source n raw) := by
  have hraw : LineShape.ofLine (Text.dropLineFeeds raw) = .ofRaw raw := rfl
  obtain ⟨session, current⟩ := p
  rw [read]
  unfold Session.readFrom take notices
  dsimp only
  rw [hraw]
  cases LineShape.ofRaw raw with
  | blank => rfl
  | continuation fields =>
    cases current with
    | none => rfl
    | some zone =>
      dsimp only
      cases Era.parse fields (Text.dropLineFeeds raw) <;> rfl
  | record fields =>
    dsimp only [closed]
    cases Record.parse fields (Text.dropLineFeeds raw) with
    | error cause => rfl
    | ok record =>
      dsimp only
      cases (session.close current).addRecord record with
      | error cause => rfl
      | ok added => cases record <;> rfl

/-- Where no line fails, all is read and the open zone is added. -/
theorem read_of_run {source : String} {n : Nat} {lines : List String} (h : p.run lines = .ok q) :
    (p.read source n lines).session = q.closed ∧ (p.read source n lines).failure = none := by
  induction lines generalizing p n with
  | nil =>
    cases h
    exact ⟨rfl, rfl⟩
  | cons raw rest ih =>
    obtain ⟨next, htake, hrun⟩ := run_cons_eq_ok_iff.mp h
    simp only [read_cons, htake, Session.Reading.session_following,
      Session.Reading.failure_following]
    exact ih hrun

/-- The first line that fails ends the reading, with its own number. -/
theorem read_of_stop {source : String} {n : Nat} {before after : List String} {session : Session}
    {cause : ParseError} (hrun : p.run before = .ok q)
    (hstop : q.take raw = .error (session, cause)) :
    (p.read source n (before ++ raw :: after)).session = session ∧
      (p.read source n (before ++ raw :: after)).failure =
        some (cause.locate source (n + before.length)) := by
  induction before generalizing p n with
  | nil =>
    cases hrun
    rw [List.nil_append, read_cons, hstop]
    exact ⟨rfl, rfl⟩
  | cons line before ih =>
    obtain ⟨next, htake, hrun⟩ := run_cons_eq_ok_iff.mp hrun
    rw [List.length_cons, Nat.add_comm before.length, ← Nat.add_assoc]
    simp only [List.cons_append, read_cons, htake, Session.Reading.session_following,
      Session.Reading.failure_following]
    exact ih hrun

/-- The session that a run comes to. -/
def ending : Except (Session × ParseError) Progress → Session
  | .ok q => q.closed
  | .error (session, _) => session

theorem session_read (p : Progress) (source : String) (n : Nat) (lines : List String) :
    (p.read source n lines).session = ending (p.run lines) := by
  cases hrun : p.run lines with
  | ok q => exact (read_of_run hrun).1
  | error fault =>
    obtain ⟨before, raw, after, q, rfl, hbefore, hstop⟩ := exists_of_run_eq_error hrun
    exact (read_of_stop hbefore hstop).1

/-- Why a run fails, if it does. -/
def cause? : Except (Session × ParseError) Progress → Option ParseError
  | .ok _ => none
  | .error (_, cause) => some cause

theorem cause_read (p : Progress) (source : String) (n : Nat) (lines : List String) :
    (p.read source n lines).failure.map (·.cause) = cause? (p.run lines) := by
  cases hrun : p.run lines with
  | ok q => rw [(read_of_run hrun).2, Option.map_none, cause?]
  | error fault =>
    obtain ⟨before, raw, after, q, rfl, hbefore, hstop⟩ := exists_of_run_eq_error hrun
    rw [(read_of_stop hbefore hstop).2, Option.map_some, SourceError.cause_locate, cause?]

theorem failure_read_eq_none_iff {source : String} {n : Nat} {lines : List String} :
    (p.read source n lines).failure = none ↔ ∃ q, p.run lines = .ok q := by
  cases hrun : p.run lines with
  | ok q => exact iff_of_true (read_of_run hrun).2 ⟨q, rfl⟩
  | error fault =>
    obtain ⟨before, raw, after, q, rfl, hbefore, hstop⟩ := exists_of_run_eq_error hrun
    refine iff_of_false ?_ nofun
    rw [(read_of_stop hbefore hstop).2]
    exact nofun

end Progress

end ZoneHistory
