import ZoneHistory.Proofs.Reading

/-!
# Sources in several parts

A source may be cut in front of a record: the record would close the zone that is open, as the end
of the first part does. So the parts, read one after the other, leave the session that the whole
leaves, and fail where it fails; only the numbers of the lines begin again.
-/
namespace ZoneHistory

/-- The notice as it is given so many lines later in a source of the given name. -/
def Notice.moved (source : String) (lines : Nat) : Notice → Notice
  | .strayContinuation _ n line => .strayContinuation source (n + lines) line
  | notice => notice

namespace SourceError

/-- The failure as it is reported so many lines later in a source of the given name. -/
def moved (source : String) (lines : Nat) : SourceError → SourceError
  | located _ n cause => located source (n + lines) cause
  | numeralTooLong => numeralTooLong

theorem cause_moved (failure : SourceError) (source : String) (lines : Nat) :
    (failure.moved source lines).cause = failure.cause := by
  cases failure <;> rfl

theorem moved_locate (cause : ParseError) (source other : String) (n lines : Nat) :
    (cause.locate source n).moved other lines = cause.locate other (n + lines) := by
  cases cause <;> rfl

end SourceError

namespace Session

/-- What reading gives so many lines later in a source of the given name. -/
def Reading.moved (source : String) (lines : Nat) (reading : Reading) : Reading where
  session := reading.session
  notices := reading.notices.map (·.moved source lines)
  failure := reading.failure.map (·.moved source lines)

/-- Go on with the session that was read, unless the reading has failed. -/
def Reading.andThen (reading : Reading) (next : Session → Reading) : Reading :=
  match reading.failure with
  | some _ => reading
  | none => (next reading.session).following reading.notices

theorem Reading.following_andThen (notices : List Notice) (reading : Reading)
    (next : Session → Reading) :
    (reading.following notices).andThen next = (reading.andThen next).following notices := by
  unfold andThen
  rw [failure_following]
  cases reading.failure with
  | some failure => rfl
  | none => simp only [following, List.append_assoc]

/-- Read sources one after the other, up to the first failure. -/
def readInTurn (session : Session) : List (String × List String) → Session × Option SourceError
  | [] => (session, none)
  | (source, lines) :: rest =>
    let reading := session.readLines source lines
    match reading.failure with
    | some failure => (reading.session, some failure)
    | none => reading.session.readInTurn rest

end Session

/-- The first of the lines that is not blank, if there is one, does not continue a zone. -/
def OpensWithRecord (lines : List String) : Prop :=
  ∀ fields, (lines.map LineShape.ofRaw).find? (· ≠ .blank) ≠ some (.continuation fields)

theorem OpensWithRecord.append {a b : List String} (ha : OpensWithRecord a)
    (hb : OpensWithRecord b) : OpensWithRecord (a ++ b) := by
  intro fields hfind
  rw [List.map_append, List.find?_append, Option.or_eq_some_iff] at hfind
  rcases hfind with hfind | ⟨-, hfind⟩
  · exact ha fields hfind
  · exact hb fields hfind

theorem opensWithRecord_flatMap {parts : List (String × List String)}
    (h : ∀ part ∈ parts, OpensWithRecord part.2) : OpensWithRecord (parts.flatMap (·.2)) := by
  induction parts with
  | nil => exact nofun
  | cons part rest ih =>
    rw [List.flatMap_cons]
    exact (h part List.mem_cons_self).append (ih fun other hother => h other (.tail _ hother))

namespace Progress

theorem notices_moved (p : Progress) (source other : String) (n lines : Nat) (raw : String) :
    (p.notices source n raw).map (·.moved other lines) = p.notices other (n + lines) raw := by
  unfold notices
  split
  · rfl
  · split <;> rfl
  · split <;> rfl

/-- The place where lines stand only shows in what is said of them. -/
theorem read_moved (p : Progress) (source other : String) (n lines : Nat) (texts : List String) :
    (p.read source n texts).moved other lines = p.read other (n + lines) texts := by
  induction texts generalizing p n with
  | nil => rfl
  | cons raw rest ih =>
    rw [read_cons, read_cons]
    cases p.take raw with
    | error fault =>
      simp only [Session.Reading.moved, List.map_nil, Option.map_some, SourceError.moved_locate]
    | ok next =>
      have hrest := ih next (n + 1)
      rw [Nat.add_right_comm] at hrest
      dsimp only
      rw [← hrest]
      simp only [Session.Reading.moved, Session.Reading.following, List.map_append, notices_moved]

/-- A record ends the open zone, as the end of a source does. -/
theorem read_closed {lines : List String} (h : OpensWithRecord lines) (p : Progress)
    (source : String) (n : Nat) :
    p.read source n lines = Progress.read ⟨p.closed, none⟩ source n lines := by
  induction lines generalizing n with
  | nil => rfl
  | cons raw rest ih =>
    rw [read_cons, read_cons]
    cases hshape : LineShape.ofRaw raw with
    | blank =>
      have hrest : OpensWithRecord rest := by
        intro fields hfind
        refine h fields ?_
        rw [List.map_cons, hshape, List.find?_cons_of_neg (by decide)]
        exact hfind
      unfold take notices
      simp only [hshape]
      rw [ih hrest]
    | continuation fields =>
      refine absurd ?_ (h fields)
      rw [List.map_cons, hshape, List.find?_cons_of_pos (by simp)]
    | record fields =>
      have hclosed : closed ⟨p.closed, none⟩ = p.closed := rfl
      unfold take notices
      simp only [hshape, hclosed]

theorem read_append {b : List String} (h : OpensWithRecord b) (p : Progress) (source : String)
    (n : Nat) (a : List String) :
    p.read source n (a ++ b) = (p.read source n a).andThen fun session =>
      Progress.read ⟨session, none⟩ source (n + a.length) b := by
  induction a generalizing p n with
  | nil =>
    -- The open zone is added at the end of the first part, and by the first record of the second.
    rw [List.nil_append, read_closed h, read_nil]
    rfl
  | cons raw rest ih =>
    rw [List.cons_append, read_cons, read_cons]
    cases p.take raw with
    | error fault => rfl
    | ok next =>
      dsimp only
      rw [ih next, List.length_cons, Nat.add_comm rest.length, ← Nat.add_assoc]
      exact (Session.Reading.following_andThen _ _ _).symm

end Progress

namespace Session

theorem readLines_append {b : List String} (h : OpensWithRecord b) (session : Session)
    (source : String) (a : List String) :
    session.readLines source (a ++ b) = (session.readLines source a).andThen fun read =>
      (read.readLines source b).moved source a.length := by
  have happend := Progress.read_append h ⟨session, none⟩ source 1 a
  simp only [← Progress.read_moved _ source source 1 a.length] at happend
  exact happend

theorem readLines_elsewhere (session : Session) (source other : String) (lines : List String) :
    session.readLines other lines = (session.readLines source lines).moved other 0 :=
  (Progress.read_moved ⟨session, none⟩ source other 1 0 lines).symm

/-- What is left by reading in turn is that of one reading, and so is the cause of a failure. -/
def Agrees (result : Session × Option SourceError) (reading : Reading) : Prop :=
  result.1 = reading.session ∧ result.2.map (·.cause) = reading.failure.map (·.cause)

theorem agrees_readInTurn_cons {source : String} {rest : List (String × List String)}
    (hopens : OpensWithRecord (rest.flatMap (·.2)))
    (hrest : ∀ session : Session,
      Agrees (session.readInTurn rest) (session.readLines source (rest.flatMap (·.2))))
    (session : Session) (part : String × List String) :
    Agrees (session.readInTurn (part :: rest))
      (session.readLines source ((part :: rest).flatMap (·.2))) := by
  obtain ⟨other, lines⟩ := part
  rw [List.flatMap_cons, readLines_append hopens, readInTurn, readLines_elsewhere session source]
  cases hfailure : (session.readLines source lines).failure with
  | some failure =>
    simp only [Agrees, Reading.moved, Reading.andThen, hfailure, Option.map_some,
      SourceError.cause_moved, and_self]
  | none =>
    obtain ⟨hsession, hcause⟩ := hrest (session.readLines source lines).session
    simp only [Agrees, Reading.moved, Reading.andThen, Reading.following, hfailure,
      Option.map_none, Option.map_map, Function.comp_def, SourceError.cause_moved]
    exact ⟨hsession, hcause⟩

theorem agrees_readInTurn {source : String} {rest : List (String × List String)}
    (h : ∀ part ∈ rest, OpensWithRecord part.2) (session : Session) :
    Agrees (session.readInTurn rest) (session.readLines source (rest.flatMap (·.2))) := by
  induction rest generalizing session with
  | nil => exact ⟨rfl, rfl⟩
  | cons part rest ih =>
    have hrest : ∀ other ∈ rest, OpensWithRecord other.2 :=
      fun other hother => h other (.tail _ hother)
    exact agrees_readInTurn_cons (opensWithRecord_flatMap hrest) (ih hrest) session part

/-- Lines may be read in two parts where the second does not begin by continuing a zone: a failure
of the first part is that of the whole, and else the second part goes on where the first one ended,
with the numbers of its lines counted on. So a source may be cut into any number of sources at
records, and read in turn they leave the same session and fail for the same cause. -/
theorem readLines_split (session : Session) (source : String) :
    (∀ a b, OpensWithRecord b →
      session.readLines source (a ++ b) = (session.readLines source a).andThen fun read =>
        (read.readLines source b).moved source a.length) ∧
    ∀ first rest, (∀ part ∈ rest, OpensWithRecord part.2) →
      let whole := session.readLines source ((first :: rest).flatMap (·.2))
      let parts := session.readInTurn (first :: rest)
      parts.1 = whole.session ∧ parts.2.map (·.cause) = whole.failure.map (·.cause) := by
  refine ⟨fun a b h => readLines_append h session source a, fun first rest h => ?_⟩
  exact agrees_readInTurn_cons (opensWithRecord_flatMap h) (agrees_readInTurn h) session first

/-- The second part fails in its second line, which is the fourth of the whole. -/
theorem readLines_split_failing :
    OpensWithRecord ["# Links", "Link Test/A"] ∧
      (empty.readLines "tz"
          (["Zone Test/A 1:00 - AAA 1990", " 2:00 - BBB"] ++ ["# Links", "Link Test/A"])).failure =
        some (.located "tz" 4 (.missingLinkField "Link Test/A")) := by
  have hopens : OpensWithRecord ["# Links", "Link Test/A"] := by
    intro fields hfind
    have hrecord : (["# Links", "Link Test/A"].map LineShape.ofRaw).find? (· ≠ .blank) =
        some (.record ["Link", "Test/A"]) := by decide +kernel
    rw [hrecord] at hfind
    cases hfind
  refine ⟨hopens, ?_⟩
  rw [(readLines_split empty "tz").1 _ _ hopens]
  decide +kernel

end Session

end ZoneHistory
