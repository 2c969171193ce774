import ZoneHistory.Proofs.Reading.Lines
import ZoneHistory.Proofs.Reading.Numerals
import ZoneHistory.Proofs.Reading.Sessions

/-!
# The line that ends a reading

A source is read up to its first line that is refused, and what stands behind this line does not
matter. The failure tells the source, the number of the line and what is wrong with it, unless it is
a numeral that is too long.
-/
namespace ZoneHistory

/-- What makes up the line has a numeral that is too long, and is in order up to there. -/
def OverlongLine (raw : String) : Prop :=
  (∃ fields, LineShape.ofRaw raw = .continuation fields ∧ Era.Overlong fields) ∨
  (∃ fields, recordFields? "rule" raw = some fields ∧ Rule.Overlong fields) ∨
  ∃ name fields, recordFields? "zone" raw = some (name :: fields) ∧ Era.Overlong fields

theorem overlongLine_iff_of_continuation {raw : String} {fields : List String}
    (h : LineShape.ofRaw raw = .continuation fields) :
    OverlongLine raw ↔ Era.Overlong fields := by
  have hnone : ∀ keyword, recordFields? keyword raw = none :=
    fun keyword => recordFields?_of_not_record (by simp [h])
  simp [OverlongLine, h, hnone]

theorem overlongLine_iff_of_fields {raw keyword : String} {fields : List String}
    (h : recordFields? keyword raw = some fields) :
    OverlongLine raw ↔
      keyword = "rule" ∧ Rule.Overlong fields ∨
      keyword = "zone" ∧ ∃ name rest, fields = name :: rest ∧ Era.Overlong rest := by
  have hrecord : ∀ others, LineShape.ofRaw raw ≠ .continuation others := by
    intro others hshape
    rw [recordFields?_of_not_record (by simp [hshape])] at h
    cases h
  have hother : ∀ other rest, recordFields? other raw = some rest ↔
      keyword = other ∧ fields = rest := by
    intro other rest
    by_cases hkeyword : keyword = other
    · subst hkeyword
      simp [h]
    · simp [recordFields?_of_ne h (Ne.symm hkeyword), hkeyword]
  simp [OverlongLine, hrecord, hother, and_assoc]

/-- No rule puts a set under another name, or takes it from there. -/
theorem Session.misnamed_of_addRule {session next : Session} {rule : Rule}
    (h : session.addRule rule = .ok next) (name : String) :
    next.Misnamed name ↔ session.Misnamed name := by
  rcases session.addRule_cases rule with ⟨-, set, hrefused⟩ | ⟨hnamed, set, hset, hadded⟩
  · rw [hrefused] at h
    cases h
  · rw [hadded] at h
    cases h
    by_cases hname : name = rule.name
    · subst hname
      refine iff_of_false ?_ hnamed
      rintro ⟨other, hother, hne⟩
      rw [Keyed.find?_put, if_pos rfl] at hother
      cases hother
      exact hne hset
    · simp only [Misnamed, Keyed.find?_put, if_neg hname]

namespace Progress

variable {p q next : Progress} {raw : String} {session : Session} {cause : ParseError}

/-- A line is refused for a numeral that is too long exactly if it has one before anything else that
is wrong. -/
theorem cause_eq_numeralTooLong_iff (h : Stop raw p session cause) :
    cause = .numeralTooLong ↔ OverlongLine raw := by
  cases h with
  | era hshape hcurrent hera =>
    rw [overlongLine_iff_of_continuation hshape, ← Era.parse_eq_numeralTooLong_iff, hera,
      Except.error.injEq]
  | rule hfields hrule =>
    rw [overlongLine_iff_of_fields hfields, ← Rule.parse_eq_numeralTooLong_iff, hrule]
    simp
  | @mismatch rest rule _ hfields hrule hadd =>
    rw [overlongLine_iff_of_fields hfields, ← Rule.parse_eq_numeralTooLong_iff, hrule]
    rcases p.closed.addRule_cases rule with ⟨-, set, hrefused⟩ | ⟨-, set, -, hadded⟩
    · rw [hrefused] at hadd
      cases hadd
      simp
    · rw [hadded] at hadd
      cases hadd
  | zoneName hfields => simp [overlongLine_iff_of_fields hfields]
  | zone hfields hera =>
    have hiff := Era.parse_eq_numeralTooLong_iff.symm.trans (iff_of_eq (congrArg (· = _) hera))
    rw [overlongLine_iff_of_fields hfields]
    simpa using hiff.symm
  | link hfields hshort => simp [overlongLine_iff_of_fields hfields]

theorem misnamed_of_step (h : Step raw p next) (name : String) :
    next.closed.Misnamed name ↔ p.closed.Misnamed name := by
  have hsets : ∀ {a b : Session}, a.ruleSets = b.ruleSets →
      (a.Misnamed name ↔ b.Misnamed name) := by
    intro a b hsame
    rw [Session.Misnamed, Session.Misnamed, hsame]
  cases h with
  | blank => rfl
  | stray => rfl
  | era hshape hcurrent hera => exact hsets (by rw [closed, closed, hcurrent]; rfl)
  | rule hfields hrule hadd => exact Session.misnamed_of_addRule hadd name
  | zone => exact hsets rfl
  | link => exact hsets rfl
  | unknown => exact hsets rfl

theorem misnamed_of_run {lines : List String} (h : p.run lines = .ok q) (name : String) :
    q.closed.Misnamed name ↔ p.closed.Misnamed name := by
  induction lines generalizing p with
  | nil =>
    cases h
    rfl
  | cons raw rest ih =>
    obtain ⟨next, htake, hrun⟩ := run_cons_eq_ok_iff.mp h
    rw [ih hrun, misnamed_of_step (step_of_take htake)]

/-- What stands behind the line that fails is not read. -/
theorem read_of_stop_eq {source : String} {n : Nat} {before : List String}
    (hrun : p.run before = .ok q) (hstop : q.take raw = .error (session, cause))
    (after other : List String) :
    p.read source n (before ++ raw :: after) = p.read source n (before ++ raw :: other) := by
  induction before generalizing p n with
  | nil =>
    cases hrun
    simp only [List.nil_append, read_cons, hstop]
  | cons first rest ih =>
    obtain ⟨next, htake, hrest⟩ := run_cons_eq_ok_iff.mp hrun
    simp only [List.cons_append, read_cons, htake]
    rw [ih hrest]

end Progress

/-! ## Places and texts of failures -/

theorem ParseError.message?_eq_none_iff {cause : ParseError} :
    cause.message? = none ↔ cause = .numeralTooLong := by
  cases cause <;> simp [message?]

namespace SourceError

variable {source : String} {n : Nat} {cause : ParseError}

theorem kind_locate : (cause.locate source n).kind = cause.kind := by
  cases cause <;> rfl

theorem message?_locate :
    (cause.locate source n).message? = cause.message?.map fun text => s!"{source}:{n}: {text}" := by
  cases cause <;> rfl

end SourceError

theorem ParseError.kind_eq_numeral_iff {cause : ParseError} :
    cause.kind = .numeral ↔ cause = .numeralTooLong := by
  cases cause <;> simp [kind]

namespace Session

/-- A reading into the session does not fail at the line if it has read these before. -/
def Accepts (session : Session) (before : List String) (raw : String) : Prop :=
  isRead before raw = true ∧ ∀ rule ∈ ruleLine? raw, ¬ session.Misnamed rule.name

def AcceptsAll (session : Session) (lines : List String) : Prop :=
  ∀ before raw after, lines = before ++ raw :: after → session.Accepts before raw

variable {session : Session} {before lines : List String} {q : Progress}

theorem isOk_take_of_run (h : Progress.run ⟨session, none⟩ before = .ok q) (raw : String) :
    (q.take raw).isOk = true ↔ session.Accepts before raw := by
  rw [Progress.isOk_take_iff (Progress.current_of_run h), Accepts]
  simp only [Progress.misnamed_of_run h]
  rfl

theorem acceptsAll_of_run (h : Progress.run ⟨session, none⟩ lines = .ok q) :
    session.AcceptsAll lines := by
  rintro before raw after rfl
  rw [Progress.run_append] at h
  cases hbefore : Progress.run ⟨session, none⟩ before with
  | error fault =>
    rw [hbefore] at h
    cases h
  | ok p =>
    rw [hbefore] at h
    obtain ⟨next, htake, -⟩ := Progress.run_cons_eq_ok_iff.mp h
    rw [← isOk_take_of_run hbefore, htake]
    rfl

/-- A reading goes through if every line is accepted behind the lines before it. Otherwise it ends
at the first line that is not, and neither what it leaves nor its failure depends on what stands
behind this line. The failure gives the source and the number of the line in front of its text,
unless the line has a numeral that is too long before anything else that is wrong: then there is
no text. -/
theorem readLines_first_refused (session : Session) (source : String) (lines : List String) :
    session.AcceptsAll lines ∧ (session.readLines source lines).failure = none ∨
    ∃ before raw after failure, lines = before ++ raw :: after ∧
      session.AcceptsAll before ∧ ¬ session.Accepts before raw ∧
      (∀ other, session.readLines source (before ++ raw :: other) =
        session.readLines source lines) ∧
      (session.readLines source lines).failure = some failure ∧
      (failure.kind = .numeral ↔ OverlongLine raw) ∧
      ((∃ text : String,
          failure.message? = some s!"{source}:{before.length + 1}: {text}") ↔
        ¬ OverlongLine raw) := by
  have hread : ∀ lines, session.readLines source lines =
      Progress.read ⟨session, none⟩ source 1 lines := fun _ => rfl
  cases hrun : Progress.run ⟨session, none⟩ lines with
  | ok q => exact Or.inl ⟨acceptsAll_of_run hrun, (Progress.read_of_run hrun).2⟩
  | error fault =>
    obtain ⟨left, cause⟩ := fault
    obtain ⟨before, raw, after, q, rfl, hbefore, hstop⟩ := Progress.exists_of_run_eq_error hrun
    have hoverlong := Progress.cause_eq_numeralTooLong_iff (Progress.stop_of_take hstop)
    refine Or.inr ⟨before, raw, after, cause.locate source (1 + before.length), rfl,
      acceptsAll_of_run hbefore, ?_, ?_, ?_, ?_, ?_⟩
    · rw [← isOk_take_of_run hbefore, hstop]
      exact nofun
    · intro other
      rw [hread, hread, Progress.read_of_stop_eq hbefore hstop]
    · rw [hread, (Progress.read_of_stop hbefore hstop).2]
    · rw [SourceError.kind_locate, ParseError.kind_eq_numeral_iff, hoverlong]
    · rw [SourceError.message?_locate, ← hoverlong, ← ParseError.message?_eq_none_iff,
        Nat.add_comm]
      cases cause.message? with
      | none => simp
      | some text => exact iff_of_true ⟨text, rfl⟩ nofun

end Session

/-! ## An offset that is too long -/

theorem Text.spanDigits_ones (n : Nat) :
    spanDigits (List.replicate n '1') = (List.replicate n 1, []) := by
  have hdigit : digit? '1' = some 1 := by decide
  induction n with
  | zero => rfl
  | succ n ih => simp only [List.replicate_succ, spanDigits, hdigit, ih]

/-- A zone whose offset is a numeral of so many ones. -/
def onesZone (n : Nat) : String :=
  " ".intercalate ["Zone", "Test/Zone", String.ofList (List.replicate n '1'), "-", "GMT"]

theorem overlong_ones {n : Nat} (h : Text.maxDigits < n) :
    TimeOfDay.Overlong (String.ofList (List.replicate n '1')) := by
  obtain ⟨k, rfl⟩ : ∃ k, n = k + 1 := Nat.exists_eq_add_one.mpr (Nat.zero_lt_of_lt h)
  have hunsigned : TimeOfDay.unsigned (String.ofList (List.replicate (k + 1) '1')) =
      List.replicate (k + 1) '1' := by
    simp only [TimeOfDay.unsigned, String.toList_ofList, List.replicate_succ]
    rfl
  refine ⟨⟨List.replicate (k + 1) 1, [], [], []⟩, ?_, Nat.zero_le _, Nat.zero_le _, ?_⟩
  · rw [hunsigned, TimeOfDay.groups?, Text.spanDigits_ones]
    rfl
  · rwa [List.length_replicate]

theorem ofRaw_onesZone {n : Nat} (h : n ≠ 0) : LineShape.ofRaw (onesZone n) =
    .record ["Zone", "Test/Zone", String.ofList (List.replicate n '1'), "-", "GMT"] := by
  have hones : Text.IsField (String.ofList (List.replicate n '1')) := by
    constructor
    · rw [String.toList_ofList]
      simpa using h
    · rw [String.toList_ofList]
      intro c hc
      rw [List.eq_of_mem_replicate hc]
      decide
  refine LineShape.ofRaw_intercalate ?_
  simp only [List.forall_mem_cons]
  exact ⟨by decide, by decide, hones, by decide, by decide, List.forall_mem_nil _⟩

theorem Progress.take_onesZone {n : Nat} (h : Text.maxDigits < n) (p : Progress) :
    p.take (onesZone n) = .error (p.closed, .numeralTooLong) := by
  have hera : Era.parse [String.ofList (List.replicate n '1'), "-", "GMT"]
      (Text.dropLineFeeds (onesZone n)) = .error .numeralTooLong :=
    Era.parse_eq_numeralTooLong_iff.mpr (Or.inl (overlong_ones h))
  have hkeyword : Text.lowercase "Zone" = "zone" := by decide
  unfold take
  rw [ofRaw_onesZone (Nat.ne_zero_of_lt h)]
  dsimp only
  rw [Record.parse]
  simp only [hkeyword, if_neg (by decide : ¬ "zone" = "rule"), if_true, hera]
  rfl

/-- With one digit too many there is neither a place nor a text. -/
theorem readLines_onesZone :
    ∃ failure, (Session.empty.readLines "tz" [onesZone 4301]).failure = some failure ∧
      failure.kind = .numeral ∧ failure.message? = none := by
  have hstop := Progress.take_onesZone (by decide : Text.maxDigits < 4301) ⟨.empty, none⟩
  exact ⟨.numeralTooLong, (Progress.read_of_stop (Progress.run_nil _) hstop).2, rfl, rfl⟩

end ZoneHistory
