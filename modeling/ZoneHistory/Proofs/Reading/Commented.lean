import Mathlib.Data.List.TakeWhile
import ZoneHistory.Proofs.Reading.Quotations

/-!
# Comments and blank lines

A comment hides what stands behind it on its line, and a line of blanks and a comment is passed
over, wherever it stands. So lines may be commented in any way: what is collected of them and why
they fail stays the same, apart from the text of the lines.
-/
namespace ZoneHistory

theorem toList_stripComment (line : String) :
    (stripComment line).toList = line.toList.takeWhile (· ≠ '#') :=
  String.toList_ofList

theorem takeWhile_append_cons {α : Type} {p : α → Bool} {a : α} (h : p a = false)
    (front rest : List α) : (front ++ a :: rest).takeWhile p = front.takeWhile p := by
  induction front with
  | nil => simp [h]
  | cons b front ih => simp [List.takeWhile_cons, ih]

/-- A comment begins at the first mark, so another behind it changes nothing. -/
theorem stripComment_append (line text : String) :
    stripComment (line ++ "#" ++ text) = stripComment line := by
  apply String.toList_injective
  have hmark : "#".toList = ['#'] := rfl
  have hchars : (line ++ "#" ++ text).toList = line.toList ++ '#' :: text.toList := by
    simp [hmark]
  rw [toList_stripComment, toList_stripComment, hchars, takeWhile_append_cons (by decide)]

namespace Text

variable {blanks : List Char} (hblanks : ∀ c ∈ blanks, isBlank c = true)

include hblanks

theorem fieldsAfter_blanks (collected : List Char) :
    fieldsAfter collected blanks = finishField collected := by
  induction blanks generalizing collected with
  | nil => rfl
  | cons c rest ih =>
    obtain ⟨hc, hrest⟩ := List.forall_mem_cons.mp hblanks
    simp [fieldsAfter, hc, ih hrest, finishField]

theorem fieldsAfter_append_blanks (collected chars : List Char) :
    fieldsAfter collected (chars ++ blanks) = fieldsAfter collected chars := by
  fun_induction fieldsAfter collected chars with
  | case1 collected => exact fieldsAfter_blanks hblanks collected
  | case2 collected c rest hc ih => simp [fieldsAfter, hc, ih]
  | case3 collected c rest hc ih => simp [fieldsAfter, hc, ih]

end Text

namespace LineShape

theorem ofLine_congr {line other : String} (h : stripComment line = stripComment other) :
    ofLine line = ofLine other := by
  unfold ofLine
  rw [h]

theorem ofLine_of_fields_eq_nil {line : String} (h : Text.fields (stripComment line) = []) :
    ofLine line = .blank := by
  unfold ofLine
  dsimp only
  rw [h]

/-- Blanks at the end of a line do not matter: its margin is where it begins. -/
theorem ofLine_of_blanks {line other : String} {blanks : List Char}
    (hblanks : ∀ c ∈ blanks, Text.isBlank c = true)
    (h : (stripComment line).toList = (stripComment other).toList ++ blanks) :
    ofLine line = ofLine other := by
  have hfields : Text.fields (stripComment line) = Text.fields (stripComment other) := by
    unfold Text.fields
    rw [h, Text.fieldsAfter_append_blanks hblanks]
  by_cases hnil : (stripComment other).toList = []
  · have hnone : Text.fields (stripComment other) = [] := by
      unfold Text.fields
      rw [hnil]
      rfl
    rw [ofLine_of_fields_eq_nil hnone, ofLine_of_fields_eq_nil (hfields.trans hnone)]
  · have hmargin :
        Text.beginsBlank (stripComment line) = Text.beginsBlank (stripComment other) := by
      unfold Text.beginsBlank
      rw [h, List.head?_append_of_ne_nil _ hnil]
    unfold ofLine
    dsimp only
    rw [hfields, hmargin]

end LineShape

theorem Text.exists_lineFeeds (raw : String) :
    ∃ feeds, raw.toList = (dropLineFeeds raw).toList ++ feeds ∧ ∀ c ∈ feeds, c = '\n' := by
  refine ⟨(raw.toList.reverse.takeWhile (· == '\n')).reverse, ?_, fun c hc => ?_⟩
  · have hsplit := List.takeWhile_append_dropWhile (p := (· == '\n')) (l := raw.toList.reverse)
    rw [dropLineFeeds, String.toList_ofList, ← List.reverse_append, hsplit, List.reverse_reverse]
  · have hfeed := List.mem_takeWhile_imp (List.mem_reverse.mp hc)
    simpa using hfeed

/-- Line feeds are blanks, and those at the end of a line are like any blanks there. -/
theorem LineShape.ofRaw_eq_ofLine (raw : String) : ofRaw raw = ofLine raw := by
  obtain ⟨feeds, hraw, hfeeds⟩ := Text.exists_lineFeeds raw
  have hblank : ∀ c ∈ feeds, Text.isBlank c = true := by
    intro c hc
    rw [hfeeds c hc]
    decide
  have hnoMark : ∀ c ∈ feeds, decide (c ≠ '#') = true := by
    intro c hc
    rw [hfeeds c hc]
    decide
  -- A comment hides the line feeds behind it; without one they are part of the content.
  have hcontent : ∃ blanks, (∀ c ∈ blanks, Text.isBlank c = true) ∧
      (stripComment raw).toList = (stripComment (Text.dropLineFeeds raw)).toList ++ blanks := by
    rw [toList_stripComment, toList_stripComment, hraw, List.takeWhile_append]
    split
    · next hall =>
      refine ⟨feeds, hblank, ?_⟩
      have hwhole : (Text.dropLineFeeds raw).toList.takeWhile (· ≠ '#') =
          (Text.dropLineFeeds raw).toList := (List.takeWhile_prefix _).eq_of_length hall
      rw [hwhole, List.takeWhile_eq_self_iff.mpr hnoMark]
    · exact ⟨[], List.forall_mem_nil _, (List.append_nil _).symm⟩
  obtain ⟨blanks, hblanks, hstripped⟩ := hcontent
  exact (ofLine_of_blanks hblanks hstripped).symm

theorem LineShape.ofRaw_append_comment (line text : String) :
    ofRaw (line ++ "#" ++ text) = ofRaw line := by
  rw [ofRaw_eq_ofLine, ofRaw_eq_ofLine, ofLine_congr (stripComment_append line text)]

/-! ## Commented lines -/

/-- A line of blanks, or of blanks and a comment. -/
def IsRemark (line : String) : Prop :=
  ∃ blanks : String, (∀ c ∈ blanks.toList, Text.isBlank c = true) ∧
    (line = blanks ∨ ∃ text, line = blanks ++ "#" ++ text)

theorem LineShape.ofRaw_of_isRemark {line : String} (h : IsRemark line) :
    ofRaw line = .blank := by
  obtain ⟨blanks, hblanks, hline⟩ := h
  have hshape : ofRaw line = ofRaw blanks := by
    rcases hline with rfl | ⟨text, rfl⟩
    · rfl
    · exact ofRaw_append_comment blanks text
  rw [hshape, ofRaw_eq_ofLine]
  apply ofLine_of_fields_eq_nil
  have hcontent : ∀ c ∈ (stripComment blanks).toList, Text.isBlank c = true := by
    rw [toList_stripComment]
    exact fun c hc => hblanks c (List.takeWhile_subset _ hc)
  simp [Text.fields, Text.fieldsAfter_blanks hcontent, Text.finishField]

/-- Lines with remarks among them, some of which may end in a comment. -/
inductive Commented : List String → List String → Prop
  | nil : Commented [] []
  | remark {lines commented : List String} {line : String} (hline : IsRemark line)
      (h : Commented lines commented) : Commented lines (line :: commented)
  | plain {lines commented : List String} (line : String) (h : Commented lines commented) :
      Commented (line :: lines) (line :: commented)
  | comment {lines commented : List String} (line text : String) (h : Commented lines commented) :
      Commented (line :: lines) ((line ++ "#" ++ text) :: commented)

namespace Progress

variable {p q : Progress}

theorem bareOutcome_run_cons {raw other : String} {lines others : List String} (h : p.bare = q.bare)
    (hshape : LineShape.ofRaw raw = LineShape.ofRaw other)
    (hrest : ∀ p q : Progress, p.bare = q.bare →
      bareOutcome (p.run lines) = bareOutcome (q.run others)) :
    bareOutcome (p.run (raw :: lines)) = bareOutcome (q.run (other :: others)) := by
  have hstep := bareOutcome_take h hshape
  rw [run_cons, run_cons]
  cases htake : p.take raw with
  | error fault =>
    cases htake' : q.take other with
    | error fault' =>
      rw [htake, htake'] at hstep
      exact hstep
    | ok next' => simp [htake, htake', bareOutcome] at hstep
  | ok next =>
    cases htake' : q.take other with
    | error fault' => simp [htake, htake', bareOutcome] at hstep
    | ok next' =>
      rw [htake, htake'] at hstep
      exact hrest next next' (Except.ok.inj hstep)

/-- A remark leaves everything as it is, an open zone too. -/
theorem run_remark {line : String} (h : IsRemark line) (q : Progress) (lines : List String) :
    q.run (line :: lines) = q.run lines := by
  have htake : q.take line = .ok q := by
    unfold take
    rw [LineShape.ofRaw_of_isRemark h]
  rw [run_cons, htake]
  rfl

theorem bareOutcome_run {lines commented : List String} (hlines : Commented lines commented)
    (h : p.bare = q.bare) : bareOutcome (p.run lines) = bareOutcome (q.run commented) := by
  induction hlines generalizing p q with
  | nil => exact congrArg Except.ok h
  | remark hline _ ih =>
    rw [run_remark hline]
    exact ih h
  | plain line _ ih => exact bareOutcome_run_cons h rfl fun p q hpq => ih hpq
  | comment line text _ ih =>
    have hshape := LineShape.ofRaw_append_comment line text
    exact bareOutcome_run_cons h hshape.symm fun p q hpq => ih hpq

theorem bare_ending (outcome : Except (Session × ParseError) Progress) :
    (ending outcome).bare = ending (bareOutcome outcome) := by
  cases outcome with
  | ok p => exact p.bare_closed
  | error fault => rfl

theorem bare_cause? (outcome : Except (Session × ParseError) Progress) :
    (cause? outcome).map ParseError.bare = cause? (bareOutcome outcome) := by
  cases outcome <;> rfl

end Progress

@[simp] theorem SourceError.kind_cause (failure : SourceError) :
    failure.cause.kind = failure.kind := by
  cases failure <;> rfl

/-- Remarks may be put anywhere among lines, also into a zone, and any line may be ended by a
comment: the lines are taken if they were taken before, and refused for the same cause otherwise;
and they leave the same rule sets, zones and links, apart from the lines that these keep and that
the cause quotes. -/
theorem readLines_commented {lines commented : List String} (h : Commented lines commented)
    (session : Session) (source : String) :
    let before := session.readLines source lines
    let after := session.readLines source commented
    after.failure.map (·.kind) = before.failure.map (·.kind) ∧
      after.failure.map (·.cause.bare) = before.failure.map (·.cause.bare) ∧
      after.session.bare = before.session.bare := by
  intro before after
  have hrun := Progress.bareOutcome_run h (rfl : (Progress.mk session none).bare = _)
  have hcause : after.failure.map (·.cause.bare) = before.failure.map (·.cause.bare) := by
    have hread := congrArg Progress.cause? hrun
    rw [← Progress.bare_cause?, ← Progress.bare_cause?, ← Progress.cause_read _ source 1,
      ← Progress.cause_read _ source 1, Option.map_map, Option.map_map] at hread
    exact hread.symm
  refine ⟨?_, hcause, ?_⟩
  · have hkind := congrArg (Option.map ParseError.kind) hcause
    simpa [Option.map_map, Function.comp_def] using hkind
  · have hread := congrArg Progress.ending hrun
    rw [← Progress.bare_ending, ← Progress.bare_ending, ← Progress.session_read _ source 1,
      ← Progress.session_read _ source 1] at hread
    exact hread.symm

/-- A rule, a zone in two lines and a link, and the same lines with remarks and comments. -/
def plainLines : List String :=
  ["Rule R 1990 only - Jan 1 0 0 -", "Zone Test/A 1:00 R A%sT 1990", " 2:00 - BBB",
    "Link Test/A Test/B"]

def commentedLines : List String :=
  ["" ++ "#" ++ " Rules", "Rule R 1990 only - Jan 1 0 0 -", "",
    "Zone Test/A 1:00 R A%sT 1990" ++ "#" ++ " and then", "\t " ++ "#" ++ " at no margin",
    "" ++ "#" ++ " at the margin", "   ", " 2:00 - BBB" ++ "#" ++ "",
    "Link Test/A Test/B" ++ "#" ++ "# # none"]

theorem readLines_commented_zone :
    Commented plainLines commentedLines ∧
      (Session.empty.readLines "tz" plainLines).session.zones.map (·.eras.length) = [2] ∧
      (Session.empty.readLines "tz" commentedLines).failure.map (·.kind) = none ∧
      (Session.empty.readLines "tz" commentedLines).session.bare =
        (Session.empty.readLines "tz" plainLines).session.bare := by
  have hremark : ∀ blanks text : String, blanks.toList.all Text.isBlank = true →
      IsRemark (blanks ++ "#" ++ text) :=
    fun blanks text h => ⟨blanks, List.all_eq_true.mp h, Or.inr ⟨text, rfl⟩⟩
  have hcommented : Commented plainLines commentedLines := by
    have hblank : ∀ line : String, line.toList.all Text.isBlank = true → IsRemark line :=
      fun line h => ⟨line, List.all_eq_true.mp h, Or.inl rfl⟩
    apply Commented.remark (hremark "" " Rules" (by decide))
    apply Commented.plain
    apply Commented.remark (hblank "" (by decide))
    apply Commented.comment _ " and then"
    apply Commented.remark (hremark "\t " " at no margin" (by decide))
    apply Commented.remark (hremark "" " at the margin" (by decide))
    apply Commented.remark (hblank "   " (by decide))
    apply Commented.comment _ ""
    exact Commented.comment _ "# # none" Commented.nil
  obtain ⟨hkind, -, hsession⟩ := readLines_commented hcommented Session.empty "tz"
  have hplain : (Session.empty.readLines "tz" plainLines).failure.map (·.kind) = none := by
    decide +kernel
  exact ⟨hcommented, by decide +kernel, hkind.trans hplain, hsession⟩

end ZoneHistory
