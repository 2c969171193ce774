import ZoneHistory.Proofs.Reading.Lines
import ZoneHistory.Proofs.Reading.Splitting
import ZoneHistory.Proofs.Workspace

/-!
# Texts in memory and stored texts

A text in memory is cut at breaks that do not count in a file. Without these it is read as from a
file that holds it: the same is collected, and the reading fails alike. With any of them it may be
read otherwise.
-/
namespace ZoneHistory

namespace Text

/-- The lines hold what the text holds, without the breaks. -/
theorem flatten_linesAfter (isFurtherBreak : Char → Bool) (collected chars : List Char) :
    (linesAfter isFurtherBreak collected chars).flatten =
      collected.reverse ++ chars.filter fun c => !(isLineEnd c || isFurtherBreak c) := by
  fun_induction linesAfter isFurtherBreak collected chars with
  | case1 collected hempty =>
    rw [List.isEmpty_iff.mp hempty]
    rfl
  | case2 collected hnonempty => simp
  | case3 collected rest ih =>
    rw [List.flatten_cons, ih]
    rfl
  | case4 collected c rest hnext hbreak ih =>
    rw [List.flatten_cons, ih, List.filter_cons_of_neg (by rw [hbreak]; decide)]
    rfl
  | case5 collected c rest hnext hinside ih =>
    rw [ih, List.filter_cons_of_pos (by rw [Bool.eq_false_iff.mpr hinside]; rfl),
      List.reverse_cons, List.append_assoc, List.singleton_append]

theorem linesAfter_congr {isFurtherBreak other : Char → Bool} (collected chars : List Char)
    (h : ∀ c ∈ chars, isFurtherBreak c = other c) :
    linesAfter isFurtherBreak collected chars = linesAfter other collected chars := by
  fun_induction linesAfter isFurtherBreak collected chars with
  | case1 collected hempty => rw [linesAfter, if_pos hempty]
  | case2 collected hnonempty => rw [linesAfter, if_neg hnonempty]
  | case3 collected rest ih => rw [linesAfter, ih fun c hc => h c (.tail _ (.tail _ hc))]
  | case4 collected c rest hnext hbreak ih =>
    rw [h c List.mem_cons_self] at hbreak
    rw [linesAfter, if_pos hbreak, ih fun d hd => h d (.tail _ hd)]
    exact hnext
  | case5 collected c rest hnext hinside ih =>
    rw [h c List.mem_cons_self] at hinside
    rw [linesAfter, if_neg hinside, ih fun d hd => h d (.tail _ hd)]
    exact hnext

/-- A stretch without breaks is part of one line. -/
theorem linesAfter_append {isFurtherBreak : Char → Bool} {word : List Char}
    (h : ∀ c ∈ word, (isLineEnd c || isFurtherBreak c) = false) (collected rest : List Char) :
    linesAfter isFurtherBreak collected (word ++ rest) =
      linesAfter isFurtherBreak (word.reverse ++ collected) rest := by
  induction word generalizing collected with
  | nil => rfl
  | cons c word ih =>
    obtain ⟨hc, hword⟩ := List.forall_mem_cons.mp h
    rw [List.cons_append, linesAfter, if_neg (Bool.eq_false_iff.mp hc), ih hword,
      List.reverse_cons, List.append_assoc, List.singleton_append]
    rintro _ rfl
    cases hc

theorem linesAfter_of_unbroken {isFurtherBreak : Char → Bool} {word : List Char}
    (h : ∀ c ∈ word, (isLineEnd c || isFurtherBreak c) = false) (hnonempty : word ≠ []) :
    linesAfter isFurtherBreak [] word = [word] := by
  have hword := linesAfter_append h [] []
  rw [List.append_nil, List.append_nil] at hword
  rw [hword, linesAfter, if_neg (by simpa using hnonempty), List.reverse_reverse]

/-- The breaks that do not count in a file. -/
def textBreaks : List Char :=
  ['\x0b', '\x0c', '\x1c', '\x1d', '\x1e', '\u0085', '\u2028', '\u2029']

theorem mem_textBreaks {c : Char} (h : isTextBreak c = true) : c ∈ textBreaks := by
  simpa only [isTextBreak, Bool.or_eq_true, beq_iff_eq, textBreaks, List.mem_cons,
    List.not_mem_nil, or_false, or_assoc] using h

theorem isLineEnd_of_isTextBreak {c : Char} (h : isTextBreak c = true) : isLineEnd c = false := by
  have hall : (textBreaks.all fun b => !isLineEnd b) = true := by decide
  simpa using List.all_eq_true.mp hall c (mem_textBreaks h)

theorem isBlank_of_isTextBreak {c : Char} (h : isTextBreak c = true) : isBlank c = true := by
  have hall : textBreaks.all isBlank = true := by decide
  exact List.all_eq_true.mp hall c (mem_textBreaks h)

theorem isBlank_of_isBreak {c : Char} (h : (isLineEnd c || isTextBreak c) = true) :
    isBlank c = true := by
  rcases Bool.or_eq_true_iff.mp h with hend | hbreak
  · have hmem : c ∈ ['\n', '\r'] := by simpa [isLineEnd] using hend
    have hall : ['\n', '\r'].all isBlank = true := by decide
    exact List.all_eq_true.mp hall c hmem
  · exact isBlank_of_isTextBreak hbreak

/-- A text has the same lines in memory and in a file exactly if it has none of the breaks that do
not count in a file. -/
theorem textLines_eq_fileLines_iff {text : String} :
    textLines text = fileLines text ↔ ∀ c ∈ text.toList, isTextBreak c = false := by
  constructor
  · intro hlines c hc
    have hsame : linesAfter isTextBreak [] text.toList =
        linesAfter (fun _ => false) [] text.toList :=
      List.map_injective_iff.mpr (fun _ _ => String.ofList_injective) hlines
    have hchars := congrArg List.flatten hsame
    rw [flatten_linesAfter, flatten_linesAfter] at hchars
    by_contra hbreak
    rw [Bool.not_eq_false] at hbreak
    have hmem : c ∈ text.toList.filter fun c => !(isLineEnd c || false) := by
      rw [List.mem_filter, isLineEnd_of_isTextBreak hbreak]
      exact ⟨hc, rfl⟩
    rw [← List.append_right_injective _ hchars, List.mem_filter, hbreak, Bool.or_true] at hmem
    exact Bool.false_ne_true hmem.2
  · intro h
    exact congrArg (List.map String.ofList) (linesAfter_congr [] text.toList h)

/-- Fields with single blanks between them stand on one line. -/
theorem isBreak_of_mem_intercalate {texts : List String} (h : ∀ text ∈ texts, IsField text) :
    ∀ c ∈ (" ".intercalate texts).toList, (isLineEnd c || isTextBreak c) = false := by
  refine forall_mem_intercalate (by decide) fun text htext c hc => ?_
  rw [Bool.eq_false_iff]
  exact fun hbreak => Bool.false_ne_true
    (((h text htext).chars c hc).1.symm.trans (isBlank_of_isBreak hbreak))

theorem fieldsAfter_append_blank {c : Char} (h : isBlank c = true)
    (collected before after : List Char) :
    fieldsAfter collected (before ++ c :: after) =
      fieldsAfter collected before ++ fieldsAfter [] after := by
  fun_induction fieldsAfter collected before with
  | case1 collected => rw [List.nil_append, fieldsAfter, if_pos h]
  | case2 collected d rest hblank ih =>
    rw [List.cons_append, fieldsAfter, if_pos hblank, ih, List.append_assoc]
  | case3 collected d rest hblank ih =>
    rw [List.cons_append, fieldsAfter, if_neg hblank, ih]

/-- Two texts with a character between them. -/
def around (c : Char) (before after : String) : String := before ++ String.singleton c ++ after

theorem toList_around (c : Char) (before after : String) :
    (around c before after).toList = before.toList ++ c :: after.toList := by
  rw [around, String.toList_append, String.toList_append, String.toList_singleton,
    List.append_assoc, List.singleton_append]

theorem fields_around {c : Char} (h : isBlank c = true) (before after : String) :
    fields (around c before after) = fields before ++ fields after := by
  rw [fields, toList_around, fieldsAfter_append_blank h, List.map_append]
  rfl

theorem beginsBlank_around {before : String} (h : before.toList ≠ []) (c : Char) (after : String) :
    beginsBlank (around c before after) = beginsBlank before := by
  rw [beginsBlank, toList_around, List.head?_append_of_ne_nil _ h, beginsBlank]

section Around

variable {c : Char} {before after : String}
  (hbefore : ∀ d ∈ before.toList, (isLineEnd d || isTextBreak d) = false)
  (hafter : ∀ d ∈ after.toList, (isLineEnd d || isTextBreak d) = false)
  (hbreak : isTextBreak c = true)

include hbefore hafter hbreak

/-- In memory there are two lines around a break. -/
theorem textLines_around (hnonempty : after.toList ≠ []) :
    textLines (around c before after) = [before, after] := by
  have hinside : isLineEnd c = false := isLineEnd_of_isTextBreak hbreak
  have hlines : linesAfter isTextBreak [] (around c before after).toList =
      [before.toList, after.toList] := by
    rw [toList_around, linesAfter_append hbefore, linesAfter, if_pos (by rw [hbreak, Bool.or_true]),
      linesAfter_of_unbroken hafter hnonempty, List.append_nil, List.reverse_reverse]
    rintro _ rfl
    cases hinside
  rw [textLines, hlines, List.map_cons, List.map_singleton, String.ofList_toList,
    String.ofList_toList]

/-- In a file there is one line around it. -/
theorem fileLines_around : fileLines (around c before after) = [around c before after] := by
  have hunbroken : ∀ d ∈ (around c before after).toList, (isLineEnd d || false) = false := by
    intro d hd
    rw [Bool.or_false]
    rw [toList_around, List.mem_append, List.mem_cons] at hd
    rcases hd with hd | rfl | hd
    · exact (Bool.or_eq_false_iff.mp (hbefore d hd)).1
    · exact isLineEnd_of_isTextBreak hbreak
    · exact (Bool.or_eq_false_iff.mp (hafter d hd)).1
  have hnonempty : (around c before after).toList ≠ [] := by
    rw [toList_around]
    exact List.append_ne_nil_of_right_ne_nil _ (List.cons_ne_nil _ _)
  rw [fileLines, linesAfter_of_unbroken hunbroken hnonempty, List.map_singleton,
    String.ofList_toList]

end Around

end Text

/-- A blank between two rows of fields makes a row of all of them. -/
theorem LineShape.ofRaw_around {first : String} {rest others : List String} {c : Char}
    (h : ∀ text ∈ first :: rest, Text.IsField text) (hothers : ∀ text ∈ others, Text.IsField text)
    (hblank : Text.isBlank c = true) (hfeed : c ≠ '\n') :
    LineShape.ofRaw (Text.around c (" ".intercalate (first :: rest)) (" ".intercalate others)) =
      .record (first :: rest ++ others) := by
  have hchars : ∀ d ∈ (Text.around c (" ".intercalate (first :: rest))
      (" ".intercalate others)).toList, d ≠ '\n' ∧ d ≠ '#' := by
    have hrow : ∀ texts : List String, (∀ text ∈ texts, Text.IsField text) →
        ∀ d ∈ (" ".intercalate texts).toList, d ≠ '\n' ∧ d ≠ '#' := by
      intro texts htexts
      refine Text.forall_mem_intercalate (by decide) fun text htext d hd => ?_
      refine ⟨?_, ((htexts text htext).chars d hd).2⟩
      rintro rfl
      exact absurd ((htexts text htext).chars _ hd).1 (by decide)
    intro d hd
    rw [Text.toList_around, List.mem_append, List.mem_cons] at hd
    rcases hd with hd | rfl | hd
    · exact hrow _ h d hd
    · refine ⟨hfeed, ?_⟩
      rintro rfl
      exact absurd hblank (by decide)
    · exact hrow _ hothers d hd
  have hnonempty : (" ".intercalate (first :: rest)).toList ≠ [] := by
    intro hempty
    have hfields := Text.fields_intercalate h
    rw [Text.fields, hempty] at hfields
    cases hfields
  rw [ofRaw, Text.dropLineFeeds_eq fun d hd => (hchars d hd).1, ofLine,
    stripComment_eq fun d hd => (hchars d hd).2, Text.fields_around hblank,
    Text.fields_intercalate h, Text.fields_intercalate hothers, Text.beginsBlank_around hnonempty,
    Text.beginsBlank_intercalate (List.forall_mem_cons.mp h).1]
  rfl

namespace Link

/-- The target and the name of a link can each be a field of a line. -/
structure IsPlain (link : Link) : Prop where
  target : Text.IsField link.target
  name : Text.IsField link.alias

def row (link : Link) : List String := ["Link", link.target, link.alias]

/-- The line that makes a link. -/
def line (link : Link) : String := " ".intercalate link.row

theorem IsPlain.forall_mem_row {link : Link} (h : link.IsPlain) :
    ∀ text ∈ link.row, Text.IsField text := by
  rw [row, List.forall_mem_cons, List.forall_mem_cons, List.forall_mem_singleton]
  exact ⟨by decide, h.target, h.name⟩

theorem IsPlain.isBreak_of_mem_line {link : Link} (h : link.IsPlain) :
    ∀ c ∈ link.line.toList, (Text.isLineEnd c || Text.isTextBreak c) = false :=
  Text.isBreak_of_mem_intercalate h.forall_mem_row

theorem toList_line_ne_nil (link : Link) : link.line.toList ≠ [] := by
  rw [line, row, String.toList_intercalate, List.map_cons, List.map_cons,
    List.intercalate_cons_cons, List.append_assoc]
  exact List.append_ne_nil_of_left_ne_nil (by decide) _

end Link

theorem Progress.take_link {p : Progress} {raw first target name : String} {rest : List String}
    (hshape : LineShape.ofRaw raw = .record (first :: target :: name :: rest))
    (hkeyword : Text.lowercase first = "link") :
    p.take raw =
      .ok ⟨{ p.closed with links := p.closed.links ++ [⟨target, name⟩] }, none⟩ := by
  have hparse : Record.parse (first :: target :: name :: rest) (Text.dropLineFeeds raw) =
      .ok (.link ⟨target, name⟩) := by
    simp only [Record.parse, hkeyword]
    rfl
  unfold take
  simp only [hshape, hparse]
  rfl

namespace Session

/-- What reading a file comes to with the reading of its lines. -/
def Reading.ofFile (file : String) (reading : Reading) : Session × Option Fault :=
  match reading.failure with
  | some cause => (reading.session, some (.source cause))
  | none => ({ reading.session with files := reading.session.files ++ [file] }, none)

/-- Two ways of reading a source collect the same rule sets, zones and links, and fail alike. -/
structure Reading.AgreesWith (reading : Reading) (result : Session × Option Fault) : Prop where
  ruleSets : result.1.ruleSets = reading.session.ruleSets
  zones : result.1.zones = reading.session.zones
  links : result.1.links = reading.session.links
  fault : result.2 = reading.failure.map .source

theorem Reading.agreesWith_ofFile (reading : Reading) (file : String) :
    reading.AgreesWith (reading.ofFile file) := by
  obtain ⟨session, notices, failure⟩ := reading
  cases failure <;> exact ⟨rfl, rfl, rfl, rfl⟩

section Stored

variable {σ κ : Type} [DecidableEq κ] [Disk (StateM σ)] [Journal (StateM σ)] {place : String → κ}

/-- To read a file of text is to read its lines, whatever is noted by the way. -/
theorem readSource_eq (faithful : Faithful σ place) (session : Session) {disk : σ} {file : String}
    {content : String} (hstored : stored disk file = .ok (Wire.utf8 content)) :
    ((session.readSource file : StateM σ _) disk).1 =
      (session.readLines file (Text.fileLines content)).ofFile file := by
  have hread : ((Disk.read file : StateM σ _)
      ((Journal.note (.reading file) : StateM σ Unit) disk).2).1 = .ok (Wire.utf8 content) := by
    obtain ⟨writes, hplan, hupdates⟩ := faithful.note (.reading file) disk trivial
    obtain rfl := List.map_eq_nil_iff.mp hplan
    exact hupdates.kept file _ hstored
  rw [readSource, bind_apply, bind_apply, hread]
  dsimp only
  rw [Wire.text?_eq_some_iff.mpr rfl]
  dsimp only
  rw [bind_apply, Reading.ofFile]
  cases (session.readLines file (Text.fileLines content)).failure <;> rfl

theorem readLines_eq (session : Session) (source : String) (lines : List String) :
    session.readLines source lines = Progress.read ⟨session, none⟩ source 1 lines := rfl

section Links

variable {first second : Link} (hfirst : first.IsPlain) (hsecond : second.IsPlain)

include hfirst hsecond

theorem links_readLines_two (session : Session) (source : String) :
    (session.readLines source [first.line, second.line]).session.links =
      session.links ++ [first, second] := by
  have htake : ∀ (p : Progress) {link : Link}, link.IsPlain → p.take link.line =
      .ok ⟨{ p.closed with links := p.closed.links ++ [link] }, none⟩ := fun p link hlink =>
    Progress.take_link (LineShape.ofRaw_intercalate hlink.forall_mem_row) (by decide)
  have hrun := Progress.run_cons_eq_ok_iff.mpr ⟨_, htake ⟨session, none⟩ hfirst,
    Progress.run_cons_eq_ok_iff.mpr ⟨_, htake _ hsecond, Progress.run_nil _⟩⟩
  rw [readLines_eq, (Progress.read_of_run hrun).1]
  exact List.append_assoc session.links [first] [second]

/-- The fields of the second record are too many for the first. -/
theorem links_readLines_around {c : Char} (hbreak : Text.isTextBreak c = true) (session : Session)
    (source : String) :
    (session.readLines source [Text.around c first.line second.line]).session.links =
      session.links ++ [first] := by
  have hblank : Text.isBlank c = true := Text.isBlank_of_isTextBreak hbreak
  have hfeed : c ≠ '\n' := by
    rintro rfl
    cases hbreak
  have hshape : LineShape.ofRaw (Text.around c first.line second.line) =
      .record ("Link" :: first.target :: first.alias :: second.row) :=
    LineShape.ofRaw_around hfirst.forall_mem_row hsecond.forall_mem_row hblank hfeed
  have htake : Progress.take ⟨session, none⟩ (Text.around c first.line second.line) =
      .ok ⟨{ session with links := session.links ++ [first] }, none⟩ :=
    Progress.take_link hshape (by decide)
  have hrun := Progress.run_cons_eq_ok_iff.mpr ⟨_, htake, Progress.run_nil _⟩
  rw [readLines_eq, (Progress.read_of_run hrun).1]
  rfl

end Links

/-- A text has the same lines in memory and in a file exactly if it has none of the breaks that do
not count in a file; and then it is read alike. Around any of these breaks, two links are read in
memory and one in a file. -/
theorem readSource_agrees_iff_unbroken (faithful : Faithful σ place) (disk : σ)
    (file content : String) (hstored : stored disk file = .ok (Wire.utf8 content)) :
    (Text.textLines content = Text.fileLines content ↔
        ∀ c ∈ content.toList, Text.isTextBreak c = false) ∧
      ((∀ c ∈ content.toList, Text.isTextBreak c = false) → ∀ session : Session,
        (session.readText file content).AgreesWith
          ((session.readSource file : StateM σ _) disk).1) ∧
      ∀ (c : Char) (first second : Link), Text.isTextBreak c = true → first.IsPlain →
        second.IsPlain → content = Text.around c first.line second.line → ∀ session : Session,
          (session.readText file content).session.links = session.links ++ [first, second] ∧
            ((session.readSource file : StateM σ _) disk).1.1.links = session.links ++ [first] := by
  refine ⟨Text.textLines_eq_fileLines_iff, fun hunbroken session => ?_, ?_⟩
  · rw [readSource_eq faithful session hstored, readText,
      Text.textLines_eq_fileLines_iff.mpr hunbroken]
    exact Reading.agreesWith_ofFile _ file
  · rintro c first second hbreak hfirst hsecond rfl session
    have hbefore := hfirst.isBreak_of_mem_line
    have hafter := hsecond.isBreak_of_mem_line
    have hnonempty : second.line.toList ≠ [] := Link.toList_line_ne_nil second
    constructor
    · rw [readText, Text.textLines_around hbefore hafter hbreak hnonempty]
      exact links_readLines_two hfirst hsecond session file
    · rw [readSource_eq faithful session hstored, (Reading.agreesWith_ofFile _ file).links,
        Text.fileLines_around hbefore hafter hbreak]
      exact links_readLines_around hfirst hsecond hbreak session file

end Stored

/-- A workspace that holds one source. -/
def holding (content : String) : Workspace := ⟨[(["tz"], .file (Wire.utf8 content))], []⟩

/-- A carriage return is a break in memory and in a file, alone and before a line feed. -/
theorem readSource_agrees_returns :
    (empty.readText "tz" "Link Test/A Test/B\rLink Test/C Test/D\r\n").AgreesWith
      ((empty.readSource "tz" : StateM Workspace _)
        (holding "Link Test/A Test/B\rLink Test/C Test/D\r\n")).1 :=
  (readSource_agrees_iff_unbroken Workspace.faithful
    (holding "Link Test/A Test/B\rLink Test/C Test/D\r\n") "tz"
    "Link Test/A Test/B\rLink Test/C Test/D\r\n" rfl).2.1
    (Text.textLines_eq_fileLines_iff.mp (by decide +kernel)) empty

/-- In memory a page break ends a record; in a file it stands between two fields of one. -/
theorem pageBreak_readOtherwise :
    let content := "Link A B\x0cLink C D"
    stored (holding content) "tz" = .ok (Wire.utf8 content) ∧
      (empty.readText "tz" content).session.links = [⟨"A", "B"⟩, ⟨"C", "D"⟩] ∧
      ((empty.readSource "tz" : StateM Workspace _) (holding content)).1.1.links = [⟨"A", "B"⟩] := by
  intro content
  have hstored : stored (holding content) "tz" = .ok (Wire.utf8 content) := rfl
  rw [readSource_eq Workspace.faithful empty hstored]
  refine ⟨rfl, ?_, ?_⟩ <;> decide +kernel

end Session

end ZoneHistory
