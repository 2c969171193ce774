import Mathlib.Data.List.Forall2
import Mathlib.Data.List.Infix
import Mathlib.Data.List.Induction
import ZoneHistory.Proofs.Reading

/-!
# Zones and the lines that continue them

A zone is written as a record and the lines behind it that begin with a blank, up to the next
record; lines without fields count for nothing. What is read from a source are these zones, in their
order.
-/
namespace ZoneHistory

def LineShape.isRecord : LineShape → Bool
  | .record _ => true
  | _ => false

theorem isRecord_of_recordFields? {keyword raw : String} {rest : List String}
    (h : recordFields? keyword raw = some rest) : (LineShape.ofRaw raw).isRecord = true := by
  obtain ⟨first, hshape, -⟩ := recordFields?_eq_some_iff.mp h
  rw [hshape]
  rfl

/-- An era as it is written: its fields and the line in which they stand. -/
structure EraText where
  fields : List String
  line : String
  deriving DecidableEq

/-- A zone as it is written. -/
structure ZoneText where
  name : String
  eras : List EraText
  deriving DecidableEq

/-- The era of a line that begins with a blank. -/
def continuation? (raw : String) : Option EraText :=
  match LineShape.ofRaw raw with
  | .continuation fields => some ⟨fields, Text.dropLineFeeds raw⟩
  | _ => none

/-- The eras of the lines that are not blank, up to the next record. -/
def continuations (lines : List String) : List EraText :=
  ((lines.filter fun raw => LineShape.ofRaw raw ≠ .blank).takeWhile fun raw =>
    (continuation? raw).isSome).filterMap continuation?

/-- The zone that the first of the lines opens, if it is the record of a zone. -/
def openedZone? : List String → Option ZoneText
  | [] => none
  | raw :: rest =>
    match recordFields? "zone" raw with
    | some (name :: fields) => some ⟨name, ⟨fields, Text.dropLineFeeds raw⟩ :: continuations rest⟩
    | _ => none

/-- The zones that are written in the lines. -/
def zoneTexts (lines : List String) : List ZoneText :=
  lines.tails.filterMap openedZone?

def EraText.Means (text : EraText) (era : Era) : Prop :=
  Era.parse text.fields text.line = .ok era

def ZoneText.Means (text : ZoneText) (zone : Zone) : Prop :=
  zone.name = text.name ∧ List.Forall₂ EraText.Means text.eras zone.eras

section Texts

variable {raw : String} {fields rest : List String} (lines : List String)

theorem continuation?_eq_some_iff {text : EraText} :
    continuation? raw = some text ↔
      LineShape.ofRaw raw = .continuation text.fields ∧ text.line = Text.dropLineFeeds raw := by
  unfold continuation?
  cases LineShape.ofRaw raw with
  | blank => simp
  | record fields => simp
  | continuation fields =>
    obtain ⟨others, line⟩ := text
    simp [eq_comm]

theorem continuations_of_blank (h : LineShape.ofRaw raw = .blank) :
    continuations (raw :: lines) = continuations lines := by
  rw [continuations, List.filter_cons_of_neg (by simpa using h), ← continuations]

theorem continuations_of_record (h : (LineShape.ofRaw raw).isRecord = true) :
    continuations (raw :: lines) = [] := by
  cases hshape : LineShape.ofRaw raw with
  | blank => cases hshape ▸ h
  | continuation fields => cases hshape ▸ h
  | record fields =>
    have hnone : continuation? raw = none := by
      unfold continuation?
      rw [hshape]
    rw [continuations, List.filter_cons_of_pos (by simp [hshape]),
      List.takeWhile_cons_of_neg (by simp [hnone]), List.filterMap_nil]

theorem continuations_of_continuation (h : LineShape.ofRaw raw = .continuation fields) :
    continuations (raw :: lines) = ⟨fields, Text.dropLineFeeds raw⟩ :: continuations lines := by
  have hsome : continuation? raw = some ⟨fields, Text.dropLineFeeds raw⟩ :=
    continuation?_eq_some_iff.mpr ⟨h, rfl⟩
  rw [continuations, List.filter_cons_of_pos (by simp [h]),
    List.takeWhile_cons_of_pos (by simp [hsome]), List.filterMap_cons_some hsome, ← continuations]

theorem zoneTexts_cons (raw : String) :
    zoneTexts (raw :: lines) = (openedZone? (raw :: lines)).toList ++ zoneTexts lines := by
  rw [zoneTexts, List.tails_cons, List.filterMap_cons, ← zoneTexts]
  cases openedZone? (raw :: lines) <;> rfl

theorem zoneTexts_of_zone {name : String} (h : recordFields? "zone" raw = some (name :: fields)) :
    zoneTexts (raw :: lines) =
      ⟨name, ⟨fields, Text.dropLineFeeds raw⟩ :: continuations lines⟩ :: zoneTexts lines := by
  rw [zoneTexts_cons]
  unfold openedZone?
  dsimp only
  rw [h]
  rfl

theorem zoneTexts_of_none (h : recordFields? "zone" raw = none) :
    zoneTexts (raw :: lines) = zoneTexts lines := by
  rw [zoneTexts_cons]
  unfold openedZone?
  dsimp only
  rw [h]
  rfl

theorem zoneTexts_of_not_record (h : ∀ fields, LineShape.ofRaw raw ≠ .record fields) :
    zoneTexts (raw :: lines) = zoneTexts lines :=
  zoneTexts_of_none lines (recordFields?_of_not_record h)

end Texts

/-- The last record of the lines, if there is one, is that of a zone. -/
def InZone (lines : List String) : Prop :=
  ∃ raw, (lines.filter fun raw => (LineShape.ofRaw raw).isRecord).getLast? = some raw ∧
    (recordFields? "zone" raw).isSome = true

instance (lines : List String) : Decidable (InZone lines) :=
  decidable_of_iff
    (((lines.filter fun raw => (LineShape.ofRaw raw).isRecord).getLast?.any fun raw =>
      (recordFields? "zone" raw).isSome) = true)
    (Option.any_eq_true _ _)

theorem inZone_concat_of_not_record {lines : List String} {raw : String}
    (h : (LineShape.ofRaw raw).isRecord = false) :
    InZone (lines ++ [raw]) ↔ InZone lines := by
  unfold InZone
  rw [List.filter_append, List.filter_cons_of_neg (by simp [h]), List.filter_nil, List.append_nil]

theorem inZone_concat_of_record {lines : List String} {raw : String}
    (h : (LineShape.ofRaw raw).isRecord = true) :
    InZone (lines ++ [raw]) ↔ (recordFields? "zone" raw).isSome = true := by
  unfold InZone
  rw [List.filter_append, List.filter_cons_of_pos (by simp [h]), List.filter_nil,
    List.getLast?_concat]
  simp

theorem Session.zones_of_addRule {session next : Session} {rule : Rule}
    (h : session.addRule rule = .ok next) : next.zones = session.zones := by
  unfold addRule at h
  split at h
  · cases h
    rfl
  · next set _ =>
    cases hadd : set.add rule with
    | error cause =>
      rw [hadd] at h
      cases h
    | ok joined =>
      rw [hadd] at h
      cases h
      rfl

namespace Progress

variable {p q : Progress} {lines : List String}

/-- The zones that a run adds when it ends. An open zone goes on with the lines in front that
continue it; these are skipped where no zone is open. -/
def Adds (p q : Progress) (lines : List String) (zones : List Zone) : Prop :=
  match p.current with
  | none => q.closed.zones = p.session.zones ++ zones
  | some zone => ∃ eras, List.Forall₂ EraText.Means (continuations lines) eras ∧
      q.closed.zones = p.session.zones ++ { zone with eras := zone.eras ++ eras } :: zones

/-- A record ends the open zone as it is. -/
theorem adds_of_record {rest : List String} {raw : String} {zones : List Zone}
    (hrecord : (LineShape.ofRaw raw).isRecord = true)
    (h : q.closed.zones = p.closed.zones ++ zones) : Adds p q (raw :: rest) zones := by
  obtain ⟨session, current⟩ := p
  cases current with
  | none => exact h
  | some zone =>
    refine ⟨[], ?_, ?_⟩
    · rw [continuations_of_record rest hrecord]
      exact .nil
    · rw [h, closed, Session.close, List.append_nil, List.append_assoc]
      rfl

/-- What a run of lines adds are the zones that are written in them. -/
theorem exists_zones_of_run (h : p.run lines = .ok q) :
    ∃ zones, List.Forall₂ ZoneText.Means (zoneTexts lines) zones ∧ Adds p q lines zones := by
  -- From the front: what an open zone still gets is written in the lines that are left.
  induction lines generalizing p with
  | nil =>
    cases h
    refine ⟨[], .nil, ?_⟩
    obtain ⟨session, current⟩ := q
    cases current with
    | none => exact (List.append_nil _).symm
    | some zone => exact ⟨[], .nil, by simp [closed, Session.close]⟩
  | cons raw rest ih =>
    obtain ⟨next, htake, hrun⟩ := run_cons_eq_ok_iff.mp h
    obtain ⟨zones, hzones, hadds⟩ := ih hrun
    cases step_of_take htake with
    | blank hshape =>
      refine ⟨zones, ?_, ?_⟩
      · rwa [zoneTexts_of_not_record rest (by simp [hshape])]
      · unfold Adds at hadds ⊢
        rwa [continuations_of_blank rest hshape]
    | stray hshape hcurrent =>
      refine ⟨zones, ?_, ?_⟩
      · rwa [zoneTexts_of_not_record rest (by simp [hshape])]
      · unfold Adds at hadds ⊢
        rw [hcurrent] at hadds ⊢
        exact hadds
    | era hshape hcurrent hera =>
      refine ⟨zones, ?_, ?_⟩
      · rwa [zoneTexts_of_not_record rest (by simp [hshape])]
      · obtain ⟨eras, heras, hclosed⟩ := hadds
        unfold Adds
        rw [hcurrent, continuations_of_continuation rest hshape]
        refine ⟨_ :: eras, .cons hera heras, ?_⟩
        simpa [Zone.chain] using hclosed
    | rule hfields hrule hadd =>
      refine ⟨zones, ?_, adds_of_record (isRecord_of_recordFields? hfields) ?_⟩
      · rwa [zoneTexts_of_none rest (recordFields?_of_ne hfields (by decide))]
      · rw [← Session.zones_of_addRule hadd]
        exact hadds
    | @zone name fields era hfields hera =>
      obtain ⟨eras, heras, hclosed⟩ := hadds
      have hall : List.Forall₂ EraText.Means
          (⟨fields, Text.dropLineFeeds raw⟩ :: continuations rest) (era :: eras) :=
        .cons hera heras
      rw [zoneTexts_of_zone rest hfields]
      exact ⟨⟨name, era :: eras⟩ :: zones, .cons ⟨rfl, hall⟩ hzones,
        adds_of_record (isRecord_of_recordFields? hfields) hclosed⟩
    | link hfields =>
      refine ⟨zones, ?_, adds_of_record (isRecord_of_recordFields? hfields) hadds⟩
      rwa [zoneTexts_of_none rest (recordFields?_of_ne hfields (by decide))]
    | unknown hshape hkeyword =>
      refine ⟨zones, ?_, adds_of_record (by simp [hshape, LineShape.isRecord]) hadds⟩
      rwa [zoneTexts_of_none rest (hkeyword "zone" (by decide))]

theorem zoneFields_of_step {raw : String} {next : Progress} (h : Step raw p next) :
    recordFields? "zone" raw = none ∨
      ∃ name fields, recordFields? "zone" raw = some (name :: fields) := by
  cases h with
  | blank hshape => exact Or.inl (recordFields?_of_not_record (by simp [hshape]))
  | stray hshape => exact Or.inl (recordFields?_of_not_record (by simp [hshape]))
  | era hshape => exact Or.inl (recordFields?_of_not_record (by simp [hshape]))
  | rule hfields => exact Or.inl (recordFields?_of_ne hfields (by decide))
  | zone hfields => exact Or.inr ⟨_, _, hfields⟩
  | link hfields => exact Or.inl (recordFields?_of_ne hfields (by decide))
  | unknown hshape hkeyword => exact Or.inl (hkeyword "zone" (by decide))

theorem length_zoneTexts_of_run (h : p.run lines = .ok q) :
    (zoneTexts lines).length = lines.countP fun raw => (recordFields? "zone" raw).isSome := by
  induction lines generalizing p with
  | nil => rfl
  | cons raw rest ih =>
    obtain ⟨next, htake, hrun⟩ := run_cons_eq_ok_iff.mp h
    rcases zoneFields_of_step (step_of_take htake) with hnone | ⟨name, fields, hfields⟩
    · rw [zoneTexts_of_none rest hnone, List.countP_cons_of_neg (by simp [hnone])]
      exact ih hrun
    · rw [zoneTexts_of_zone rest hfields, List.countP_cons_of_pos (by simp [hfields]),
        List.length_cons, ih hrun]

/-! ## Lines that continue nothing -/

/-- A zone stays open exactly where the last record stays that of a zone. -/
theorem current_of_step {raw : String} {before : List String}
    (h : p.current.isSome = true ↔ InZone before) (hstep : Step raw p q) :
    q.current.isSome = true ↔ InZone (before ++ [raw]) := by
  cases hstep with
  | blank hshape =>
    rwa [inZone_concat_of_not_record (by simp [hshape, LineShape.isRecord])]
  | stray hshape hcurrent =>
    rwa [inZone_concat_of_not_record (by simp [hshape, LineShape.isRecord])]
  | era hshape hcurrent hera =>
    rw [inZone_concat_of_not_record (by simp [hshape, LineShape.isRecord]), ← h, hcurrent]
    rfl
  | rule hfields hrule hadd =>
    rw [inZone_concat_of_record (isRecord_of_recordFields? hfields),
      recordFields?_of_ne hfields (by decide)]
    exact iff_of_false nofun nofun
  | zone hfields hera =>
    rw [inZone_concat_of_record (isRecord_of_recordFields? hfields), hfields]
    exact iff_of_true rfl rfl
  | link hfields =>
    rw [inZone_concat_of_record (isRecord_of_recordFields? hfields),
      recordFields?_of_ne hfields (by decide)]
    exact iff_of_false nofun nofun
  | unknown hshape hkeyword =>
    rw [inZone_concat_of_record (by simp [hshape, LineShape.isRecord]),
      hkeyword "zone" (by decide)]
    exact iff_of_false nofun nofun

theorem current_iff_inZone_nil (session : Session) :
    (Progress.mk session none).current.isSome = true ↔ InZone [] :=
  iff_of_false nofun nofun

/-- A zone is open exactly where the last record is that of a zone. -/
theorem current_of_run {session : Session} (h : Progress.run ⟨session, none⟩ lines = .ok q) :
    q.current.isSome = true ↔ InZone lines := by
  -- From the end, where the last record stands that decides.
  induction lines using List.reverseRecOn generalizing q with
  | nil =>
    cases h
    exact current_iff_inZone_nil session
  | append_singleton lines raw ih =>
    obtain ⟨before, hrun, htake⟩ := run_concat_eq_ok_iff.mp h
    exact current_of_step (ih hrun) (step_of_take htake)

/-- Where no zone is open, a line that would continue one might as well be left out. -/
theorem ending_run_of_stray {session : Session} {before after : List String} {raw : String}
    (hraw : (continuation? raw).isSome = true) (hbefore : ¬ InZone before) :
    ending (Progress.run ⟨session, none⟩ (before ++ raw :: after)) =
      ending (Progress.run ⟨session, none⟩ (before ++ after)) := by
  obtain ⟨text, htext⟩ := Option.isSome_iff_exists.mp hraw
  obtain ⟨hshape, -⟩ := continuation?_eq_some_iff.mp htext
  rw [run_append, run_append]
  cases hrun : Progress.run ⟨session, none⟩ before with
  | error fault => simp only [Except.bind]
  | ok q =>
    have hcurrent : q.current = none := by
      rw [← current_of_run hrun] at hbefore
      simpa using hbefore
    have htake : q.take raw = .ok q := by
      unfold take
      rw [hshape, hcurrent]
    simp only [Except.bind, run_cons, htake]

end Progress

/-- Of lines that are read without a failure, the zones that are written in them are added in their
order, one for each record of a zone, and each has the eras of its record and of the lines that
continue it. A line that would continue a zone and stands in none might as well be left out. -/
theorem zones_readLines {session : Session} {source : String} {lines : List String}
    (h : (session.readLines source lines).failure = none) :
    (∃ zones, List.Forall₂ ZoneText.Means (zoneTexts lines) zones ∧
      (session.readLines source lines).session.zones = session.zones ++ zones) ∧
    (zoneTexts lines).length = (lines.countP fun raw => (recordFields? "zone" raw).isSome) ∧
    ∀ before raw after, lines = before ++ raw :: after → (continuation? raw).isSome = true →
      ¬ InZone before → (session.readLines source (before ++ after)).session =
        (session.readLines source lines).session := by
  obtain ⟨q, hrun⟩ := (Progress.failure_read_eq_none_iff (p := ⟨session, none⟩)).mp h
  refine ⟨?_, Progress.length_zoneTexts_of_run hrun, ?_⟩
  · obtain ⟨zones, hmeans, hadds⟩ := Progress.exists_zones_of_run hrun
    refine ⟨zones, hmeans, ?_⟩
    rw [← hadds]
    exact congrArg Session.zones (Progress.read_of_run hrun).1
  · rintro before raw after rfl hraw hbefore
    have hread := Progress.session_read ⟨session, none⟩ source 1
    exact (hread _).trans ((Progress.ending_run_of_stray hraw hbefore).symm.trans (hread _).symm)

/-- Two zones among lines that continue nothing: one in front and one behind an unknown record. -/
def interleaved : List String :=
  [" 9:00 - YYY", "Zone Test/A 1:00 - AAA 1990", "", "  # no fields", " 2:00 - BBB", "Zones",
    " 3:00 - CCC", "ZONE Test/B 0 - GMT"]

theorem zones_readLines_interleaved :
    (Session.empty.readLines "tz" interleaved).failure = none ∧
      ((Session.empty.readLines "tz" interleaved).session.zones.map fun zone =>
        (zone.name, zone.eras.length)) = [("Test/A", 2), ("Test/B", 1)] ∧
      (Session.empty.readLines "tz" (interleaved.eraseIdx 6)).session =
        (Session.empty.readLines "tz" interleaved).session := by
  have hread : (Session.empty.readLines "tz" interleaved).failure = none := by decide +kernel
  have htexts : zoneTexts interleaved =
      [⟨"Test/A", [⟨["1:00", "-", "AAA", "1990"], "Zone Test/A 1:00 - AAA 1990"⟩,
          ⟨["2:00", "-", "BBB"], " 2:00 - BBB"⟩]⟩,
        ⟨"Test/B", [⟨["0", "-", "GMT"], "ZONE Test/B 0 - GMT"⟩]⟩] := by decide +kernel
  obtain ⟨⟨zones, hmeans, hzones⟩, -, hstray⟩ := zones_readLines hread
  refine ⟨hread, ?_, ?_⟩
  · rw [htexts] at hmeans
    rw [hzones]
    cases hmeans with
    | cons ha hrest =>
      cases hrest with
      | cons hb hnil =>
        cases hnil
        simp [Session.empty, ha.1, hb.1, ← ha.2.length_eq, ← hb.2.length_eq]
  · have hbefore : ¬ InZone (interleaved.take 6) := by
      rintro ⟨raw, hlast, hzone⟩
      have hunknown : ((interleaved.take 6).filter fun raw =>
          (LineShape.ofRaw raw).isRecord).getLast? = some "Zones" := by decide +kernel
      rw [hunknown] at hlast
      cases hlast
      revert hzone
      decide +kernel
    exact hstray (interleaved.take 6) " 3:00 - CCC" (interleaved.drop 7) rfl (by decide +kernel)
      hbefore

end ZoneHistory
