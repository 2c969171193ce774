import ZoneHistory.Proofs.Output.Directory
import ZoneHistory.Proofs.Recorded

/-!
# Zone files read back

On a disk that gives back what is written, the file of each zone is written and then read as the
history that was compiled, whatever zones share a name: the timeline that is kept for writing is
that of the history that is kept for comparison. So a run that returns has nothing to note.
-/
namespace ZoneHistory

open Recorded

/-- What is read right after a write that was granted is what was written. -/
def ReadsBack (σ : Type) [Disk (StateM σ)] : Prop :=
  ∀ (disk : σ) (path : String) (bytes read : List UInt8),
    ((Disk.write path bytes : StateM σ _) disk).1.isOk = true →
      stored ((Disk.write path bytes : StateM σ _) disk).2 path = .ok read → read = bytes

theorem Faithful.readsBack {σ κ : Type} [DecidableEq κ] [Disk (StateM σ)] [Journal (StateM σ)]
    {place : String → κ} (faithful : Faithful σ place) : ReadsBack σ := by
  intro disk path bytes read hgranted hread
  obtain ⟨writes, hplan, hupdates⟩ := faithful.write path bytes disk hgranted
  obtain ⟨⟨place, content⟩, _, rfl, hwrite, hnil⟩ := List.map_eq_cons_iff.mp hplan
  obtain rfl := List.map_eq_nil_iff.mp hnil
  obtain ⟨rfl, hcontent⟩ := Prod.mk.inj hwrite
  obtain rfl : content = bytes := Option.some.inj hcontent
  obtain ⟨written, hlast, hstored⟩ := hupdates.written _ List.mem_cons_self
  rw [lastWritten_singleton, if_pos rfl] at hlast
  rw [hread] at hstored
  exact (Except.ok.inj hstored).trans (Option.some.inj hlast).symm

/-- The file of a zone was written with the history that a timeline describes, and right then read
as this history. -/
def Restored (directory : String) (log : List Access) (entry : String × Timeline) : Prop :=
  ∃ bytes, ZoneFile.encode (entry.2.toHistory entry.1) = .ok bytes ∧
    ZoneFile.decode entry.1 bytes = .ok (entry.2.toHistory entry.1) ∧
    [Access.write (Path.join directory entry.1) bytes,
      Access.read (Path.join directory entry.1) bytes] <:+: log

theorem Restored.mono {directory : String} {log other : List Access} {entry : String × Timeline}
    (h : Restored directory log entry) (hlog : log <:+: other) :
    Restored directory other entry := by
  obtain ⟨bytes, hencode, hdecode, hinfix⟩ := h
  exact ⟨bytes, hencode, hdecode, hinfix.trans hlog⟩

namespace Output

variable {σ : Type}

theorem records_onDisk {α : Type} {recorded : StateM (Recorded σ) (Except DiskError α)}
    {plain : StateM σ (Except DiskError α)} (h : Silent recorded plain) :
    Silent (onDisk recorded).run (onDisk plain).run := by
  rw [run_onDisk, run_onDisk]
  refine Silent.bind h fun answer => ?_
  cases answer <;> exact silent_pure _

theorem run_onDisk_bind_ok {α β : Type} {request : StateM σ (Except DiskError α)} {disk after : σ}
    {value : α} (h : request disk = (.ok value, after)) (next : α → ExceptT Fault (StateM σ) β) :
    (onDisk request >>= next).run disk = (next value).run after := by
  rw [ExceptT.run_bind, run_onDisk, bind_assoc, bind_apply, h]
  rfl

theorem run_onDisk_bind_error {α β : Type} {request : StateM σ (Except DiskError α)}
    {disk after : σ} {error : DiskError} (h : request disk = (.error error, after))
    (next : α → ExceptT Fault (StateM σ) β) :
    (onDisk request >>= next).run disk = (.error (.disk error), after) := by
  rw [ExceptT.run_bind, run_onDisk, bind_assoc, bind_apply, h]
  rfl

variable [Disk (StateM σ)]

/-- After a write that is granted, reading goes on with the bytes that were written. -/
theorem records_write_read (readsBack : ReadsBack σ) {α : Type} {tells : α → List Access → Prop}
    (file : String) (bytes : List UInt8) {next : List UInt8 → ExceptT Fault (StateM (Recorded σ)) α}
    {next' : List UInt8 → ExceptT Fault (StateM σ) α}
    (h : Records (Unless fun a more =>
      tells a ([Access.write file bytes, Access.read file bytes] ++ more))
      (next bytes).run (next' bytes).run) :
    Records (Unless tells)
      (onDisk (Disk.write file bytes) >>= fun _ => onDisk (Disk.read file) >>= next).run
      (onDisk (Disk.write file bytes) >>= fun _ => onDisk (Disk.read file) >>= next').run := by
  intro disk log
  rcases hwrite : (Disk.write file bytes : StateM σ _) disk with ⟨granted, written⟩
  have hrecorded : (Disk.write file bytes : StateM (Recorded σ) _) ⟨disk, log⟩ = _ :=
    ask_apply hwrite log
  cases granted with
  | error error =>
    rw [run_onDisk_bind_error hwrite, run_onDisk_bind_error hrecorded]
    exact ⟨[], rfl, trivial⟩
  | ok _ =>
    rw [run_onDisk_bind_ok hwrite, run_onDisk_bind_ok hrecorded]
    rcases hread : (Disk.read file : StateM σ _) written with ⟨answer, after⟩
    have hrecorded' : (Disk.read file : StateM (Recorded σ) _)
        ⟨written, log ++ [Access.write file bytes]⟩ = _ := ask_apply hread _
    cases answer with
    | error error =>
      rw [run_onDisk_bind_error hread]
      refine ⟨[Access.write file bytes], ?_, trivial⟩
      refine (run_onDisk_bind_error hrecorded' next).trans ?_
      simp [Except.toOption]
    | ok read =>
      have hgranted : ((Disk.write file bytes : StateM σ _) disk).1.isOk = true := by
        rw [hwrite]
        rfl
      have hstored : stored ((Disk.write file bytes : StateM σ _) disk).2 file = .ok read := by
        rw [hwrite, stored, hread]
      obtain rfl : read = bytes := readsBack disk file bytes read hgranted hstored
      obtain ⟨more, hrun, htells⟩ := h after
        (log ++ [Access.write file read] ++ [Access.read file read])
      rw [run_onDisk_bind_ok hread]
      refine ⟨[Access.write file read, Access.read file read] ++ more, ?_, ?_⟩
      · refine (run_onDisk_bind_ok hrecorded' next).trans (hrun.trans ?_)
        simp only [List.append_assoc, List.singleton_append]
      · cases hresult : ((next' read).run after).1 with
        | error fault => trivial
        | ok a =>
          rw [hresult] at htells
          exact htells

theorem silent_destinationFault? (directory : String) :
    Silent (destinationFault? directory : StateM (Recorded σ) (Option Fault))
      (destinationFault? directory) := by
  refine Silent.bind (silent_ask _) fun kind => ?_
  rcases kind with _ | _ | _ <;> exact silent_pure _

variable [Journal (StateM σ)]

/-- The answer is that the file holds the history, if this is the one that is expected. -/
theorem records_writeZoneFile (readsBack : ReadsBack σ) (directory zone : String)
    (timeline : Timeline) :
    Records (Unless fun same log => same = true ∧ Restored directory log (zone, timeline))
      (writeZoneFile directory zone timeline (some (timeline.toHistory zone)) :
        ExceptT Fault (StateM (Recorded σ)) Bool).run
      (writeZoneFile directory zone timeline (some (timeline.toHistory zone)) :
        ExceptT Fault (StateM σ) Bool).run := by
  unfold writeZoneFile
  extract_lets file parent afterParent afterParent'
  -- The rest of the block follows whether or not directories are made first.
  have hafter : ∀ u, Records (Unless fun same log =>
      same = true ∧ Restored directory log (zone, timeline))
      (afterParent u).run (afterParent' u).run := by
    intro u
    refine (silent_note _).lift.bindExcept fun _ => ?_
    refine (records_onDisk (silent_ask _)).bindExcept fun _ => ?_
    cases hencode : ZoneFile.encode (timeline.toHistory zone) with
    | error cause => exact records_pure trivial
    | ok bytes =>
      have hdecode := (timeline.decode_toHistory_iff zone bytes).mpr hencode
      rw [Except.mapError, liftExcept_ok_bind, liftExcept_ok_bind]
      refine records_write_read readsBack file bytes ?_
      rw [hdecode, Except.mapError, liftExcept_ok_bind, liftExcept_ok_bind]
      refine records_pure ⟨by simp, bytes, hencode, hdecode, ?_⟩
      exact List.infix_rfl
  split
  · exact hafter ()
  · exact (records_onDisk (silent_ask _)).bindExcept fun u => hafter u

/-- Where each history that is expected is that of its timeline, nothing is noted. -/
theorem records_writeZoneFiles (readsBack : ReadsBack σ) (directory : String)
    {expected : Keyed History} {entries : List (String × Timeline)} (comments : Comments)
    (h : ∀ entry ∈ entries, expected.find? entry.1 = some (entry.2.toHistory entry.1)) :
    Records (fun result log => result.2 = none →
        result.1 = comments ∧ ∀ entry ∈ entries, Restored directory log entry)
      (writeZoneFiles directory expected entries comments :
        StateM (Recorded σ) (Comments × Option Fault))
      (writeZoneFiles directory expected entries comments) := by
  induction entries with
  | nil => exact records_pure fun _ => ⟨rfl, List.forall_mem_nil _⟩
  | cons entry rest ih =>
    obtain ⟨zone, timeline⟩ := entry
    obtain ⟨hexpected, hrest⟩ := List.forall_mem_cons.mp h
    rw [writeZoneFiles, writeZoneFiles, hexpected]
    refine (records_writeZoneFile readsBack directory zone timeline).bind
      fun result log hresult => ?_
    cases result with
    | error fault => exact records_pure fun hnone => absurd hnone (Option.some_ne_none fault)
    | ok same =>
      obtain ⟨rfl, hrestored⟩ := hresult
      refine (ih hrest).imp fun result more hdone hnone => ?_
      obtain ⟨hcomments, hall⟩ := hdone hnone
      refine ⟨hcomments, List.forall_mem_cons.mpr ⟨?_, fun entry hentry => ?_⟩⟩
      · exact hrestored.mono (List.prefix_append _ _).isInfix
      · exact (hall entry hentry).mono (List.suffix_append _ _).isInfix

theorem records_writeAliasIndex (directory : String) (names : Keyed History) :
    Records (fun _ _ => True)
      (writeAliasIndex directory names : StateM (Recorded σ) (Option Fault))
      (writeAliasIndex directory names) := by
  unfold writeAliasIndex
  split
  next mapping notices hmapping =>
  refine (silent_noteAll notices).bind fun _ => ?_
  refine (silent_ask _).bind fun created => ?_
  cases created with
  | error error => exact records_pure trivial
  | ok _ =>
    cases AliasIndex.encode mapping with
    | error cause => exact records_pure trivial
    | ok encoded =>
      refine (silent_note _).bind fun _ => ?_
      refine Records.bind (records_ask _ _) fun written _ _ => ?_
      cases written with
      | error error => exact records_pure trivial
      | ok _ => exact (silent_note _).bind fun _ => records_pure trivial

theorem records_write (readsBack : ReadsBack σ) (directory : String) {c : Compilation}
    (h : c.Closed) :
    Records (fun result log => result.2 = none →
        result.1 = c.notableZones ∧ ∀ entry ∈ c.timelines.entries, Restored directory log entry)
      (write directory c.timelines c.zones c.names c.notableZones :
        StateM (Recorded σ) (Comments × Option Fault))
      (write directory c.timelines c.zones c.names c.notableZones) := by
  have hexpected : ∀ entry ∈ c.timelines.entries,
      c.zones.find? entry.1 = some (entry.2.toHistory entry.1) := by
    intro entry hentry
    rw [h.timelines, (c.timelines.mem_entries_iff _ _).mp hentry, Option.map_some]
  rw [write, write]
  refine (silent_destinationFault? directory).bind fun found => ?_
  cases found with
  | some fault => exact records_pure fun hnone => absurd hnone (Option.some_ne_none fault)
  | none =>
    refine (records_writeZoneFiles readsBack directory c.notableZones hexpected).bind
      fun result log hresult => ?_
    obtain ⟨comments, _ | fault⟩ := result
    · obtain ⟨hcomments, hall⟩ := hresult rfl
      refine (records_writeAliasIndex directory c.names).bind fun _ more _ => ?_
      refine records_pure fun _ => ⟨hcomments, fun entry hentry => ?_⟩
      exact (hall entry hentry).mono (List.prefix_append _ _).isInfix
    · exact records_pure fun hnone => absurd hnone (Option.some_ne_none fault)

end Output

theorem notableZones_compiled (session : Session) (lastYear : Int) :
    (session.compiled lastYear).notableZones = .none := rfl

section Run

variable {σ : Type} [Disk (StateM σ)] [Journal (StateM σ)]

theorem records_compileInto (readsBack : ReadsBack σ) (session : Session) (lastYear : Int)
    (directory : Option String) :
    Records (Unless fun c log => c = session.compiled lastYear ∧
        ∀ d ∈ directory, ∀ entry ∈ c.timelines.entries, Restored d log entry)
      (compileInto session lastYear directory : StateM (Recorded σ) (Except Fault Compilation))
      (compileInto session lastYear directory) := by
  unfold compileInto
  cases directory with
  | none =>
    refine (silent_noteAll _).bind fun _ => ?_
    exact records_pure ⟨rfl, fun d hd => absurd hd.symm (Option.some_ne_none d)⟩
  | some directory =>
    refine (Output.silent_destinationFault? directory).bind fun found => ?_
    cases found with
    | some fault => exact records_pure trivial
    | none =>
      refine (silent_noteAll _).bind fun _ => (silent_note _).bind fun _ => ?_
      have hwrite := Output.records_write readsBack directory (closed_compiled session lastYear)
      refine hwrite.bind fun result log hresult => ?_
      obtain ⟨notable, _ | fault⟩ := result
      · obtain ⟨rfl, hall⟩ := hresult rfl
        refine records_pure ⟨rfl, fun d hd => ?_⟩
        rw [List.append_nil, ← Option.some.inj hd]
        exact hall
      · exact records_pure trivial

/-- On a disk that gives back what is written, a run that returns has noted no zone. Each zone that
it returns has a timeline that describes the history that is returned. If there is a directory, the
file of the zone was written with this history, and what was then read from it is this history. The
accesses are those of the same run on the same disk, recorded. -/
theorem ReadsBack.nothing_noted (readsBack : ReadsBack σ) (session : Session) (lastYear : Int)
    (directory : Option String) (disk : σ) {c : Compilation}
    (hrun : ((compileInto session lastYear directory :
      StateM σ (Except Fault Compilation)) disk).1 = .ok c) :
    let recorded := (compileInto session lastYear directory :
      StateM (Recorded σ) (Except Fault Compilation)) ⟨disk, []⟩
    (recorded.1 = .ok c ∧ recorded.2.disk = ((compileInto session lastYear directory :
      StateM σ (Except Fault Compilation)) disk).2) ∧
    c.notableZones = .none ∧
    ∀ zone history, c.zones.find? zone = some history → ∃ timeline,
      c.timelines.find? zone = some timeline ∧ timeline.toHistory zone = history ∧
      ∀ d ∈ directory, ∃ bytes read, ZoneFile.encode (timeline.toHistory zone) = .ok bytes ∧
        [Access.write (Path.join d zone) bytes, Access.read (Path.join d zone) read] <:+:
          recorded.2.log ∧
        ZoneFile.decode zone read = .ok history := by
  intro recorded
  obtain ⟨log, hrecorded, htells⟩ :=
    records_compileInto readsBack session lastYear directory disk []
  rw [hrun] at htells hrecorded
  obtain ⟨rfl, hrestored⟩ := htells
  have hlog : recorded.2.log = log := congrArg (fun r => r.2.log) hrecorded
  refine ⟨⟨congrArg Prod.fst hrecorded, congrArg (fun r => r.2.disk) hrecorded⟩,
    notableZones_compiled session lastYear, fun zone history hzone => ?_⟩
  rw [(closed_compiled session lastYear).timelines, Option.map_eq_some_iff] at hzone
  obtain ⟨timeline, htimeline, rfl⟩ := hzone
  have hentry := (Keyed.mem_entries_iff _ _ _).mpr htimeline
  refine ⟨timeline, htimeline, rfl, fun d hd => ?_⟩
  obtain ⟨bytes, hencode, hdecode, hinfix⟩ := hrestored d hd (zone, timeline) hentry
  exact ⟨bytes, bytes, hencode, hlog ▸ hinfix, hdecode⟩

end Run

/-- A session of two zones of one name, of which the later replaces the earlier. -/
def replacedZone : Session :=
  Session.empty.after
    [.readText "<string>" "Zone Test/Zone 0 - GMT\nZone Test/Zone 1:00 - CET\n"]

/-- The zone that replaces another is written and read back, and nothing is noted. -/
theorem replacedZone_not_noted :
    replacedZone.zones.map (·.name) = ["Test/Zone", "Test/Zone"] ∧
      ∃ c, ((compileInto replacedZone 2100 (some "out") :
          StateM Workspace (Except Fault Compilation)) outputDisk).1 = .ok c ∧
        c.notableZones = .none ∧
        ∃ bytes read, [Access.write "out/Test/Zone" bytes, Access.read "out/Test/Zone" read] <:+:
            ((compileInto replacedZone 2100 (some "out") :
              StateM (Recorded Workspace) (Except Fault Compilation)) ⟨outputDisk, []⟩).2.log ∧
          ZoneFile.decode "Test/Zone" read =
            .ok ⟨"Test/Zone", ⟨0, 3600000, 3600000, "CET"⟩, #[]⟩ := by
  have hnames : (replacedZone.compiled 2100).names.entries =
      [("Test/Zone", ⟨"Test/Zone", ⟨0, 3600000, 3600000, "CET"⟩, #[]⟩)] := by decide +kernel
  have hok : ((compileInto replacedZone 2100 (some "out") :
      StateM Workspace (Except Fault Compilation)) outputDisk).1.isOk = true :=
    isOk_of_singleton hnames rfl (by decide) (by decide +kernel) (by decide +kernel)
      (by decide +kernel)
  refine ⟨by decide +kernel, ?_⟩
  cases hrun : ((compileInto replacedZone 2100 (some "out") :
      StateM Workspace (Except Fault Compilation)) outputDisk).1 with
  | error fault =>
    rw [hrun] at hok
    cases hok
  | ok c =>
    obtain ⟨-, hnone, hzones⟩ := ReadsBack.nothing_noted Workspace.faithful.readsBack replacedZone
      2100 (some "out") outputDisk hrun
    obtain ⟨notable, rfl⟩ := eq_compiled_of_compileInto hrun
    have hzone : (replacedZone.compiled 2100).zones.find? "Test/Zone" =
        some ⟨"Test/Zone", ⟨0, 3600000, 3600000, "CET"⟩, #[]⟩ := by decide +kernel
    obtain ⟨timeline, -, -, hrestored⟩ := hzones "Test/Zone" _ hzone
    obtain ⟨bytes, read, -, haccesses, hdecode⟩ := hrestored "out" rfl
    have hfile : Path.join "out" "Test/Zone" = "out/Test/Zone" := by decide
    rw [hfile] at haccesses
    exact ⟨_, rfl, hnone, bytes, read, haccesses, hdecode⟩

end ZoneHistory
