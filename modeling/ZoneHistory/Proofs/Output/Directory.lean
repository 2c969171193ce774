import ZoneHistory.Proofs.AliasIndex
import ZoneHistory.Proofs.Workspace
import ZoneHistory.Proofs.ZoneFile.Canonical

/-!
# What stands in the output directory

A run that succeeds leaves its plan on a faithful disk. Then the index is there and is read back. The
file of a zone is there too, and holds its history exactly if nothing was written over it: the index
is not in its place, and no zone behind it has a file there.
-/
namespace ZoneHistory

open Watched (planOf)

namespace Output

variable {σ κ : Type} [DecidableEq κ] [Disk (StateM σ)] {place : String → κ}

theorem leaves_onDisk {α : Type} {plan : Watched.Plan} {request : StateM σ (Except DiskError α)}
    (h : Leaves place (·.isOk = true) request plan) :
    Leaves place (·.isOk = true) (onDisk request).run plan := by
  rw [run_onDisk, ← List.append_nil plan]
  refine h.bind (fun result _ => leaves_pure _) fun result hfailed => yields_pure ?_
  cases result with
  | ok value => exact absurd rfl hfailed
  | error error => exact Bool.false_ne_true

theorem leaves_liftExcept {α : Type} (value : Except Fault α) :
    Leaves place (·.isOk = true)
      (writeZoneFile.liftExcept value : ExceptT Fault (StateM σ) α).run [] :=
  leaves_pure _

variable [Journal (StateM σ)] (faithful : Faithful σ place)
include faithful

theorem leaves_writeZoneFile (directory zone : String) (timeline : Timeline)
    (expected : Option History) :
    Leaves place (·.isOk = true)
      (writeZoneFile directory zone timeline expected : ExceptT Fault (StateM σ) Bool).run
      [zoneWrite directory (zone, timeline)] := by
  unfold writeZoneFile
  extract_lets file parent afterParent
  -- The rest of the block follows whether or not directories are made first.
  have hafter : ∀ u, Leaves place (·.isOk = true) (afterParent u).run
      [zoneWrite directory (zone, timeline)] := by
    intro u
    suffices h : Leaves place (·.isOk = true) (afterParent u).run
        ([] ++ ([(file, some [])] ++ [zoneWrite directory (zone, timeline)])) from h.overwrite
    refine (faithful.note _).lift.bindExcept fun _ => ?_
    refine (leaves_onDisk (faithful.create file)).bindExcept fun _ => ?_
    rw [zoneWrite]
    cases ZoneFile.encode (timeline.toHistory zone) with
    | error cause => exact fun _ hdone => absurd hdone Bool.false_ne_true
    | ok bytes =>
      rw [Except.mapError, liftExcept_ok_bind]
      change Leaves place _ _ ([(file, some bytes)] ++ ([] ++ ([] ++ [])))
      refine (leaves_onDisk (faithful.write file bytes)).bindExcept fun _ => ?_
      refine (leaves_onDisk (faithful.read file).of_always).bindExcept fun stored => ?_
      exact (leaves_liftExcept _).bindExcept fun _ => leaves_pure _
  split
  · exact hafter ()
  · exact (leaves_onDisk (faithful.makeDirectories parent)).bindExcept fun u => hafter u

theorem leaves_writeZoneFiles (directory : String) (expected : Keyed History)
    (entries : List (String × Timeline)) (comments : Comments) :
    Leaves place (·.2 = none)
      (writeZoneFiles directory expected entries comments : StateM σ (Comments × Option Fault))
      (entries.map (zoneWrite directory)) := by
  induction entries generalizing comments with
  | nil => exact leaves_pure _
  | cons entry rest ih =>
    obtain ⟨zone, timeline⟩ := entry
    rw [writeZoneFiles, List.map_cons, ← List.singleton_append]
    refine (leaves_writeZoneFile faithful directory zone timeline _).bind (fun result hok => ?_)
      fun result hfailed => ?_
    · rcases result with fault | _ | _
      · cases hok
      · exact (faithful.note _).andThen fun _ => ih _
      · exact ih comments
    · cases result with
      | error fault => exact yields_pure (Option.some_ne_none _)
      | ok same => exact absurd rfl hfailed

theorem leaves_writeAliasIndex (directory : String) (names : Keyed History) :
    Leaves place (· = none) (writeAliasIndex directory names : StateM σ (Option Fault))
      [indexWrite directory (AliasIndex.distinctIgnoringCase (names.mapValues (·.zone))).1] := by
  unfold writeAliasIndex
  split
  next mapping notices hmapping =>
  rw [hmapping]
  refine (faithful.noteAll notices).andThen fun _ => ?_
  suffices h : Leaves place (· = none) _ ([(Path.join directory aliasIndexFile, some [])] ++
    [indexWrite directory mapping]) from h.overwrite
  refine (faithful.create _).bind (fun result hok => ?_) fun result hfailed => ?_
  · cases result with
    | error error => cases hok
    | ok _ =>
      rw [indexWrite]
      cases AliasIndex.encode mapping with
      | error cause => exact fun _ hdone => absurd hdone (Option.some_ne_none _)
      | ok encoded =>
        refine (faithful.note encoded.notice).andThen fun _ => ?_
        change Leaves place _ _ ([(_, some encoded.bytes)] ++ [])
        refine (faithful.write _ encoded.bytes).bind (fun result hok => ?_)
          fun result hfailed => ?_
        · cases result with
          | error error => cases hok
          | ok _ => exact (faithful.note _).andThen fun _ => leaves_pure _
        · cases result with
          | error error => exact yields_pure (Option.some_ne_none _)
          | ok _ => exact absurd rfl hfailed
  · cases result with
    | error error => exact yields_pure (Option.some_ne_none _)
    | ok _ => exact absurd rfl hfailed

theorem leaves_destinationFault? (directory : String) :
    Leaves place (· = none) (destinationFault? directory : StateM σ (Option Fault)) [] := by
  refine (faithful.kind? directory).andThen fun kind => ?_
  rcases kind with _ | _ | _ <;> exact leaves_pure _

theorem leaves_write (directory : String) (c : Compilation) :
    Leaves place (·.2 = none)
      (write directory c.timelines c.zones c.names c.notableZones :
        StateM σ (Comments × Option Fault))
      (plan directory c) := by
  rw [write]
  refine (leaves_destinationFault? faithful directory).bind (fun result hok => ?_)
    fun result hfailed => ?_
  · subst hok
    refine (leaves_writeZoneFiles faithful directory c.zones c.timelines.entries
      c.notableZones).bind (fun result hok => ?_) fun result hfailed => ?_
    · obtain ⟨comments, fault⟩ := result
      subst hok
      rw [← List.append_nil [indexWrite directory c.index]]
      exact (leaves_writeAliasIndex faithful directory c.names).bind
        (fun fault _ => leaves_pure _) fun fault hfailed => yields_pure hfailed
    · obtain ⟨comments, _ | fault⟩ := result
      · exact absurd rfl hfailed
      · exact yields_pure (Option.some_ne_none _)
  · cases result with
    | none => exact absurd rfl hfailed
    | some fault => exact yields_pure (Option.some_ne_none _)

end Output

section Run

variable {σ : Type} [Disk (StateM σ)] [Journal (StateM σ)]

/-- A run into a directory that succeeds leaves its plan. -/
theorem leaves_compileInto {κ : Type} [DecidableEq κ] {place : String → κ}
    (faithful : Faithful σ place) (session : Session) (lastYear : Int) (directory : String) :
    Leaves place (·.isOk = true)
      (compileInto session lastYear (some directory) : StateM σ (Except Fault Compilation))
      (Output.plan directory (session.compiled lastYear)) := by
  rw [compileInto, ← List.append_nil (Output.plan directory (session.compiled lastYear))]
  refine (Output.leaves_destinationFault? faithful directory).bind (fun result hok => ?_)
    fun result hfailed => ?_
  · subst hok
    refine (faithful.noteAll _).andThen fun _ => (faithful.note _).andThen fun _ => ?_
    refine (Output.leaves_write faithful directory (session.compiled lastYear)).bind
      (fun result hok => ?_) fun result hfailed => ?_
    · obtain ⟨notable, fault⟩ := result
      subst hok
      exact leaves_pure _
    · obtain ⟨notable, _ | fault⟩ := result
      · exact absurd rfl hfailed
      · exact yields_pure Bool.false_ne_true
  · cases result with
    | none => exact absurd rfl hfailed
    | some fault => exact yields_pure Bool.false_ne_true

/-- What a run into a directory returns is what it compiled, with comments of its own. -/
theorem yields_compileInto_compiled (session : Session) (lastYear : Int) (directory : String) :
    Yields (Gives (fun c => ∃ notable,
        c = { session.compiled lastYear with notableZones := notable }) fun _ => True)
      (compileInto session lastYear (some directory) :
        StateM σ (Except Fault Compilation)) := by
  rw [compileInto]
  refine (yields_any (Output.destinationFault? directory)).bind fun found _ => ?_
  cases found with
  | some fault => exact yields_pure trivial
  | none =>
    refine (yields_any (noteAll _)).bind fun _ _ => (yields_any (Journal.note _)).bind fun _ _ => ?_
    refine (yields_any (Output.write _ _ _ _ _)).bind fun result _ => ?_
    obtain ⟨notable, _ | fault⟩ := result
    · exact yields_pure ⟨notable, rfl⟩
    · exact yields_pure trivial

theorem eq_compiled_of_compileInto {session : Session} {lastYear : Int} {directory : String}
    {disk : σ} {c : Compilation} (h : ((compileInto session lastYear (some directory) :
      StateM σ (Except Fault Compilation)) disk).1 = .ok c) :
    ∃ notable, c = { session.compiled lastYear with notableZones := notable } := by
  have hcompiled := (yields_compileInto_compiled session lastYear directory).result disk
  rwa [h] at hcompiled

end Run

/-- The zones whose files are written after that of a zone. -/
def Compilation.writtenAfter (c : Compilation) (zone : String) : List String :=
  ((c.timelines.entries.dropWhile fun entry => entry.1 ≠ zone).tail).map (·.1)

theorem Compilation.exists_entries_eq {c : Compilation} {zone : String} {timeline : Timeline}
    (h : c.timelines.find? zone = some timeline) :
    ∃ before after, c.timelines.entries = before ++ (zone, timeline) :: after ∧
      zone ∉ after.map (·.1) ∧ c.writtenAfter zone = after.map (·.1) := by
  obtain ⟨before, after, hentries, hbefore⟩ := List.lookup_eq_some_iff.mp h
  have hnodup := c.timelines.nodup_keys
  rw [hentries, List.map_append, List.map_cons, List.nodup_append, List.nodup_cons] at hnodup
  refine ⟨before, after, hentries, hnodup.2.1.1, ?_⟩
  rw [writtenAfter, hentries, List.dropWhile_append_of_pos, List.dropWhile_cons_of_neg (by simp),
    List.tail_cons]
  intro entry hentry
  have hne : zone ≠ entry.1 := bne_iff_ne.mp (hbefore entry hentry)
  exact decide_eq_true hne.symm

section Plan

variable {κ : Type} [DecidableEq κ] {place : String → κ} {c : Compilation} {directory : String}

theorem Output.zoneWrite_eq_iff {entry : String × Timeline} {path : String} {bytes : List UInt8} :
    Output.zoneWrite directory entry = (path, some bytes) ↔
      Path.join directory entry.1 = path ∧
        ZoneFile.encode (entry.2.toHistory entry.1) = .ok bytes := by
  rw [Output.zoneWrite, Prod.mk.injEq]
  cases ZoneFile.encode (entry.2.toHistory entry.1) <;> simp [Except.toOption]

/-- The index is written after all files of zones. -/
theorem exists_writes_eq {writes : List (String × List UInt8)}
    (hplan : planOf writes = Output.plan directory c) :
    ∃ files encoded, AliasIndex.encode c.index = .ok encoded ∧
      planOf files = c.timelines.entries.map (Output.zoneWrite directory) ∧
      writes = files ++ [(Path.join directory Output.aliasIndexFile, encoded.bytes)] := by
  obtain ⟨files, last, rfl, hfiles, hlast⟩ := List.map_eq_append_iff.mp hplan
  obtain ⟨⟨path, bytes⟩, rest, rfl, hindex, hnil⟩ := List.map_eq_cons_iff.mp hlast
  obtain rfl := List.map_eq_nil_iff.mp hnil
  rw [Output.indexWrite] at hindex
  cases hencode : AliasIndex.encode c.index with
  | error cause =>
    rw [hencode] at hindex
    cases hindex
  | ok encoded =>
    rw [hencode] at hindex
    cases hindex
    exact ⟨files, encoded, rfl, hfiles, rfl⟩

section Index

variable {files : List (String × List UInt8)} {encoded : AliasIndex.Encoded}

theorem lastWritten_concat_index (spot : κ) :
    lastWritten place (files ++ [(Path.join directory Output.aliasIndexFile, encoded.bytes)]) spot =
      if place (Path.join directory Output.aliasIndexFile) = spot then some encoded.bytes
      else lastWritten place files spot := by
  rw [lastWritten_append, lastWritten_singleton]
  split <;> simp

/-- The index is not overwritten. -/
theorem stored_index {σ : Type} [Disk (StateM σ)] {disk after : σ}
    (h : Updates place disk after
      (files ++ [(Path.join directory Output.aliasIndexFile, encoded.bytes)])) :
    stored after (Path.join directory Output.aliasIndexFile) = .ok encoded.bytes := by
  obtain ⟨bytes, hbytes, hstored⟩ := h.written _ (List.mem_append_right _ List.mem_cons_self)
  rw [lastWritten_concat_index, if_pos rfl] at hbytes
  cases hbytes
  exact hstored

end Index

section Files

variable {zone : String} {timeline : Timeline} {bytes : List UInt8}
  {files : List (String × List UInt8)}
  (hzone : c.timelines.find? zone = some timeline)
  (hencode : ZoneFile.encode (timeline.toHistory zone) = .ok bytes)
  (hfiles : planOf files = c.timelines.entries.map (Output.zoneWrite directory))
include hzone hencode hfiles

theorem exists_files_eq :
    ∃ early late, ∃ after : List (String × Timeline),
      files = early ++ ([(Path.join directory zone, bytes)] ++ late) ∧
      planOf late = after.map (Output.zoneWrite directory) ∧ zone ∉ after.map (·.1) ∧
      c.writtenAfter zone = after.map (·.1) := by
  obtain ⟨before, after, hentries, hnot, hafter⟩ := Compilation.exists_entries_eq hzone
  rw [hentries, List.map_append, List.map_cons] at hfiles
  obtain ⟨early, rest, rfl, -, hrest⟩ := List.map_eq_append_iff.mp hfiles
  obtain ⟨⟨path, stored⟩, late, rfl, hown, hlate⟩ := List.map_eq_cons_iff.mp hrest
  obtain ⟨rfl, hstored⟩ := Output.zoneWrite_eq_iff.mp hown.symm
  obtain rfl : stored = bytes := Except.ok.inj (hstored.symm.trans hencode)
  exact ⟨early, late, after, rfl, hlate, hnot, hafter⟩

/-- Of the files of zones, that of a zone is the last at its place exactly if no zone behind it has
its file there: no two zones are written as the same bytes. -/
theorem lastWritten_files_iff :
    lastWritten place files (place (Path.join directory zone)) = some bytes ↔
      ∀ other ∈ c.writtenAfter zone,
        place (Path.join directory other) ≠ place (Path.join directory zone) := by
  obtain ⟨early, late, after, rfl, hlate, hnot, hafter⟩ := exists_files_eq hzone hencode hfiles
  have hpaths : late.map (·.1) = (c.writtenAfter zone).map (Path.join directory) := by
    have hmap := congrArg (List.map Prod.fst) hlate
    rw [planOf, List.map_map, List.map_map] at hmap
    rw [hafter, List.map_map]
    exact hmap
  have hlatest : lastWritten place late (place (Path.join directory zone)) = none ↔
      ∀ other ∈ c.writtenAfter zone,
        place (Path.join directory other) ≠ place (Path.join directory zone) := by
    rw [lastWritten_eq_none_iff, hpaths, List.forall_mem_map]
  rw [← hlatest, lastWritten_append, lastWritten_append, lastWritten_singleton, if_pos rfl,
    Option.or_assoc, Option.some_or]
  constructor
  · intro hlast
    by_contra hsome
    obtain ⟨later, hlater⟩ := Option.ne_none_iff_exists'.mp hsome
    rw [hlater, Option.some_or] at hlast
    cases hlast
    obtain ⟨path, hwrite, -⟩ := exists_of_lastWritten hlater
    have hplanned := Watched.mem_planOf_iff.mpr ⟨_, rfl, hwrite⟩
    rw [hlate] at hplanned
    obtain ⟨⟨other, t⟩, hother, heq⟩ := List.mem_map.mp hplanned
    have hsame : zone = other :=
      ZoneFile.zone_eq_of_encode_eq hencode (Output.zoneWrite_eq_iff.mp heq).2
    exact hnot (hsame ▸ List.mem_map_of_mem hother)
  · intro hnone
    rw [hnone, Option.none_or]

end Files

end Plan

theorem Timeline.instant_initial_toHistory (t : Timeline) (zone : String) :
    (t.toHistory zone).initial.instant = 0 := by
  change (initialState t.expansion t.periods).instant = 0
  cases t.periods <;> rfl

/-- Data is read as the history that a timeline describes exactly if it is what is written of it. -/
theorem Timeline.decode_toHistory_iff (t : Timeline) (zone : String) (data : List UInt8) :
    ZoneFile.decode zone data = .ok (t.toHistory zone) ↔
      ZoneFile.encode (t.toHistory zone) = .ok data := by
  constructor
  · intro hdecode
    exact (ZoneFile.encode_of_decode hdecode).2.2
  · intro hencode
    obtain ⟨hstorable, rfl⟩ := ZoneFile.encode_eq_ok_iff.mp hencode
    have hdecode := ZoneFile.decode_bytes hstorable (t.instant_initial_toHistory zone)
    have hzone : (t.toHistory zone).zone = zone := rfl
    rw [hzone] at hdecode
    exact hdecode

/-- After a run into a directory of a faithful disk, the index is read back as the index of what is
returned, and each zone that it names has a file. Where the index has taken the place of a zone, the
history of the zone is read only if its own file would have had the same bytes; elsewhere, exactly
if no zone that is written after it has its file in the same place. -/
theorem Faithful.directory_readBack {σ κ : Type} [DecidableEq κ] [Disk (StateM σ)]
    [Journal (StateM σ)] {place : String → κ} (faithful : Faithful σ place) (session : Session)
    (lastYear : Int) (directory : String) (disk : σ) (c : Compilation)
    (hrun : ((compileInto session lastYear (some directory) :
      StateM σ (Except Fault Compilation)) disk).1 = .ok c) :
    let after := ((compileInto session lastYear (some directory) :
      StateM σ (Except Fault Compilation)) disk).2
    let file := Path.join directory
    ∃ encoded, AliasIndex.encode c.index = .ok encoded ∧
      stored after (file Output.aliasIndexFile) = .ok encoded.bytes ∧
      AliasIndex.decode encoded.bytes = .ok c.index ∧
      ∀ target ∈ c.index.values, ∃ history bytes, c.zones.find? target = some history ∧
        stored after (file target) = .ok bytes ∧
        (ZoneFile.decode target bytes = .ok history ↔
          if place (file target) = place (file Output.aliasIndexFile) then
            ZoneFile.encode history = .ok encoded.bytes
          else ∀ other ∈ c.writtenAfter target, place (file other) ≠ place (file target)) := by
  intro after file
  obtain ⟨notable, rfl⟩ := eq_compiled_of_compileInto hrun
  obtain ⟨writes, hplan, hupdates⟩ :=
    leaves_compileInto faithful session lastYear directory disk (by rw [hrun]; rfl)
  have hclosed := closed_compiled session lastYear
  obtain ⟨files, encoded, hindex, hfiles, rfl⟩ := exists_writes_eq hplan
  refine ⟨encoded, hindex, stored_index hupdates, AliasIndex.decode_of_encode hindex,
    fun target htarget => ?_⟩
  obtain ⟨history, hzone⟩ := hclosed.exists_of_mem_values_index htarget
  obtain ⟨own, hencode, hwrite⟩ := hclosed.exists_granted hplan hzone
  obtain ⟨bytes, hbytes, hstored⟩ := hupdates.written _ hwrite
  refine ⟨history, bytes, hzone, hstored, ?_⟩
  rw [hclosed.timelines, Option.map_eq_some_iff] at hzone
  obtain ⟨timeline, htimeline, rfl⟩ := hzone
  rw [lastWritten_concat_index] at hbytes
  rw [Timeline.decode_toHistory_iff]
  by_cases hplace : place (file target) = place (file Output.aliasIndexFile)
  · rw [if_pos hplace]
    rw [if_pos hplace.symm] at hbytes
    cases hbytes
    rfl
  · rw [if_neg hplace]
    rw [if_neg (Ne.symm hplace)] at hbytes
    refine Iff.trans ?_ (lastWritten_files_iff htimeline hencode hfiles)
    rw [hbytes, hencode, Except.ok.injEq, Option.some.injEq, eq_comm]

/-- An index begins with the number of its strings, and a zone file with a mark; so an index of few
strings is no zone file. -/
theorem AliasIndex.encode_zoneFile_ne {mapping : Keyed String} {encoded : AliasIndex.Encoded}
    (h : AliasIndex.encode mapping = .ok encoded)
    (hfew : (AliasIndex.strings mapping).eraseDups.length < 0x545a) (history : History) :
    ZoneFile.encode history ≠ .ok encoded.bytes := by
  intro hencode
  obtain ⟨layout, -, hbytes, -, hpool, -⟩ := AliasIndex.exists_layout_of_encode h
  obtain ⟨-, hsame⟩ := ZoneFile.encode_eq_ok_iff.mp hencode
  rw [← hpool] at hfew
  have hcount : Wire.IntKind.u16.bytes layout.pool.length = [0x54, 0x5a] :=
    calc Wire.IntKind.u16.bytes layout.pool.length
        = encoded.bytes.take 2 := by
          rw [hbytes, AliasIndex.Layout.bytes]
          exact (List.take_left' (Wire.IntKind.length_bytes .u16 _)).symm
      _ = [0x54, 0x5a] := congrArg (List.take 2) hsame
  have hvalue := Wire.IntKind.valueOf_bytes
    ((Wire.IntKind.holds_u16_iff layout.pool.length).mpr (by omega))
  rw [hcount] at hvalue
  have hsize : (0x545a : Int) = layout.pool.length := hvalue
  omega

section Singleton

variable {w : Workspace} {session : Session} {lastYear : Int} {directory name : String}
  {history : History} (hnames : (session.compiled lastYear).names.entries = [(name, history)])
  (hzone : history.zone = name)
include hnames hzone

theorem index_of_singleton : (session.compiled lastYear).index.entries = [(name, name)] := by
  have hmapped : ((session.compiled lastYear).names.mapValues (·.zone)).entries =
      [(name, history.zone)] := congrArg (List.map _) hnames
  rw [Compilation.index, AliasIndex.distinctIgnoringCase_of_singleton hmapped, hmapped, hzone]

/-- A session of one name is written into a workspace where its zone file and then an index can
be. -/
theorem isOk_of_singleton (hshort : name.utf8ByteSize ≤ 65535)
    (hdirectory : w.kind? directory = some .directory)
    (hfiles : ((w.noteCompiling session lastYear).writeFiles directory
      (session.compiled lastYear)).1.2 = none)
    (hgranted : ((w.noteCompiling session lastYear).writeFiles directory
      (session.compiled lastYear)).2.writeError?
        (Path.join directory Output.aliasIndexFile) = none) :
    ((compileInto session lastYear (some directory) :
      StateM Workspace (Except Fault Compilation)) w).1.isOk = true := by
  have hindex := index_of_singleton hnames hzone
  have hstrings : AliasIndex.strings (session.compiled lastYear).index = [name, name] := by
    rw [AliasIndex.strings, hindex]
    rfl
  have hsize : (session.compiled lastYear).index.size ≤ AliasIndex.capacity := by
    simp [Keyed.size, hindex, AliasIndex.capacity]
  have hroom : (AliasIndex.strings (session.compiled lastYear).index).eraseDups.length ≤
      AliasIndex.capacity := by
    simp [hstrings, List.eraseDups_cons, AliasIndex.capacity]
  obtain ⟨encoded, hencode, -⟩ := AliasIndex.encode_of_short hsize hroom (by simp [hstrings, hshort])
  exact Workspace.isOk_compileInto hdirectory hfiles hgranted hencode

end Singleton

/-- A session of one zone that is always on Greenwich time. -/
def greenwich (zone : String) : Session :=
  Session.empty.after [.readText "<string>" s!"Zone {zone} 0 - GMT\n"]

/-- A zone of an ordinary name is read back from its file. -/
theorem directory_readBack_testZone :
    ∃ c, ((compileInto (greenwich "Test/Zone") 2100 (some "out") :
        StateM Workspace (Except Fault Compilation)) outputDisk).1 = .ok c ∧
      c.index.entries = [("Test/Zone", "Test/Zone")] ∧
      ∃ history bytes, c.zones.find? "Test/Zone" = some history ∧
        stored ((compileInto (greenwich "Test/Zone") 2100 (some "out") :
          StateM Workspace (Except Fault Compilation)) outputDisk).2 "out/Test/Zone" = .ok bytes ∧
        ZoneFile.decode "Test/Zone" bytes = .ok history := by
  have hnames : ((greenwich "Test/Zone").compiled 2100).names.entries =
      [("Test/Zone", ⟨"Test/Zone", ⟨0, 0, 0, "GMT"⟩, #[]⟩)] := by decide +kernel
  have hok : ((compileInto (greenwich "Test/Zone") 2100 (some "out") :
      StateM Workspace (Except Fault Compilation)) outputDisk).1.isOk = true :=
    isOk_of_singleton hnames rfl (by decide) (by decide +kernel) (by decide +kernel)
      (by decide +kernel)
  cases hrun : ((compileInto (greenwich "Test/Zone") 2100 (some "out") :
      StateM Workspace (Except Fault Compilation)) outputDisk).1 with
  | error fault =>
    rw [hrun] at hok
    cases hok
  | ok c =>
    obtain ⟨encoded, -, -, -, hfiles⟩ :=
      Workspace.faithful.directory_readBack _ 2100 "out" outputDisk c hrun
    obtain ⟨notable, rfl⟩ := eq_compiled_of_compileInto hrun
    have hindex := index_of_singleton hnames rfl
    have htarget : "Test/Zone" ∈ ((greenwich "Test/Zone").compiled 2100).index.values := by
      rw [Keyed.values, hindex]
      exact List.mem_cons_self
    obtain ⟨history, bytes, hzone, hstored, hiff⟩ := hfiles "Test/Zone" htarget
    refine ⟨_, rfl, hindex, history, bytes, hzone, hstored, hiff.mpr ?_⟩
    have hlast : ((greenwich "Test/Zone").compiled 2100).writtenAfter "Test/Zone" = [] := by
      decide +kernel
    rw [if_neg (by decide)]
    exact hlast ▸ nofun

/-- The index is written over the file of a zone that has its name. -/
theorem greenwichAtIndex_overwritten :
    let c := (greenwich "ZoneInfoMap").compiled 2100
    let run := (compileInto (greenwich "ZoneInfoMap") 2100 (some "out") :
      StateM Workspace (Except Fault Compilation)) outputDisk
    run.1.isOk = true ∧ c.index.entries = [("ZoneInfoMap", "ZoneInfoMap")] ∧
      c.zones.find? "ZoneInfoMap" = some ⟨"ZoneInfoMap", ⟨0, 0, 0, "GMT"⟩, #[]⟩ ∧
      ∃ bytes, stored run.2 "out/ZoneInfoMap" = .ok bytes ∧
        ∀ history, ZoneFile.decode "ZoneInfoMap" bytes ≠ .ok history := by
  intro c run
  have hnames : ((greenwich "ZoneInfoMap").compiled 2100).names.entries =
      [("ZoneInfoMap", ⟨"ZoneInfoMap", ⟨0, 0, 0, "GMT"⟩, #[]⟩)] := by decide +kernel
  have hindex := index_of_singleton hnames rfl
  have hok : run.1.isOk = true :=
    isOk_of_singleton hnames rfl (by decide) (by decide +kernel) (by decide +kernel)
      (by decide +kernel)
  obtain ⟨writes, hplan, hupdates⟩ :=
    leaves_compileInto Workspace.faithful (greenwich "ZoneInfoMap") 2100 "out" outputDisk hok
  obtain ⟨files, encoded, hencode, -, rfl⟩ := exists_writes_eq hplan
  have hfile : Path.join "out" Output.aliasIndexFile = "out/ZoneInfoMap" := by decide
  have hstored := stored_index hupdates
  rw [hfile] at hstored
  refine ⟨hok, hindex, by decide +kernel, encoded.bytes, hstored, fun history hdecode => ?_⟩
  refine AliasIndex.encode_zoneFile_ne hencode ?_ history (ZoneFile.encode_of_decode hdecode).2.2
  rw [AliasIndex.strings, hindex]
  decide

end ZoneHistory
