import ZoneHistory.Output
import ZoneHistory.Proofs.Links
import ZoneHistory.Proofs.Watched

/-!
# What a run writes

The writes of a run are a beginning of its plan, which is the files of the zones and then the index,
and they are all of the plan exactly if the run succeeds.
-/
namespace ZoneHistory

namespace Output

open Watched

variable {σ : Type}

theorem run_onDisk {α : Type} (request : StateM σ (Except DiskError α)) :
    (onDisk request).run = request >>= fun result => pure <|
      match result with
      | .ok value => .ok value
      | .error error => .error (.disk error) := by
  rw [onDisk, ExceptT.run_bind]
  simp only [liftM, monadLift, MonadLift.monadLift, ExceptT.lift, ExceptT.run_mk, bind_map_left]
  congr 1
  funext result
  cases result <;> rfl

theorem performs_onDisk {α : Type} {plan : Plan}
    {request : StateM (Watched σ) (Except DiskError α)}
    (h : Performs (·.isOk = true) request plan) :
    Performs (·.isOk = true) (onDisk request).run plan := by
  rw [run_onDisk, ← List.append_nil plan]
  refine h.bind (fun result _ => performs_pure _) fun result hfailed => stops_pure ?_
  cases result with
  | ok value => exact absurd rfl hfailed
  | error error => exact nofun

/-- The planned write of a zone file. -/
def zoneWrite (directory : String) (entry : String × Timeline) : String × Option (List UInt8) :=
  (Path.join directory entry.1, (ZoneFile.encode (entry.2.toHistory entry.1)).toOption)

/-- The planned write of the index. -/
def indexWrite (directory : String) (index : Keyed String) : String × Option (List UInt8) :=
  (Path.join directory aliasIndexFile, (AliasIndex.encode index).toOption.map (·.bytes))

theorem performs_liftExcept {α : Type} (value : Except Fault α) :
    Performs (·.isOk = true)
      (writeZoneFile.liftExcept value : ExceptT Fault (StateM (Watched σ)) α).run [] :=
  performs_pure _

theorem liftExcept_ok_bind {α β : Type} (value : α) (next : α → ExceptT Fault (StateM σ) β) :
    writeZoneFile.liftExcept (.ok value) >>= next = next value := rfl

variable [Disk (StateM σ)] [Journal (StateM σ)]

theorem performs_writeZoneFile (directory zone : String) (timeline : Timeline)
    (expected : Option History) :
    Performs (·.isOk = true)
      (writeZoneFile directory zone timeline expected : ExceptT Fault (StateM (Watched σ)) Bool).run
      [zoneWrite directory (zone, timeline)] := by
  unfold writeZoneFile
  extract_lets file parent afterParent
  -- The rest of the block follows whether or not directories are made first.
  have hafter : ∀ u, Performs (·.isOk = true) (afterParent u).run
      [zoneWrite directory (zone, timeline)] := by
    intro u
    refine (performs_note _).lift.bindExcept fun _ => ?_
    refine (performs_onDisk (performs_ask _)).bindExcept fun _ => ?_
    rw [zoneWrite]
    cases ZoneFile.encode (timeline.toHistory zone) with
    | error cause => exact (stops_pure nofun).performs _
    | ok bytes =>
      rw [Except.mapError, liftExcept_ok_bind]
      change Performs _ _ ([(file, some bytes)] ++ [])
      refine (performs_onDisk (completes_write file bytes).performs).bindExcept fun _ => ?_
      refine (performs_onDisk (performs_ask _)).bindExcept fun stored => ?_
      exact (performs_liftExcept _).bindExcept fun _ => performs_pure _
  split
  · exact hafter ()
  · exact (performs_onDisk (performs_ask _)).bindExcept fun u => hafter u

theorem performs_writeZoneFiles (directory : String) (expected : Keyed History)
    (entries : List (String × Timeline)) (comments : Comments) :
    Performs (·.2 = none)
      (writeZoneFiles directory expected entries comments :
        StateM (Watched σ) (Comments × Option Fault))
      (entries.map (zoneWrite directory)) := by
  induction entries generalizing comments with
  | nil => exact performs_pure _
  | cons entry rest ih =>
    obtain ⟨zone, timeline⟩ := entry
    rw [writeZoneFiles, List.map_cons, ← List.singleton_append]
    refine (performs_writeZoneFile directory zone timeline _).bind (fun result hok => ?_)
      fun result hfailed => ?_
    · rcases result with fault | _ | _
      · cases hok
      · exact (performs_note _).andThen fun _ => ih _
      · exact ih comments
    · cases result with
      | error fault => exact stops_pure nofun
      | ok same => exact absurd rfl hfailed

theorem completes_writeAliasIndex (directory : String) (names : Keyed History) :
    Completes (· = none) (writeAliasIndex directory names : StateM (Watched σ) (Option Fault))
      [indexWrite directory (AliasIndex.distinctIgnoringCase (names.mapValues (·.zone))).1] := by
  unfold writeAliasIndex
  split
  next mapping notices hmapping =>
  rw [hmapping, indexWrite]
  refine (performs_noteAll notices).andComplete fun _ => ?_
  have hcreate : Performs (·.isOk = true) (Disk.create (Path.join directory aliasIndexFile) :
      StateM (Watched σ) (Except DiskError Unit)) [] := performs_ask _
  refine hcreate.completes (fun result hok => ?_) (fun result hfailed => ?_)
    (Or.inl (List.cons_ne_nil _ _))
  · cases result with
    | error error => cases hok
    | ok _ =>
      cases AliasIndex.encode mapping with
      | error cause => exact (stops_pure nofun).completes (List.cons_ne_nil _ _)
      | ok encoded =>
        refine (performs_note encoded.notice).andComplete fun _ => ?_
        refine (completes_write _ encoded.bytes).andReport (fun result hok => ?_)
          (fun result hfailed => ?_)
        · cases result with
          | error error => cases hok
          | ok _ => exact (performs_note _).andComplete fun _ => completes_pure rfl
        · cases result with
          | error error => exact stops_pure nofun
          | ok _ => exact absurd rfl hfailed
  · cases result with
    | error error => exact stops_pure nofun
    | ok _ => exact absurd rfl hfailed

omit [Journal (StateM σ)] in
theorem performs_destinationFault? (directory : String) :
    Performs (· = none) (destinationFault? directory : StateM (Watched σ) (Option Fault)) [] := by
  refine (performs_ask (Disk.kind? directory)).andThen fun kind => ?_
  rcases kind with _ | _ | _ <;> exact performs_pure _

/-- What a run is to write into a directory: the files of the zones, and then the index. -/
def plan (directory : String) (c : Compilation) : Plan :=
  c.timelines.entries.map (zoneWrite directory) ++ [indexWrite directory c.index]

theorem plan_ne_nil (directory : String) (c : Compilation) : plan directory c ≠ [] :=
  List.append_ne_nil_of_right_ne_nil _ (List.cons_ne_nil _ _)

theorem completes_writeAll (directory : String) (c : Compilation) :
    Completes (·.2 = none)
      (write directory c.timelines c.zones c.names c.notableZones :
        StateM (Watched σ) (Comments × Option Fault))
      (plan directory c) := by
  rw [write]
  refine (performs_destinationFault? directory).completes (fun result hok => ?_)
    (fun result hfailed => ?_) (Or.inl (plan_ne_nil directory c))
  · subst hok
    refine (performs_writeZoneFiles directory c.zones c.timelines.entries c.notableZones).completes
      (fun result hok => ?_) (fun result hfailed => ?_) (Or.inl (List.cons_ne_nil _ _))
    · obtain ⟨comments, fault⟩ := result
      subst hok
      exact (completes_writeAliasIndex directory c.names).andReport
        (fun fault hok => completes_pure hok) (fun fault hfailed => stops_pure hfailed)
    · obtain ⟨comments, _ | fault⟩ := result
      · exact absurd rfl hfailed
      · exact stops_pure nofun
  · cases result with
    | none => exact absurd rfl hfailed
    | some fault => exact stops_pure nofun

end Output

/-- The writes of a run into a directory are a beginning of its plan, and they are all of it exactly
if the run succeeds. -/
theorem completes_compileInto {σ : Type} [Disk (StateM σ)] [Journal (StateM σ)]
    (session : Session) (lastYear : Int) (directory : String) :
    Watched.Completes (·.isOk = true)
      (compileInto session lastYear (some directory) :
        StateM (Watched σ) (Except Fault Compilation))
      (Output.plan directory (session.compiled lastYear)) := by
  rw [compileInto]
  refine (Output.performs_destinationFault? directory).completes (fun result hok => ?_)
    (fun result hfailed => ?_) (Or.inl (Output.plan_ne_nil _ _))
  · subst hok
    refine (Watched.performs_noteAll _).andComplete fun _ => ?_
    refine (Watched.performs_note _).andComplete fun _ => ?_
    refine (Output.completes_writeAll directory (session.compiled lastYear)).andReport
      (fun result hok => ?_) (fun result hfailed => ?_)
    · obtain ⟨notable, fault⟩ := result
      subst hok
      exact Watched.completes_pure rfl
    · obtain ⟨notable, _ | fault⟩ := result
      · exact absurd rfl hfailed
      · exact Watched.stops_pure nofun
  · cases result with
    | none => exact absurd rfl hfailed
    | some fault => exact Watched.stops_pure nofun

/-- A run into a directory succeeds and writes all of its plan, or it fails and writes files of
zones, in their order, and no index. -/
theorem granted_compileInto {σ : Type} [Disk (StateM σ)] [Journal (StateM σ)] (session : Session)
    (lastYear : Int) (directory : String) (disk : σ) :
    let run := (compileInto session lastYear (some directory) :
      StateM (Watched σ) (Except Fault Compilation)) ⟨disk, []⟩
    (run.1.isOk = true ∧
      Watched.planOf run.2.granted = Output.plan directory (session.compiled lastYear)) ∨
    (run.1.isOk = false ∧
      Watched.planOf run.2.granted <+:
        (session.compiled lastYear).timelines.entries.map (Output.zoneWrite directory)) := by
  intro run
  obtain ⟨writes, hgranted, hbegin, hiff⟩ :=
    completes_compileInto session lastYear directory (⟨disk, []⟩ : Watched σ)
  rw [List.nil_append] at hgranted
  rw [← hgranted] at hbegin hiff
  rcases List.prefix_concat_iff.mp hbegin with hall | hfiles
  · exact Or.inl ⟨hiff.mpr hall, hall⟩
  · refine Or.inr ⟨Bool.eq_false_iff.mpr fun hok => ?_, hfiles⟩
    have hlength := hfiles.length_le
    rw [hiff.mp hok, Output.plan, List.length_append, List.length_singleton] at hlength
    exact Nat.not_succ_le_self _ hlength

end ZoneHistory
