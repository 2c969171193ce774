import ZoneHistory.Proofs.Compilation.Closed
import ZoneHistory.Proofs.Reading.Fields
import ZoneHistory.Proofs.ZoneFile.Fitting
import ZoneHistory.Workspace

/-!
# Zones that cannot be written

A zone can be accepted whose offsets, instants or names do not fit a zone file; a zone of modest
dates and offsets always fits. A run fails for a zone file only if there is a zone that does not
fit, and then it writes no index.
-/
namespace ZoneHistory

/-- Whatever state an action begins in, its result has a property. -/
structure Yields {σ α : Type} (property : α → Prop) (action : StateM σ α) : Prop where
  result (s : σ) : property (action s).1

section Results

variable {σ α β ε : Type} {property value : α → Prop} {property' value' : β → Prop}
  {failure : ε → Prop}

theorem yields_pure {a : α} (h : property a) : Yields property (pure a : StateM σ α) :=
  ⟨fun _ => h⟩

theorem yields_any (action : StateM σ α) : Yields (fun _ => True) action := ⟨fun _ => trivial⟩

theorem Yields.imp {action : StateM σ α} {other : α → Prop} (h : Yields property action)
    (himp : ∀ a, property a → other a) : Yields other action :=
  ⟨fun s => himp _ (h.result s)⟩

theorem Yields.bind {action : StateM σ α} {next : α → StateM σ β} (h : Yields property action)
    (hnext : ∀ a, property a → Yields property' (next a)) : Yields property' (action >>= next) :=
  ⟨fun s => (hnext (action s).1 (h.result s)).result (action s).2⟩

/-- A failure ends a sequence of actions and is its failure. -/
theorem Yields.bindExcept {action : ExceptT ε (StateM σ) α} {next : α → ExceptT ε (StateM σ) β}
    (h : Yields (Gives value failure) action.run)
    (hnext : ∀ a, Yields (Gives value' failure) (next a).run) :
    Yields (Gives value' failure) (action >>= next).run := by
  rw [ExceptT.run_bind]
  refine h.bind fun result hresult => ?_
  cases result with
  | ok a => exact hnext a
  | error cause => exact yields_pure hresult

theorem yields_lift (action : StateM σ α) :
    Yields (Gives (fun _ => True) failure) (liftM action : ExceptT ε (StateM σ) α).run :=
  ⟨fun _ => trivial⟩

end Results

/-- If it is a zone file that could not be written, then for a cause of the given kind. -/
def Fault.Blames (kind : Wire.WriteError → Prop) : Fault → Prop
  | zoneFile cause => kind cause
  | _ => True

theorem Fault.Blames.imp {kind other : Wire.WriteError → Prop} {fault : Fault}
    (h : fault.Blames kind) (himp : ∀ cause, kind cause → other cause) : fault.Blames other := by
  cases fault with
  | zoneFile cause => exact himp cause h
  | _ => trivial

/-- The same of what may have ended a run. -/
def Blames? (kind : Wire.WriteError → Prop) : Option Fault → Prop
  | none => True
  | some fault => fault.Blames kind

namespace Output

variable {σ : Type} {kind : Wire.WriteError → Prop}

theorem yields_onDisk {α : Type} (request : StateM σ (Except DiskError α)) :
    Yields (Gives (fun _ => True) (Fault.Blames kind)) (onDisk request).run := by
  rw [run_onDisk]
  refine (yields_any request).bind fun result _ => yields_pure ?_
  cases result <;> trivial

/-- The timeline of a zone whose history is refused for the cause is among the entries. -/
def Refuses (entries : List (String × Timeline)) (cause : Wire.WriteError) : Prop :=
  ∃ entry ∈ entries, ZoneFile.encode (entry.2.toHistory entry.1) = .error cause

theorem Refuses.mono {entries others : List (String × Timeline)} {cause : Wire.WriteError}
    (h : Refuses entries cause) (hsubset : entries ⊆ others) : Refuses others cause := by
  obtain ⟨entry, hentry, hencode⟩ := h
  exact ⟨entry, hsubset hentry, hencode⟩

variable [Disk (StateM σ)] [Journal (StateM σ)]

theorem yields_writeZoneFile (directory zone : String) (timeline : Timeline)
    (expected : Option History) :
    Yields (Gives (fun _ => True) (Fault.Blames (Refuses [(zone, timeline)])))
      (writeZoneFile directory zone timeline expected : ExceptT Fault (StateM σ) Bool).run := by
  unfold writeZoneFile
  extract_lets file parent afterParent
  -- The rest of the block follows whether or not directories are made first.
  have hafter : ∀ u, Yields (Gives (fun _ => True) (Fault.Blames (Refuses [(zone, timeline)])))
      (afterParent u).run := by
    intro u
    refine (yields_lift _).bindExcept fun _ => ?_
    refine (yields_onDisk _).bindExcept fun _ => ?_
    have hencode : Gives (fun _ => True) (Fault.Blames (Refuses [(zone, timeline)]))
        ((ZoneFile.encode (timeline.toHistory zone)).mapError Fault.zoneFile) := by
      cases h : ZoneFile.encode (timeline.toHistory zone) with
      | ok bytes => trivial
      | error cause => exact ⟨(zone, timeline), List.mem_cons_self, h⟩
    refine Yields.bindExcept (yields_pure hencode) fun bytes => ?_
    refine (yields_onDisk _).bindExcept fun _ => ?_
    refine (yields_onDisk _).bindExcept fun stored => ?_
    have hdecode : Gives (fun _ => True) (Fault.Blames (Refuses [(zone, timeline)]))
        ((ZoneFile.decode zone stored).mapError Fault.readBack) := by
      cases ZoneFile.decode zone stored <;> trivial
    exact Yields.bindExcept (yields_pure hdecode) fun _ => yields_pure trivial
  split
  · exact hafter ()
  · exact (yields_onDisk _).bindExcept fun u => hafter u

theorem yields_writeZoneFiles (directory : String) (expected : Keyed History)
    (entries : List (String × Timeline)) (comments : Comments) :
    Yields (fun result => Blames? (Refuses entries) result.2)
      (writeZoneFiles directory expected entries comments :
        StateM σ (Comments × Option Fault)) := by
  induction entries generalizing comments with
  | nil => exact yields_pure trivial
  | cons entry rest ih =>
    obtain ⟨zone, timeline⟩ := entry
    have hrest : ∀ comments, Yields
        (fun result => Blames? (Refuses ((zone, timeline) :: rest)) result.2)
        (writeZoneFiles directory expected rest comments :
          StateM σ (Comments × Option Fault)) := by
      refine fun comments => (ih comments).imp fun result hresult => ?_
      obtain ⟨notable, _ | fault⟩ := result
      · trivial
      · exact Fault.Blames.imp hresult fun cause h => h.mono (List.subset_cons_self _ _)
    rw [writeZoneFiles]
    refine (yields_writeZoneFile directory zone timeline _).bind fun result hresult => ?_
    cases result with
    | error fault =>
      exact yields_pure <| Fault.Blames.imp hresult fun cause h =>
        h.mono (List.cons_subset_cons _ (List.nil_subset _))
    | ok same =>
      cases same with
      | false => exact (yields_any _).bind fun _ _ => hrest _
      | true => exact hrest comments

theorem yields_writeAliasIndex (directory : String) (names : Keyed History) :
    Yields (Blames? kind)
      (writeAliasIndex directory names : StateM σ (Option Fault)) := by
  unfold writeAliasIndex
  split
  next mapping notices _ =>
  refine (yields_any (noteAll notices)).bind fun _ _ => ?_
  refine (yields_any (Disk.create _)).bind fun created _ => ?_
  cases created with
  | error error => exact yields_pure trivial
  | ok _ =>
    cases AliasIndex.encode mapping with
    | error cause => exact yields_pure trivial
    | ok encoded =>
      refine (yields_any (Journal.note encoded.notice)).bind fun _ _ => ?_
      refine (yields_any (Disk.write _ _)).bind fun written _ => ?_
      cases written with
      | error error => exact yields_pure trivial
      | ok _ => exact (yields_any (Journal.note _)).bind fun _ _ => yields_pure trivial

omit [Journal (StateM σ)] in
theorem yields_destinationFault? (directory : String) :
    Yields (Blames? kind) (destinationFault? directory : StateM σ (Option Fault)) := by
  refine (yields_any (Disk.kind? directory)).bind fun found _ => ?_
  rcases found with _ | _ | _ <;> exact yields_pure trivial

theorem yields_write (directory : String) (timelines : Keyed Timeline)
    (zones names : Keyed History) (notable : Comments) :
    Yields (fun result => Blames? (Refuses timelines.entries) result.2)
      (write directory timelines zones names notable : StateM σ (Comments × Option Fault)) := by
  rw [write]
  have hdestination : Yields (Blames? (Refuses timelines.entries))
      (destinationFault? directory : StateM σ (Option Fault)) := yields_destinationFault? directory
  refine hdestination.bind fun found hfound => ?_
  cases found with
  | some fault => exact yields_pure hfound
  | none =>
    refine (yields_writeZoneFiles directory zones timelines.entries notable).bind
      fun result hresult => ?_
    obtain ⟨comments, _ | fault⟩ := result
    · exact (yields_writeAliasIndex directory names).bind fun found hfound => yields_pure hfound
    · exact yields_pure hresult

end Output

/-- A run that fails for a zone file does so for that of a zone that it compiled. -/
theorem yields_compileInto {σ : Type} [Disk (StateM σ)] [Journal (StateM σ)] (session : Session)
    (lastYear : Int) (directory : String) :
    Yields (Gives (fun _ => True)
        (Fault.Blames (Output.Refuses (session.compiled lastYear).timelines.entries)))
      (compileInto session lastYear (some directory) :
        StateM σ (Except Fault Compilation)) := by
  rw [compileInto]
  have hdestination : Yields
      (Blames? (Output.Refuses (session.compiled lastYear).timelines.entries))
      (Output.destinationFault? directory : StateM σ (Option Fault)) :=
    Output.yields_destinationFault? directory
  refine hdestination.bind fun found hfound => ?_
  cases found with
  | some fault => exact yields_pure hfound
  | none =>
    refine (yields_any (noteAll _)).bind fun _ _ => ?_
    refine (yields_any (Journal.note _)).bind fun _ _ => ?_
    refine (Output.yields_write directory _ _ _ _).bind fun result hresult => ?_
    obtain ⟨notable, _ | fault⟩ := result
    · exact yields_pure trivial
    · exact yields_pure hresult

theorem Compilation.Closed.exists_of_refuses {c : Compilation} (h : c.Closed)
    {cause : Wire.WriteError} (hrefuses : Output.Refuses c.timelines.entries cause) :
    ∃ name history, c.zones.find? name = some history ∧
      ZoneFile.encode history = .error cause := by
  obtain ⟨⟨zone, timeline⟩, hentry, hencode⟩ := hrefuses
  rw [Keyed.mem_entries_iff] at hentry
  exact ⟨zone, timeline.toHistory zone, by rw [h.timelines, hentry]; rfl, hencode⟩

open Watched (planOf)

/-- A run that fails for a zone file has a history that does not fit one. -/
theorem exists_of_zoneFile_fault {σ : Type} [Disk (StateM σ)] [Journal (StateM σ)]
    {session : Session} {lastYear : Int} {directory : String} {disk : σ} {cause : Wire.WriteError}
    (h : ((compileInto session lastYear (some directory) :
      StateM σ (Except Fault Compilation)) disk).1 = .error (.zoneFile cause)) :
    ∃ name history, (session.compiled lastYear).zones.find? name = some history ∧
      ZoneFile.encode history = .error cause ∧ ¬ ZoneFile.Storable history := by
  have hblames := (yields_compileInto (σ := σ) session lastYear directory).result disk
  rw [h] at hblames
  obtain ⟨name, history, hkept, hrefused⟩ :=
    (closed_compiled session lastYear).exists_of_refuses hblames
  refine ⟨name, history, hkept, hrefused, fun hstorable => ?_⟩
  obtain ⟨bytes, hwritten⟩ := ZoneFile.exists_encode_iff.mpr hstorable
  rw [hrefused] at hwritten
  cases hwritten

theorem Session.Collects.storable {session : Session} {rules : List Rule}
    (h : session.Collects rules) {lastYear : Int} {name : String} {history : History}
    (hkept : (session.compiled lastYear).zones.find? name = some history)
    (hmodest : ∀ zone ∈ session.zones, zone.name = name →
      zone.Modest session.ruleSets lastYear) : ZoneFile.Storable history := by
  obtain ⟨before, zone, after, hzones, hname, -, rfl, -⟩ :=
    (find?_zones_iff session lastYear name).mp hkept
  have hzone : zone ∈ session.zones := by
    rw [hzones]
    exact List.mem_append_right _ List.mem_cons_self
  exact (hmodest zone hzone hname).storable (h.inCalendar_feed hzone)

/-- A history that is kept is written exactly if it fits a zone file, which it does if the zones of
its name are modest. A run fails for a zone file only because of a history that does not fit, so
never if all zones are modest; with such a history it fails before it has written an index. -/
theorem zoneFiles_written_iff_storable {σ : Type} [Disk (StateM σ)] [Journal (StateM σ)]
    (calls : List Session.Call) (files : List String) (lastYear : Int) (directory : String)
    (disk : σ) :
    let session : Session := { Session.empty.after calls with files }
    let c := session.compiled lastYear
    let run := (compileInto session lastYear (some directory) :
      StateM (Watched σ) (Except Fault Compilation)) ⟨disk, []⟩
    (∀ name history, c.zones.find? name = some history →
      ((∃ bytes, ZoneFile.encode history = .ok bytes) ↔ ZoneFile.Storable history) ∧
      ((∀ zone ∈ session.zones, zone.name = name → zone.Modest session.ruleSets lastYear) →
        ZoneFile.Storable history)) ∧
    (∀ cause, run.1 = .error (.zoneFile cause) → ∃ name history,
      c.zones.find? name = some history ∧ ZoneFile.encode history = .error cause ∧
        ¬ ZoneFile.Storable history) ∧
    ((∀ zone ∈ session.zones, zone.Modest session.ruleSets lastYear) →
      ∀ cause, run.1 ≠ .error (.zoneFile cause)) ∧
    ∀ name history, c.zones.find? name = some history → ¬ ZoneFile.Storable history →
      run.1.isOk = false ∧
        planOf run.2.granted <+: c.timelines.entries.map (Output.zoneWrite directory) := by
  intro session c run
  have hread := Session.collects_after Session.collects_empty calls
  have hcollects : session.Collects _ := ⟨hread.grouped, hread.rules, hread.zones⟩
  refine ⟨fun name history hkept => ⟨ZoneFile.exists_encode_iff, hcollects.storable hkept⟩,
    fun cause => exists_of_zoneFile_fault, fun hmodest cause hrun => ?_,
    fun name history hkept hunfit => ?_⟩
  · obtain ⟨name, history, hkept, -, hunfit⟩ := exists_of_zoneFile_fault hrun
    exact hunfit (hcollects.storable hkept fun zone hzone _ => hmodest zone hzone)
  · rcases granted_compileInto session lastYear directory disk with ⟨-, hplan⟩ | hfailed
    · obtain ⟨bytes, hwritten, -⟩ :=
        (closed_compiled session lastYear).exists_granted hplan hkept
      exact absurd (ZoneFile.exists_encode_iff.mp ⟨bytes, hwritten⟩) hunfit
    · exact hfailed

/-- A zone that is always so many hours ahead. -/
def hoursAhead (hours : Nat) : List Session.Call :=
  [.readText "<string>" s!"Zone Test/Zone {hours}:00 - GMT\n"]

def hoursAheadZone (hours : Nat) : Zone :=
  ⟨"Test/Zone", [⟨hours * 3600000, .none, "GMT", none, s!"Zone Test/Zone {hours}:00 - GMT"⟩]⟩

/-- A disk with the one directory. -/
def outputDisk : Workspace := ⟨[(["out"], .directory)], []⟩

/-- Twelve hours are modest. -/
theorem zoneFiles_written_twelve :
    (Session.empty.after (hoursAhead 12)).zones = [hoursAheadZone 12] ∧
      (hoursAheadZone 12).Modest .empty 2100 ∧
      ∀ cause, ((compileInto (Session.empty.after (hoursAhead 12)) 2100 (some "out") :
        StateM (Watched Workspace) (Except Fault Compilation))
          ⟨outputDisk, []⟩).1 ≠ .error (.zoneFile cause) := by
  have hsession : Session.empty.after (hoursAhead 12) = ⟨.empty, [hoursAheadZone 12], [], []⟩ := by
    decide +kernel
  have hfeed : ((hoursAheadZone 12).feed .empty).instructions =
      [.setStandardOffset 43200000, .setFixedSavings ⟨"GMT", 0⟩] := rfl
  have hmodest : (hoursAheadZone 12).Modest .empty 2100 := by
    refine ⟨by decide, by decide, ?_, ?_⟩
    · rw [hfeed, List.forall_mem_cons, List.forall_mem_singleton]
      exact ⟨(by decide : Within 1000000000 43200000), ⟨by decide, by decide⟩⟩
    · rw [hfeed]
      decide
  refine ⟨congrArg Session.zones hsession, hmodest, ?_⟩
  refine (zoneFiles_written_iff_storable (hoursAhead 12) [] 2100 "out" outputDisk).2.2.1 ?_
  simp only [hsession]
  exact List.forall_mem_singleton.mpr hmodest

/-- An offset of 600 hours is accepted, and is more milliseconds than fit into its field. -/
theorem hoursAhead600_refused :
    ((Session.empty.after (hoursAhead 600)).compiled 2100).zones.find? "Test/Zone" =
        some ⟨"Test/Zone", ⟨0, 2160000000, 2160000000, "GMT"⟩, #[]⟩ ∧
      ((compileInto (Session.empty.after (hoursAhead 600)) 2100 (some "out") :
        StateM Workspace (Except Fault Compilation)) outputDisk).1.map (fun _ => ()) =
          .error (.zoneFile (.tooGreat 2160000000 .i32)) := by
  refine ⟨?_, ?_⟩ <;> decide +kernel

end ZoneHistory
