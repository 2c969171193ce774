import ZoneHistory.Proofs.Links
import ZoneHistory.Proofs.Output

/-!
# Nothing named is missing

A compilation is closed: what its names and links denote is among its zones, and its timelines are
those of its zones. So a run that writes an index writes the files of all zones that it names.
-/
namespace ZoneHistory

/-- The histories of a table are those of its timelines. -/
def ZoneTable.Matched (table : ZoneTable) : Prop :=
  ∀ zone, table.histories.find? zone = (table.timelines.find? zone).map (·.toHistory zone)

theorem ZoneTable.Matched.add {table : ZoneTable} (h : table.Matched) (ruleSets : Keyed RuleSet)
    (lastYear : Int) (zone : Zone) : (table.add ruleSets lastYear zone).Matched := by
  intro name
  rw [ZoneTable.add]
  cases hcompile : zone.compile ruleSets lastYear with
  | error fault => exact h name
  | ok result =>
    obtain ⟨timeline, history⟩ := result
    obtain ⟨-, rfl, -⟩ := Zone.compile_eq_ok_iff.mp hcompile
    simp only [noting, Keyed.find?_put]
    by_cases hname : name = zone.name
    · rw [if_pos hname, if_pos hname, Option.map_some, hname]
    · rw [if_neg hname, if_neg hname]
      exact h name

/-- A zone that is refused leaves both tables as they are, and one that is accepted replaces the
same entry in both. -/
theorem matched_compileZones (session : Session) (lastYear : Int) :
    (compileZones session lastYear).Matched := by
  rw [compileZones]
  induction session.zones using List.reverseRecOn with
  | nil => exact fun _ => rfl
  | append_singleton zones zone ih =>
    rw [List.foldl_concat]
    exact ih.add session.ruleSets lastYear zone

structure Compilation.Closed (c : Compilation) : Prop where
  /-- What a name denotes is a zone, under its own name. -/
  names : ∀ name history, c.names.find? name = some history →
    c.zones.find? history.zone = some history
  zones : ∀ zone ∈ c.zones.keys, zone ∈ c.names.keys
  links : ∀ zone ∈ c.links.values, zone ∈ c.zones.keys
  timelines : ∀ zone, c.zones.find? zone = (c.timelines.find? zone).map (·.toHistory zone)

theorem closed_compiled (session : Session) (lastYear : Int) :
    (session.compiled lastYear).Closed where
  names name history h := find?_zones_of_find?_names session lastYear name h
  zones zone hzone := by
    rw [Keyed.mem_keys_iff, ← Keyed.contains_iff] at hzone ⊢
    exact (contains_names_iff session lastYear zone).mpr (Or.inl hzone)
  links zone hzone := by
    obtain ⟨name, hlink⟩ := Keyed.mem_values_iff.mp hzone
    rw [find?_links] at hlink
    split at hlink
    · obtain ⟨history, hname, rfl⟩ := Option.map_eq_some_iff.mp hlink
      rw [Keyed.mem_keys_iff]
      exact ⟨history, find?_zones_of_find?_names session lastYear name hname⟩
    · cases hlink
  timelines zone := by
    rw [find?_compile]
    exact matched_compileZones session lastYear zone

open Watched (planOf)

namespace Compilation.Closed

variable {c : Compilation} (h : c.Closed)
include h

/-- The zones that the index names are those of the compilation. -/
theorem exists_of_mem_values_index {target : String} (htarget : target ∈ c.index.values) :
    ∃ history, c.zones.find? target = some history := by
  obtain ⟨name, hindex⟩ := Keyed.mem_values_iff.mp htarget
  obtain ⟨history, hname, rfl⟩ := exists_of_find?_index hindex
  exact ⟨history, h.names name history hname⟩

theorem mem_zoneWrites {zone : String} {history : History}
    (hzone : c.zones.find? zone = some history) (directory : String) :
    (Path.join directory zone, (ZoneFile.encode history).toOption) ∈
      c.timelines.entries.map (Output.zoneWrite directory) := by
  rw [h.timelines, Option.map_eq_some_iff] at hzone
  obtain ⟨timeline, htimeline, rfl⟩ := hzone
  rw [← Keyed.mem_entries_iff] at htimeline
  exact List.mem_map.mpr ⟨(zone, timeline), htimeline, rfl⟩

/-- Where the whole plan is written, each zone has a file with its history. -/
theorem exists_granted {directory : String} {granted : List (String × List UInt8)}
    (hplan : planOf granted = Output.plan directory c) {zone : String} {history : History}
    (hzone : c.zones.find? zone = some history) :
    ∃ bytes, ZoneFile.encode history = .ok bytes ∧
      (Path.join directory zone, bytes) ∈ granted := by
  have hplanned : (Path.join directory zone, (ZoneFile.encode history).toOption) ∈
      planOf granted := by
    rw [hplan]
    exact List.mem_append_left _ (h.mem_zoneWrites hzone directory)
  obtain ⟨bytes, hbytes, hgranted⟩ := Watched.mem_planOf_iff.mp hplanned
  refine ⟨bytes, ?_, hgranted⟩
  cases hencode : ZoneFile.encode history with
  | error cause =>
    rw [hencode] at hbytes
    cases hbytes
  | ok stored =>
    rw [hencode] at hbytes
    cases hbytes
    rfl

end Compilation.Closed

/-- Every compilation is closed. A run that succeeds writes a file for each zone that its index
names, and one that fails writes no index. -/
theorem compiled_closed {σ : Type} [Disk (StateM σ)] [Journal (StateM σ)] (session : Session)
    (lastYear : Int) (directory : String) (disk : σ) :
    let c := session.compiled lastYear
    let run := (compileInto session lastYear (some directory) :
      StateM (Watched σ) (Except Fault Compilation)) ⟨disk, []⟩
    c.Closed ∧
    (∀ target ∈ c.index.values, target ∈ c.zones.keys) ∧
    (run.1.isOk = true ∧ planOf run.2.granted = Output.plan directory c ∧
        (∀ target ∈ c.index.values, ∃ history bytes, c.zones.find? target = some history ∧
          ZoneFile.encode history = .ok bytes ∧
          (Path.join directory target, bytes) ∈ run.2.granted) ∨
      run.1.isOk = false ∧
        planOf run.2.granted <+: c.timelines.entries.map (Output.zoneWrite directory)) := by
  intro c run
  have hclosed := closed_compiled session lastYear
  refine ⟨hclosed, fun target htarget => ?_, ?_⟩
  · exact Keyed.mem_keys_iff.mpr (hclosed.exists_of_mem_values_index htarget)
  rcases granted_compileInto session lastYear directory disk with ⟨hok, hplan⟩ | hfailed
  · refine Or.inl ⟨hok, hplan, fun target htarget => ?_⟩
    obtain ⟨history, hzone⟩ := hclosed.exists_of_mem_values_index htarget
    obtain ⟨bytes, hfile⟩ := hclosed.exists_granted hplan hzone
    exact ⟨history, bytes, hzone, hfile⟩
  · exact Or.inr hfailed

end ZoneHistory
