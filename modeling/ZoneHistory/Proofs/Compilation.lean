import Mathlib.Data.List.Induction
import ZoneHistory.Compilation
import ZoneHistory.Proofs.Keyed

/-!
# The zones that are kept

Each zone is compiled on its own, so what a compilation keeps under a name is the history of the
last zone of that name that is accepted.
-/
namespace ZoneHistory

theorem Zone.compile_eq_ok_iff {zone : Zone} {ruleSets : Keyed RuleSet} {lastYear : Int}
    {timeline : Timeline} {history : History} :
    zone.compile ruleSets lastYear = .ok (timeline, history) ↔
      zone.timeline ruleSets lastYear = .ok timeline ∧ history = timeline.toHistory zone.name ∧
        history.verify zone.name = .ok () := by
  rw [compile]
  cases zone.timeline ruleSets lastYear with
  | error cause => simp [Except.mapError, bind, Except.bind]
  | ok found =>
    simp only [Except.mapError, bind, Except.bind, Except.ok.injEq]
    cases hverify : (found.toHistory zone.name).verify zone.name with
    | error cause =>
      constructor
      · intro h
        cases h
      · rintro ⟨rfl, rfl, hok⟩
        rw [hverify] at hok
        cases hok
    | ok _ =>
      simp only [pure, Except.pure, Except.ok.injEq, Prod.mk.injEq]
      constructor
      · rintro ⟨rfl, rfl⟩
        exact ⟨rfl, rfl, hverify⟩
      · rintro ⟨rfl, rfl, -⟩
        exact ⟨rfl, rfl⟩

/-- The history of a zone, if it is accepted. -/
def Zone.accepted? (ruleSets : Keyed RuleSet) (lastYear : Int) (zone : Zone) : Option History :=
  (zone.compile ruleSets lastYear).toOption.map (·.2)

theorem Zone.accepted?_eq_some_iff {zone : Zone} {ruleSets : Keyed RuleSet} {lastYear : Int}
    {history : History} :
    zone.accepted? ruleSets lastYear = some history ↔ ∃ timeline,
      zone.timeline ruleSets lastYear = .ok timeline ∧ history = timeline.toHistory zone.name ∧
        history.verify zone.name = .ok () := by
  rw [accepted?]
  constructor
  · intro h
    obtain ⟨⟨timeline, found⟩, hcompile, rfl⟩ := Option.map_eq_some_iff.mp h
    refine ⟨timeline, compile_eq_ok_iff.mp ?_⟩
    cases hresult : zone.compile ruleSets lastYear with
    | error fault =>
      rw [hresult] at hcompile
      cases hcompile
    | ok result =>
      rw [hresult] at hcompile
      cases hcompile
      rfl
  · rintro ⟨timeline, htimeline⟩
    rw [compile_eq_ok_iff.mpr htimeline]
    rfl

theorem ZoneTable.find?_add (ruleSets : Keyed RuleSet) (lastYear : Int) (table : ZoneTable)
    (zone : Zone) (name : String) :
    (table.add ruleSets lastYear zone).histories.find? name =
      (if zone.name = name then zone.accepted? ruleSets lastYear else none).or
        (table.histories.find? name) := by
  rw [add, Zone.accepted?]
  cases hcompile : zone.compile ruleSets lastYear with
  | error fault => simp [noting, Except.toOption]
  | ok result =>
    obtain ⟨timeline, history⟩ := result
    simp only [noting, Keyed.find?_put, Except.toOption, Option.map_some]
    by_cases hname : zone.name = name
    · rw [if_pos hname.symm, if_pos hname, Option.some_or]
    · rw [if_neg (Ne.symm hname), if_neg hname, Option.none_or]

/-- One more member at the end decides the last value, if it counts and has one. -/
theorem getLast?_filterMap_concat {α β : Type} (counts : α → Prop) [DecidablePred counts]
    (value? : α → Option β) (members : List α) (last : α) :
    (((members ++ [last]).filter counts).filterMap value?).getLast? =
      (if counts last then value? last else none).or
        ((members.filter counts).filterMap value?).getLast? := by
  rw [List.filter_append, List.filterMap_append, List.getLast?_append]
  congr 1
  by_cases hcounts : counts last
  · rw [if_pos hcounts, List.filter_cons_of_pos (by simpa using hcounts), List.filter_nil,
      List.filterMap_cons, List.filterMap_nil]
    cases value? last <;> rfl
  · rw [if_neg hcounts, List.filter_cons_of_neg (by simpa using hcounts)]
    rfl

/-- Under a name stands the last zone of that name that is accepted. -/
theorem find?_compileZones (session : Session) (lastYear : Int) (name : String) :
    (compileZones session lastYear).histories.find? name =
      ((session.zones.filter (·.name = name)).filterMap
        (·.accepted? session.ruleSets lastYear)).getLast? := by
  rw [compileZones]
  induction session.zones using List.reverseRecOn with
  | nil => rfl
  | append_singleton zones zone ih =>
    rw [List.foldl_concat, ZoneTable.find?_add, ih, getLast?_filterMap_concat]

theorem find?_compile (session : Session) (lastYear : Int) (name : String) :
    (compile session lastYear).1.zones.find? name =
      (compileZones session lastYear).histories.find? name :=
  Keyed.find?_sorted _ name

/-- What is kept under a name is the history of a timeline of the session and was accepted. -/
theorem exists_of_find?_compile {session : Session} {lastYear : Int} {name : String}
    {history : History} (h : (compile session lastYear).1.zones.find? name = some history) :
    ∃ zone ∈ session.zones, zone.name = name ∧ ∃ timeline,
      zone.timeline session.ruleSets lastYear = .ok timeline ∧
        history = timeline.toHistory name ∧ history.verify name = .ok () := by
  rw [find?_compile, find?_compileZones] at h
  obtain ⟨zone, hzone, haccepted⟩ := List.mem_filterMap.mp (List.mem_of_getLast? h)
  obtain ⟨hmem, hname⟩ := List.mem_filter.mp hzone
  obtain rfl : zone.name = name := by simpa using hname
  exact ⟨zone, hmem, rfl, Zone.accepted?_eq_some_iff.mp haccepted⟩

end ZoneHistory
