import ZoneHistory.Proofs.Compilation
import ZoneHistory.Proofs.Verification

/-!
# The names that accepted zones show

Verification judges a name where the walk steps on to it. The walk begins on the state at the start
of the window, which is not judged, so a zone that is kept shows usable names from its first change
inside the window on, and before it whatever name its timeline gives for the start of the window.
-/
namespace ZoneHistory

namespace History

/-- All names that a history shows in the window are usable. -/
def UsableThroughout (history : History) : Prop :=
  ∀ instant, windowStart ≤ instant → instant ≤ windowEnd →
    isUsableName (history.nameAt instant) = true

namespace Normal

variable {history : History} {zone : String} {instant : Int}

theorem isUsableName_of_verify (h : history.Normal) (hverify : history.verify zone = .ok ())
    {t : Transition} (ht : t ∈ history.transitions) (hstart : windowStart < t.instant)
    (hend : t.instant ≤ windowEnd) : isUsableName t.name = true := by
  obtain ⟨earlier, hmem⟩ :=
    exists_mem_changesFrom history.initial (Array.mem_toList_iff.mpr ht)
  have hin : (earlier, t) ∈ history.windowChanges :=
    List.mem_filter.mpr ⟨hmem, inWindow_iff.mpr ⟨hstart, hend⟩⟩
  rw [verify_eq h.increasing] at hverify
  split at hverify
  · have hfault := verdict_eq_ok_iff.mp hverify _ hin
    exact isUsableName_of_changeFault_eq_none hfault
  · cases hverify

/-- The name that an accepted history shows in the window is usable if the history has changed
there, and is else the one at the start of the window. -/
theorem isUsableName_nameAt_iff (h : history.Normal) (hverify : history.verify zone = .ok ())
    (hstart : windowStart ≤ instant) (hend : instant ≤ windowEnd) :
    isUsableName (history.nameAt instant) = true ↔
      isUsableName (history.nameAt windowStart) = true ∨
        ∃ j, windowStart < j ∧ j ≤ instant ∧ history.ChangesAt j := by
  by_cases hchange : ∃ j, windowStart < j ∧ j ≤ instant ∧ history.ChangesAt j
  · obtain ⟨j, hj, hji, hchanges⟩ := hchange
    obtain ⟨t, ht, hjt, hti, hshown⟩ := h.exists_last_change hji hchanges
    have hname : history.nameAt instant = t.name := congrArg Prod.snd hshown
    have husable := h.isUsableName_of_verify hverify ht (by omega) (by omega)
    rw [hname, husable]
    exact iff_of_true rfl (Or.inr ⟨j, hj, hji, hchanges⟩)
  · have hsame : ∀ j, windowStart < j → j ≤ instant → ¬ history.ChangesAt j :=
      fun j hj hji hchanges => hchange ⟨j, hj, hji, hchanges⟩
    have hname : history.nameAt instant = history.nameAt windowStart :=
      congrArg Prod.snd (shownAt_eq_of_no_change hstart hsame)
    rw [hname, or_iff_left hchange]

theorem usableThroughout_iff (h : history.Normal) (hverify : history.verify zone = .ok ()) :
    history.UsableThroughout ↔ isUsableName (history.nameAt windowStart) = true := by
  constructor
  · intro husable
    exact husable windowStart le_rfl (by decide)
  · intro hname instant hstart hend
    exact (h.isUsableName_nameAt_iff hverify hstart hend).mpr (Or.inl hname)

end Normal

end History

namespace Timeline

theorem nameAt_toHistory (t : Timeline) (zone : String) (instant : Int) :
    ∃ span, lastBegun (t.spans t.expansion) instant = some span ∧
      (t.toHistory zone).nameAt instant = (span.effectAt instant).name := by
  obtain ⟨span, hspan, -⟩ := exists_lastBegun t.inOrder_expansion t instant
  have hshown := shownAt_toHistoryBy t.inOrder_expansion t zone hspan
  exact ⟨span, hspan, congrArg Prod.snd hshown⟩

end Timeline

open History in
/-- A zone that is kept shows a usable name at an instant of the window exactly if it showed one at
the start of the window or has changed inside the window by then. So all its names in the window are
usable exactly if the first one is, which is the one that its timeline gives there. -/
theorem isUsableName_of_kept {session : Session} {lastYear : Int} {name : String}
    {history : History} (h : (compile session lastYear).1.zones.find? name = some history) :
    (∀ instant, windowStart ≤ instant → instant ≤ windowEnd →
      (isUsableName (history.nameAt instant) = true ↔
        isUsableName (history.nameAt windowStart) = true ∨
          ∃ j, windowStart < j ∧ j ≤ instant ∧ history.ChangesAt j)) ∧
    (history.UsableThroughout ↔ isUsableName (history.nameAt windowStart) = true) ∧
    ∃ zone ∈ session.zones, zone.name = name ∧ ∃ timeline,
      zone.timeline session.ruleSets lastYear = .ok timeline ∧
        ∃ span, lastBegun (timeline.spans timeline.expansion) windowStart = some span ∧
          history.nameAt windowStart = (span.effectAt windowStart).name := by
  obtain ⟨zone, hzone, hname, timeline, htimeline, rfl, hverify⟩ := exists_of_find?_compile h
  have hnormal : (timeline.toHistory name).Normal :=
    timeline.toHistoryBy_normal timeline.expansion name
  refine ⟨?_, hnormal.usableThroughout_iff hverify, zone, hzone, hname, timeline, htimeline, ?_⟩
  · intro instant hstart hend
    exact hnormal.isUsableName_nameAt_iff hverify hstart hend
  · exact timeline.nameAt_toHistory name windowStart

/-- A zone with an abbreviation of two letters until 1900. -/
def shortUntil1900 : Session :=
  (Session.empty.readText "<string>" "Zone Test/Zone 0 - AB 1900\n 0 - GMT\n").session

def shortUntil1900History : History :=
  ⟨"Test/Zone", ⟨0, 0, 0, "AB"⟩, #[⟨Calendar.yearStart 1900, 0, 0, "GMT"⟩]⟩

open History in
theorem isUsableName_of_kept_shortUntil1900 :
    (compile shortUntil1900 2100).1.zones.find? "Test/Zone" = some shortUntil1900History ∧
      ¬ shortUntil1900History.UsableThroughout ∧
      ∀ instant, Calendar.yearStart 1900 ≤ instant → instant ≤ windowEnd →
        isUsableName (shortUntil1900History.nameAt instant) = true := by
  have hkept : (compile shortUntil1900 2100).1.zones.find? "Test/Zone" =
      some shortUntil1900History := by decide +kernel
  obtain ⟨hiff, hthroughout, -⟩ := isUsableName_of_kept hkept
  refine ⟨hkept, ?_, ?_⟩
  · rw [hthroughout]
    decide +kernel
  · intro instant hstart hend
    have hwindow : windowStart < Calendar.yearStart 1900 := by decide
    have hchange : shortUntil1900History.ChangesAt (Calendar.yearStart 1900) := by
      rw [ChangesAt]
      decide +kernel
    exact (hiff instant (by omega) hend).mpr (Or.inr ⟨_, hwindow, hstart, hchange⟩)

/-- A zone that has an abbreviation of two letters at all times. -/
def shortForever : Session :=
  (Session.empty.readText "<string>" "Zone Test/Zone 0 - AB\n").session

/-- The start of the window is not judged, and so not all names of the zones that are kept are
usable. -/
theorem shortForever_not_usableThroughout :
    ∃ history, (compile shortForever 2100).1.zones.find? "Test/Zone" = some history ∧
      ¬ history.UsableThroughout := by
  refine ⟨⟨"Test/Zone", ⟨0, 0, 0, "AB"⟩, #[]⟩, by decide +kernel, fun husable => ?_⟩
  have hfirst := husable History.windowStart le_rfl (by decide)
  revert hfirst
  decide +kernel

end ZoneHistory
