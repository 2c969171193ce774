import ZoneHistory.Proofs.Layout

/-!
# The standard offset of a history

A transition that does not show is left out, and the standard offset that it carries with it. So the
standard offset that a history gives is that of the period which was in force when the zone last
came to show something else: one that trades standard offset against savings leaves it as it was.
-/
namespace ZoneHistory

namespace History

/-- The last instant by the given one at which what is shown changes, if there is one. -/
def LastChange (history : History) (instant : Int) : Option Int → Prop
  | some change => IsGreatest { j | j ≤ instant ∧ history.ChangesAt j } change
  | none => ∀ j, j ≤ instant → ¬ history.ChangesAt j

namespace Normal

variable {history : History} (h : history.Normal)
include h

theorem exists_lastChange (instant : Int) : ∃ change, history.LastChange instant change := by
  rcases h.previousTransition_greatest instant with hgreatest | ⟨-, hnone⟩
  · exact ⟨some _, hgreatest⟩
  · exact ⟨none, hnone⟩

/-- The state at an instant is the one to which the history changed last. -/
theorem stateAt_of_lastChange {instant : Int} {change : Option Int}
    (hchange : history.LastChange instant change) :
    history.stateAt instant = change.elim history.initial history.stateAt := by
  have hchanges : ∀ t ∈ history.transitions.toList, history.ChangesAt t.instant := fun t ht =>
    (h.changesAt_iff _).mpr ⟨t, Array.mem_toList_iff.mp ht, rfl⟩
  cases change with
  | none =>
    have hupTo : history.upTo instant = [] := by
      rw [upTo, List.filter_eq_nil_iff]
      exact fun t ht hle => hchange _ (of_decide_eq_true hle) (hchanges t ht)
    rw [stateAt_eq h.ordered, hupTo]
    rfl
  | some change =>
    obtain ⟨⟨hle, -⟩, hlast⟩ := hchange
    have hupTo : history.upTo instant = history.upTo change := by
      refine List.filter_congr fun t ht => ?_
      rw [decide_eq_decide]
      exact ⟨fun ht' => hlast ⟨ht', hchanges t ht⟩, fun ht' => ht'.trans hle⟩
    rw [Option.elim_some, stateAt_eq h.ordered, hupTo, ← stateAt_eq h.ordered]

end Normal

end History

/-- The effect that a period has at an instant, or had from the start. -/
def Span.effectSince (span : Span) : Option Int → Effect
  | some instant => span.effectAt instant
  | none => span.opening

namespace Timeline

/-- The last period that has started by an instant, or the first of all. -/
def inForce (t : Timeline) : Option Int → Option Span
  | some instant => lastBegun (t.spans t.expansion) instant
  | none => (t.spans t.expansion).head?

theorem exists_head_spans (t : Timeline) (expand : Expansion) :
    ∃ span, (t.spans expand).head? = some span ∧
      initialState expand t.periods = span.period.transition 0 span.opening := by
  rw [spans, periods_eq]
  cases t.closed with
  | nil => exact ⟨_, rfl, rfl⟩
  | cons head rest => exact ⟨_, rfl, rfl⟩

/-- What a history last changed to is the state of the period in force at that change. -/
theorem exists_inForce (t : Timeline) (zone : String) {instant : Int} {change : Option Int}
    (hchange : (t.toHistory zone).LastChange instant change) :
    ∃ span moment, t.inForce change = some span ∧
      (t.toHistory zone).stateAt instant =
        span.period.transition moment (span.effectSince change) := by
  have hnormal : (t.toHistory zone).Normal := t.toHistoryBy_normal t.expansion zone
  have hstate := hnormal.stateAt_of_lastChange hchange
  cases change with
  | none =>
    obtain ⟨span, hspan, hinitial⟩ := t.exists_head_spans t.expansion
    exact ⟨span, 0, hspan, hstate.trans hinitial⟩
  | some change =>
    obtain ⟨span, hspan, -⟩ := exists_lastBegun t.inOrder_expansion t change
    have hat := stateAt_of_changesAt t.inOrder_expansion t zone hspan hchange.1.2
    exact ⟨span, change, hspan, hstate.trans hat⟩

/-- The standard offset at an instant is that of the period in force at the last change of what the
zone shows. The period in force at the instant itself shows the same; so its standard offset is
given exactly if its savings are those at that change. -/
theorem standardOffsetAt_toHistory (t : Timeline) (zone : String) (instant : Int) :
    ∃ change span current, (t.toHistory zone).LastChange instant change ∧
      t.inForce change = some span ∧ t.inForce (some instant) = some current ∧
      (t.toHistory zone).standardOffsetAt instant = span.period.standardOffset ∧
      span.period.standardOffset + (span.effectSince change).save =
        current.period.standardOffset + (current.effectAt instant).save ∧
      (span.effectSince change).name = (current.effectAt instant).name ∧
      ((t.toHistory zone).standardOffsetAt instant = current.period.standardOffset ↔
        (span.effectSince change).save = (current.effectAt instant).save) := by
  have hnormal : (t.toHistory zone).Normal := t.toHistoryBy_normal t.expansion zone
  obtain ⟨change, hchange⟩ := hnormal.exists_lastChange instant
  obtain ⟨span, moment, hspan, hstate⟩ := t.exists_inForce zone hchange
  obtain ⟨current, hcurrent, -⟩ := exists_lastBegun t.inOrder_expansion t instant
  have hstandard : (t.toHistory zone).standardOffsetAt instant = span.period.standardOffset := by
    rw [History.standardOffsetAt, hstate]
    rfl
  have hshown := shownAt_toHistoryBy t.inOrder_expansion t zone hcurrent
  change (t.toHistory zone).shownAt instant = _ at hshown
  rw [History.shownAt_eq_look, hstate] at hshown
  obtain ⟨hoffset, hname⟩ := Prod.mk.inj hshown
  have hwall : span.period.standardOffset + (span.effectSince change).save =
      current.period.standardOffset + (current.effectAt instant).save := hoffset
  exact ⟨change, span, current, hchange, hspan, hcurrent, hstandard, hwall, hname, by omega⟩

/-- Summer time all year until 2000, and from then on the same clock as standard time. -/
def savingsMadeStandard : Timeline :=
  build defaultLastYear
    [.setFixedSavings ⟨"XST", 3600000⟩,
      .addCutover ⟨2000, ⟨1, 1, 0, false, 0, .universal⟩⟩,
      .setStandardOffset 3600000, .setFixedSavings ⟨"XST", 0⟩]

/-- In 2001 the standard offset is still that of the first period. -/
theorem savingsMadeStandard_standardOffsetAt :
    ((lastBegun (savingsMadeStandard.spans savingsMadeStandard.expansion) 978307200000).map
        fun span => span.period.standardOffset) = some 3600000 ∧
      (savingsMadeStandard.toHistory "Test/Zone").standardOffsetAt 978307200000 = 0 := by
  decide +kernel

end Timeline

end ZoneHistory
