import ZoneHistory.Proofs.Lookup
import ZoneHistory.Timeline

/-!
# Transitions laid over one another

Adding a transition discards those at or after its instant, and nothing is added that would not
show. Whatever is added in whatever order, the transitions that remain stand in order and each
shows; and at every instant they show what was added last of all that is not after it.
-/
namespace ZoneHistory

/-- Transitions, latest first, each of which is later than all before it and shows. -/
inductive Laid (initial : Transition) : List Transition → Prop
  | nil : Laid initial []
  | cons {laid : List Transition} {t : Transition} (earlier : Laid initial laid)
      (later : ∀ e ∈ laid, e.instant < t.instant) (visible : (laid.headD initial).look ≠ t.look) :
      Laid initial (t :: laid)

namespace Laid

variable {initial : Transition} {laid : List Transition}

theorem dropWhile (h : Laid initial laid) (p : Transition → Bool) :
    Laid initial (laid.dropWhile p) := by
  induction h with
  | nil => exact nil
  | @cons laid t earlier later visible ih =>
    rw [List.dropWhile_cons]
    split
    · exact ih
    · exact cons earlier later visible

theorem instant_lt (h : Laid initial laid) {instant : Int} {e : Transition}
    (he : e ∈ laid.dropWhile fun e => instant ≤ e.instant) : e.instant < instant := by
  induction h with
  | nil => simp at he
  | @cons laid t earlier later visible ih =>
    rw [List.dropWhile_cons] at he
    split at he
    · exact ih he
    · next hlt =>
      simp only [decide_eq_true_eq, not_le] at hlt
      rcases List.mem_cons.mp he with rfl | he
      · exact hlt
      · exact (later e he).trans hlt

theorem push (h : Laid initial laid) (t : Transition) :
    Laid initial (pushTransition initial laid t) := by
  unfold pushTransition
  dsimp only
  split
  · exact h.dropWhile _
  · next hlook =>
    refine cons (h.dropWhile _) (fun e he => h.instant_lt he) fun he => hlook ?_
    exact Transition.looksLike_iff.mpr he.symm

theorem mem_push (h : Laid initial laid) {t e : Transition}
    (he : e ∈ pushTransition initial laid t) : e = t ∨ e ∈ laid ∧ e.instant < t.instant := by
  have hkept : ∀ e ∈ laid.dropWhile (fun e => t.instant ≤ e.instant),
      e ∈ laid ∧ e.instant < t.instant :=
    fun e he => ⟨(List.dropWhile_sublist _).subset he, h.instant_lt he⟩
  unfold pushTransition at he
  dsimp only at he
  split at he
  · exact Or.inr (hkept e he)
  · rcases List.mem_cons.mp he with rfl | he
    · exact Or.inl rfl
    · exact Or.inr (hkept e he)

theorem descending (h : Laid initial laid) :
    laid.Pairwise fun later earlier => earlier.instant < later.instant := by
  induction h with
  | nil => exact List.Pairwise.nil
  | cons earlier later visible ih => exact List.Pairwise.cons later ih

theorem isChain (h : Laid initial laid) :
    (laid ++ [initial]).IsChain fun later earlier => earlier.look ≠ later.look := by
  induction h with
  | nil => simp
  | @cons laid t earlier later visible ih =>
    rw [List.cons_append, List.isChain_cons]
    refine ⟨?_, ih⟩
    cases laid <;> simpa using visible

theorem normal (h : Laid initial laid) (zone : String) :
    History.Normal ⟨zone, initial, laid.reverse.toArray⟩ where
  increasing := by simpa [List.pairwise_reverse] using h.descending
  visible := by
    have hchain := List.isChain_reverse.mpr h.isChain
    simpa using hchain

end Laid

/-- The state that transitions, latest first, give an instant. -/
def stateIn (initial : Transition) (laid : List Transition) (instant : Int) : Transition :=
  (laid.find? fun e => e.instant ≤ instant).getD initial

theorem Laid.stateAt_eq {initial : Transition} {laid : List Transition} (h : Laid initial laid)
    (zone : String) (instant : Int) :
    History.stateAt ⟨zone, initial, laid.reverse.toArray⟩ instant =
      stateIn initial laid instant := by
  rw [History.stateAt_eq (h.normal zone).ordered]
  simp [History.upTo, stateIn]

theorem find?_dropWhile {α : Type} {p q : α → Bool} (l : List α)
    (h : ∀ a, p a = true → q a = false) : (l.dropWhile p).find? q = l.find? q := by
  induction l with
  | nil => rfl
  | cons a l ih =>
    rw [List.dropWhile_cons]
    split
    · next hp => rw [ih, List.find?_cons_of_neg (by simp [h a hp])]
    · rfl

/-- A transition shows from its instant on, whether it had to be added or not, and nothing changes
before. -/
theorem look_pushTransition (initial : Transition) (laid : List Transition) (t : Transition)
    (instant : Int) :
    (stateIn initial (pushTransition initial laid t) instant).look =
      if t.instant ≤ instant then t.look else (stateIn initial laid instant).look := by
  unfold pushTransition
  dsimp only
  by_cases ht : t.instant ≤ instant
  · rw [if_pos ht]
    split
    · next hlook =>
      rw [Transition.looksLike_iff.mp hlook, stateIn]
      cases hkept : laid.dropWhile fun e => t.instant ≤ e.instant with
      | nil => simp
      | cons e rest =>
        have hlt := List.head?_dropWhile_not (fun e => decide (t.instant ≤ e.instant)) laid
        rw [hkept] at hlt
        simp only [List.head?_cons, decide_eq_false_iff_not, not_le] at hlt
        rw [List.find?_cons_of_pos (by simp; omega)]
        simp
    · rw [stateIn, List.find?_cons_of_pos (by simpa using ht)]
      simp
  · rw [if_neg ht]
    have hkept : (laid.dropWhile fun e => t.instant ≤ e.instant).find?
        (fun e => e.instant ≤ instant) = laid.find? fun e => e.instant ≤ instant := by
      refine find?_dropWhile laid fun e he => ?_
      simp only [decide_eq_true_eq, decide_eq_false_iff_not] at he ⊢
      omega
    split
    · rw [stateIn, hkept, stateIn]
    · rw [stateIn, List.find?_cons_of_neg (by simpa using ht), hkept, stateIn]

/-- The transitions that remain, latest first, of those added one after the other. -/
def overlay (initial : Transition) (added : List Transition) : List Transition :=
  added.foldl (pushTransition initial) []

theorem overlay_concat (initial : Transition) (added : List Transition) (t : Transition) :
    overlay initial (added ++ [t]) = pushTransition initial (overlay initial added) t := by
  simp [overlay]

theorem laid_overlay (initial : Transition) (added : List Transition) :
    Laid initial (overlay initial added) := by
  induction added using List.reverseRecOn with
  | nil => exact Laid.nil
  | append_singleton added t ih =>
    rw [overlay_concat]
    exact ih.push t

def lastAdded (added : List Transition) (instant : Int) : Option Transition :=
  (added.filter fun t => t.instant ≤ instant).getLast?

theorem lastAdded_concat (added : List Transition) (t : Transition) (instant : Int) :
    lastAdded (added ++ [t]) instant =
      if t.instant ≤ instant then some t else lastAdded added instant := by
  unfold lastAdded
  split
  · next ht => simp [ht]
  · next ht => simp [ht]

theorem lastAdded_append (earlier later : List Transition) (instant : Int) :
    lastAdded (earlier ++ later) instant =
      (lastAdded later instant).or (lastAdded earlier instant) := by
  simp only [lastAdded, List.filter_append, List.getLast?_append]

/-- What was added last shows. -/
theorem look_overlay (initial : Transition) (added : List Transition) (instant : Int) :
    (stateIn initial (overlay initial added) instant).look =
      ((lastAdded added instant).getD initial).look := by
  induction added using List.reverseRecOn with
  | nil => rfl
  | append_singleton added t ih =>
    rw [overlay_concat, look_pushTransition, lastAdded_concat]
    split
    · rfl
    · exact ih

theorem lastAdded_of_mem_overlay {initial : Transition} {added : List Transition}
    {e : Transition} (he : e ∈ overlay initial added) : lastAdded added e.instant = some e := by
  induction added using List.reverseRecOn with
  | nil => simp [overlay] at he
  | append_singleton added t ih =>
    rw [overlay_concat] at he
    rw [lastAdded_concat]
    rcases (laid_overlay initial added).mem_push he with rfl | ⟨he, hlt⟩
    · rw [if_pos le_rfl]
    · rw [if_neg (by omega), ih he]

theorem lastAdded_reverse (laid : List Transition) (initial : Transition) (instant : Int) :
    (lastAdded laid.reverse instant).getD initial = stateIn initial laid instant := by
  simp [lastAdded, stateIn]

/-- Last write wins: at every instant, the transitions that remain show what was added last of all
that is not after it, although what was added last may be among those that do not remain. A lookup
in the history they make shows the same. -/
theorem overlay_last_wins (initial : Transition) (added : List Transition) (zone : String)
    (instant : Int) :
    let remaining := (overlay initial added).reverse
    let history : History := ⟨zone, initial, remaining.toArray⟩
    history.Normal ∧
      ((lastAdded remaining instant).getD initial).look =
        ((lastAdded added instant).getD initial).look ∧
      history.shownAt instant = ((lastAdded added instant).getD initial).look := by
  intro remaining history
  have hlaid := laid_overlay initial added
  have hlast := look_overlay initial added instant
  have hshown : history.shownAt instant =
      (stateIn initial (overlay initial added) instant).look := by
    rw [History.shownAt_eq_look, hlaid.stateAt_eq]
  have hremaining : (lastAdded remaining instant).getD initial =
      stateIn initial (overlay initial added) instant := lastAdded_reverse _ _ _
  exact ⟨hlaid.normal zone, hremaining ▸ hlast, hshown.trans hlast⟩

theorem mem_of_mem_overlay {initial : Transition} {added : List Transition} {e : Transition}
    (he : e ∈ overlay initial added) : e ∈ added :=
  (List.mem_filter.mp (List.mem_of_getLast? (lastAdded_of_mem_overlay he))).1

theorem length_overlay_le (initial : Transition) (added : List Transition) :
    (overlay initial added).length ≤ added.length := by
  induction added using List.reverseRecOn with
  | nil => exact le_rfl
  | append_singleton added t ih =>
    have hkept := (List.dropWhile_sublist (l := overlay initial added)
      fun e => decide (t.instant ≤ e.instant)).length_le
    rw [overlay_concat, pushTransition, List.length_append, List.length_singleton]
    split
    · omega
    · rw [List.length_cons]
      omega

/-! ## The transitions before a limit -/

section Limit

variable {initial : Transition} {laid : List Transition} {limit : Int}

theorem filter_dropWhile_of_le (laid : List Transition) {instant : Int} (h : limit ≤ instant) :
    (laid.dropWhile fun e => instant ≤ e.instant).filter (fun e => e.instant < limit) =
      laid.filter fun e => e.instant < limit := by
  induction laid with
  | nil => rfl
  | cons e rest ih =>
    by_cases he : instant ≤ e.instant
    · rw [List.dropWhile_cons_of_pos (by simpa using he), ih,
        List.filter_cons_of_neg (by simp; omega)]
    · rw [List.dropWhile_cons_of_neg (by simpa using he)]

theorem Laid.dropWhile_filter (h : Laid initial laid) {instant : Int} (hlt : instant < limit) :
    (laid.filter fun e => e.instant < limit).dropWhile (fun e => instant ≤ e.instant) =
      laid.dropWhile fun e => instant ≤ e.instant := by
  induction h with
  | nil => rfl
  | @cons laid t earlier later visible ih =>
    by_cases ht : t.instant < limit
    · have hall : (t :: laid).filter (fun e => e.instant < limit) = t :: laid := by
        rw [List.filter_eq_self, List.forall_mem_cons]
        exact ⟨decide_eq_true ht, fun e he => decide_eq_true ((later e he).trans ht)⟩
      rw [hall]
    · rw [List.filter_cons_of_neg (by simpa using ht), ih,
        List.dropWhile_cons_of_pos (by simp; omega)]

/-- What is added from a limit on leaves no trace before it. -/
theorem Laid.filter_push (h : Laid initial laid) (t : Transition) :
    (pushTransition initial laid t).filter (fun e => e.instant < limit) =
      if t.instant < limit then
        pushTransition initial (laid.filter fun e => e.instant < limit) t
      else laid.filter fun e => e.instant < limit := by
  by_cases ht : t.instant < limit
  · have hkept : (laid.dropWhile fun e => t.instant ≤ e.instant).filter
        (fun e => e.instant < limit) = laid.dropWhile fun e => t.instant ≤ e.instant := by
      rw [List.filter_eq_self]
      exact fun e he => decide_eq_true ((h.instant_lt he).trans ht)
    rw [if_pos ht, pushTransition, pushTransition, h.dropWhile_filter ht]
    split
    · exact hkept
    · rw [List.filter_cons_of_pos (by simpa using ht), hkept]
  · have hkept := filter_dropWhile_of_le laid (Int.not_lt.mp ht)
    rw [if_neg ht, pushTransition]
    split
    · exact hkept
    · rw [List.filter_cons_of_neg (by simpa using ht), hkept]

/-- The transitions before a limit are those that remain of what is added before it. -/
theorem filter_overlay (initial : Transition) (added : List Transition) (limit : Int) :
    (overlay initial added).filter (fun e => e.instant < limit) =
      overlay initial (added.filter fun e => e.instant < limit) := by
  induction added using List.reverseRecOn with
  | nil => rfl
  | append_singleton added t ih =>
    rw [overlay_concat, (laid_overlay initial added).filter_push, ih, List.filter_append]
    by_cases ht : t.instant < limit
    · rw [if_pos ht, List.filter_cons_of_pos (by simpa using ht), List.filter_nil, overlay_concat]
    · rw [if_neg ht, List.filter_cons_of_neg (by simpa using ht), List.filter_nil, List.append_nil]

end Limit

end ZoneHistory
