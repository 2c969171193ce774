import Mathlib.Data.List.Induction
import Mathlib.Data.List.TakeWhile
import ZoneHistory.Proofs.Layout
import ZoneHistory.Verification

/-!
# The verdict of verification

Verification judges each transition inside the window by the state just before it. The walk forward
meets exactly these transitions, in order, and the walk back steps over them in reverse, so it never
goes astray.
-/
namespace ZoneHistory.History

/-- Each transition is later than the one before it. -/
def Increasing (history : History) : Prop :=
  history.transitions.toList.Pairwise fun a b => a.instant < b.instant

theorem Increasing.ordered {history : History} (h : history.Increasing) : history.Ordered :=
  h.imp fun hab => hab.le

/-- The transitions by an instant and those to come. -/
structure Parted (history : History) (instant : Int) (before after : List Transition) : Prop where
  append_eq : history.transitions.toList = before ++ after
  passed : ∀ t ∈ before, t.instant ≤ instant
  ahead : ∀ t ∈ after, instant < t.instant

theorem parted {history : History} (h : history.Ordered) (instant : Int) :
    history.Parted instant (history.transitions.toList.take (history.position instant))
      (history.transitions.toList.drop (history.position instant)) where
  append_eq := (List.take_append_drop _ _).symm
  passed := by
    intro t ht
    obtain ⟨k, hk, rfl⟩ := List.mem_take_iff_getElem.mp ht
    rw [Array.getElem_toList, ← lt_position_iff h]
    omega
  ahead := by
    intro t ht
    obtain ⟨k, hk, rfl⟩ := List.mem_drop_iff_getElem.mp ht
    rw [Array.length_toList, Nat.add_comm] at hk
    have hiff := lt_position_iff h instant hk
    rw [Array.getElem_toList]
    omega

namespace Parted

variable {history : History} {instant : Int} {before after : List Transition} {t : Transition}

theorem upTo_eq (hp : history.Parted instant before after) : history.upTo instant = before := by
  have hbefore : before.filter (fun t => t.instant ≤ instant) = before := by
    rw [List.filter_eq_self]
    intro t ht
    simpa using hp.passed t ht
  have hafter : after.filter (fun t => t.instant ≤ instant) = [] := by
    rw [List.filter_eq_nil_iff]
    intro t ht
    simpa using hp.ahead t ht
  rw [upTo, hp.append_eq, List.filter_append, hbefore, hafter, List.append_nil]

theorem position_eq (hp : history.Parted instant before after) (h : history.Ordered) :
    history.position instant = before.length := by
  have hle := history.position_le instant
  rw [← hp.upTo_eq, upTo_eq_take h, List.length_take, Array.length_toList]
  omega

theorem stateAt_eq (hp : history.Parted instant before after) (h : history.Ordered) :
    history.stateAt instant = before.getLast?.getD history.initial := by
  rw [History.stateAt_eq h, hp.upTo_eq]

theorem getElem?_position (hp : history.Parted instant before after) (h : history.Ordered) :
    history.transitions[history.position instant]? = after.head? := by
  rw [← Array.getElem?_toList, hp.position_eq h, hp.append_eq,
    List.getElem?_append_right (Nat.le_refl _), Nat.sub_self, List.head?_eq_getElem?]

theorem nextTransition_cons (hp : history.Parted instant before (t :: after))
    (h : history.Ordered) : history.nextTransition instant = t.instant := by
  rw [nextTransition, hp.getElem?_position h]
  rfl

theorem nextTransition_nil (hp : history.Parted instant before []) (h : history.Ordered) :
    history.nextTransition instant = instant := by
  rw [nextTransition, hp.getElem?_position h]
  rfl

theorem previousTransition_concat (hp : history.Parted instant (before ++ [t]) after)
    (h : history.Ordered) : history.previousTransition instant = t.instant - 1 := by
  have hlast : history.transitions[before.length]? = some t := by
    rw [← Array.getElem?_toList, hp.append_eq]
    simp
  rw [previousTransition, hp.position_eq h, List.length_append, List.length_singleton]
  simp only [hlast]

theorem advance (hp : history.Parted instant before (t :: after)) (h : history.Increasing) :
    history.Parted t.instant (before ++ [t]) after where
  append_eq := by rw [hp.append_eq, List.append_assoc, List.singleton_append]
  passed := by
    have hlt := hp.ahead t List.mem_cons_self
    rw [List.forall_mem_append, List.forall_mem_singleton]
    refine ⟨fun e he => ?_, le_rfl⟩
    have hle := hp.passed e he
    omega
  ahead := by
    rw [Increasing, hp.append_eq, List.pairwise_append, List.pairwise_cons] at h
    exact h.2.1.1

theorem retreat (hp : history.Parted instant (before ++ [t]) after) (h : history.Increasing) :
    history.Parted (t.instant - 1) before (t :: after) where
  append_eq := by rw [hp.append_eq, List.append_assoc, List.singleton_append]
  passed := by
    rw [Increasing, hp.append_eq, List.append_assoc, List.pairwise_append] at h
    intro e he
    have hlt := h.2.2 e he t (by simp)
    omega
  ahead := by
    have hle := hp.passed t (by simp)
    rw [List.forall_mem_cons]
    refine ⟨by omega, fun e he => ?_⟩
    have hlt := hp.ahead e he
    omega

end Parted

section Walk

variable {history : History} (h : history.Increasing)

include h

/-- The walk forward meets the transitions to come that are not after the window. -/
theorem stepsFrom_eq {instant : Int} {before met rest : List Transition} {fuel : Nat}
    (hp : history.Parted instant before (met ++ rest))
    (hend : history.Parted windowEnd (before ++ met) rest) (hfuel : met.length ≤ fuel) :
    history.stepsFrom fuel instant = met.map (·.instant) := by
  induction met generalizing instant before fuel with
  | nil =>
    cases fuel with
    | zero => rfl
    | succ fuel =>
      cases rest with
      | nil =>
        rw [stepsFrom, hp.nextTransition_nil h.ordered, if_pos (Or.inl rfl)]
        rfl
      | cons t rest =>
        have hlt := hend.ahead t List.mem_cons_self
        rw [stepsFrom, hp.nextTransition_cons h.ordered, if_pos (Or.inr hlt)]
        rfl
  | cons t met ih =>
    cases fuel with
    | zero => simp at hfuel
    | succ fuel =>
      have hlt := hp.ahead t (by simp)
      have hle := hend.passed t (by simp)
      rw [List.append_cons] at hend
      have hrest := ih (hp.advance h) hend (Nat.le_of_succ_le_succ hfuel)
      rw [stepsFrom, hp.nextTransition_cons h.ordered, if_neg (by omega), List.map_cons, hrest]

/-- The walk back ends one millisecond before each transition that was met. -/
theorem checkBack_eq (zone : String) {instant : Int} {before met rest : List Transition}
    (hp : history.Parted instant (before ++ met) rest) :
    history.checkBack zone (met.map (·.instant)).reverse instant = .ok () := by
  induction met using List.reverseRecOn generalizing instant rest with
  | nil => rfl
  | append_singleton met t ih =>
    rw [← List.append_assoc] at hp
    rw [List.map_append, List.reverse_append, List.map_singleton, List.reverse_singleton,
      List.singleton_append, checkBack, hp.previousTransition_concat h.ordered]
    split
    · rfl
    · rw [if_neg (not_not.mpr rfl)]
      exact ih (hp.retreat h)

end Walk

/-- The transitions with the states just before them. -/
def changesFrom : Transition → List Transition → List (Transition × Transition)
  | _, [] => []
  | before, t :: rest => (before, t) :: changesFrom t rest

theorem changesFrom_append (before : Transition) (earlier later : List Transition) :
    changesFrom before (earlier ++ later) =
      changesFrom before earlier ++ changesFrom (earlier.getLast?.getD before) later := by
  induction earlier generalizing before with
  | nil => rfl
  | cons t earlier ih =>
    rw [List.cons_append, changesFrom, changesFrom, ih, List.getLast?_cons, List.cons_append]
    rfl

theorem mem_of_mem_changesFrom {before : Transition} {ts : List Transition}
    {change : Transition × Transition} (hmem : change ∈ changesFrom before ts) : change.2 ∈ ts := by
  induction ts generalizing before with
  | nil => simp [changesFrom] at hmem
  | cons t ts ih =>
    rw [changesFrom] at hmem
    rcases List.mem_cons.mp hmem with rfl | hmem
    · exact List.mem_cons_self
    · exact List.mem_cons_of_mem _ (ih hmem)

theorem exists_mem_changesFrom {t : Transition} {ts : List Transition} (before : Transition)
    (ht : t ∈ ts) : ∃ earlier, (earlier, t) ∈ changesFrom before ts := by
  induction ts generalizing before with
  | nil => cases ht
  | cons first ts ih =>
    rw [changesFrom]
    rcases List.mem_cons.mp ht with rfl | ht
    · exact ⟨before, List.mem_cons_self⟩
    · obtain ⟨earlier, hmem⟩ := ih first ht
      exact ⟨earlier, List.mem_cons_of_mem _ hmem⟩

theorem look_ne_of_mem_changesFrom {before : Transition} {ts : List Transition}
    {change : Transition × Transition}
    (hvisible : (before :: ts).IsChain fun a b => a.look ≠ b.look)
    (hmem : change ∈ changesFrom before ts) : change.1.look ≠ change.2.look := by
  induction ts generalizing before with
  | nil => simp [changesFrom] at hmem
  | cons t ts ih =>
    rw [List.isChain_cons_cons] at hvisible
    rw [changesFrom] at hmem
    rcases List.mem_cons.mp hmem with rfl | hmem
    · exact hvisible.1
    · exact ih hvisible.2 hmem

/-- Whether an instant is in the window, whose start does not belong to it. -/
def inWindow (instant : Int) : Bool := windowStart < instant && instant ≤ windowEnd

theorem inWindow_iff {instant : Int} :
    inWindow instant = true ↔ windowStart < instant ∧ instant ≤ windowEnd := by
  rw [inWindow, Bool.and_eq_true, decide_eq_true_eq, decide_eq_true_eq]

/-- The transitions inside the window, each with the state just before it. -/
def windowChanges (history : History) : List (Transition × Transition) :=
  (changesFrom history.initial history.transitions.toList).filter fun change =>
    inWindow change.2.instant

/-- What is wrong with a transition, given the state just before it. -/
def changeFault (zone : String) (change : Transition × Transition) : Option VerificationError :=
  if change.1.look = change.2.look then some (.invisible zone change.2.instant)
  else if change.2.name.length < 3 ∧ change.2.name ≠ "??" then
    some (.unusableName zone change.2.instant change.2.name)
  else none

/-- The first of the faults, if there is one. -/
def verdict (zone : String) (changes : List (Transition × Transition)) :
    Except VerificationError Unit :=
  match changes.findSome? (changeFault zone) with
  | some fault => .error fault
  | none => .ok ()

theorem eq_of_changeFault_eq_some {zone : String} {change : Transition × Transition}
    {fault : VerificationError} (h : changeFault zone change = some fault) :
    change.1.look = change.2.look ∧ fault = .invisible zone change.2.instant ∨
      change.1.look ≠ change.2.look ∧
        fault = .unusableName zone change.2.instant change.2.name := by
  rw [changeFault] at h
  split at h
  · next hlook => exact Or.inl ⟨hlook, (Option.some.inj h).symm⟩
  · next hlook =>
    split at h
    · exact Or.inr ⟨hlook, (Option.some.inj h).symm⟩
    · cases h

theorem isUsableName_iff (name : String) :
    isUsableName name = true ↔ ¬ (name.length < 3 ∧ name ≠ "??") := by
  rw [isUsableName, Bool.or_eq_true, decide_eq_true_eq, decide_eq_true_eq, not_and_or, not_lt,
    not_not, or_comm]

theorem isUsableName_of_changeFault_eq_none {zone : String} {change : Transition × Transition}
    (h : changeFault zone change = none) : isUsableName change.2.name = true := by
  rw [changeFault] at h
  split at h
  · cases h
  · split at h
    · cases h
    · next hname => exact (isUsableName_iff _).mpr hname

theorem verdict_eq_error_iff {zone : String} {changes : List (Transition × Transition)}
    {fault : VerificationError} :
    verdict zone changes = .error fault ↔ ∃ earlier change later,
      changes = earlier ++ change :: later ∧ changeFault zone change = some fault ∧
        ∀ c ∈ earlier, changeFault zone c = none := by
  rw [← List.findSome?_eq_some_iff, verdict]
  cases changes.findSome? (changeFault zone) <;> simp

theorem verdict_eq_ok_iff {zone : String} {changes : List (Transition × Transition)} :
    verdict zone changes = .ok () ↔ ∀ change ∈ changes, changeFault zone change = none := by
  rw [← List.findSome?_eq_none_iff, verdict]
  cases changes.findSome? (changeFault zone) <;> simp

theorem lt_of_mem_dropWhile {ts : List Transition} {limit : Int} {t : Transition}
    (hincreasing : ts.Pairwise fun a b => a.instant < b.instant)
    (ht : t ∈ ts.dropWhile fun t => t.instant ≤ limit) : limit < t.instant := by
  induction hincreasing with
  | nil => simp at ht
  | @cons first rest later _ ih =>
    rw [List.dropWhile_cons] at ht
    split at ht
    · exact ih ht
    · next hfirst =>
      simp only [decide_eq_true_eq, not_le] at hfirst
      rcases List.mem_cons.mp ht with rfl | ht
      · exact hfirst
      · exact hfirst.trans (later t ht)

/-- The transitions up to one instant, those from there to another, and those after it. -/
theorem Increasing.exists_between {history : History} (h : history.Increasing) {i j : Int}
    (hij : i ≤ j) : ∃ before met rest, history.Parted i before (met ++ rest) ∧
      history.Parted j (before ++ met) rest := by
  have hp := parted h.ordered i
  generalize history.transitions.toList.take (history.position i) = before at hp
  generalize history.transitions.toList.drop (history.position i) = after at hp
  have hlater : after.Pairwise fun a b => a.instant < b.instant := by
    rw [Increasing, hp.append_eq, List.pairwise_append] at h
    exact h.2.1
  refine ⟨before, after.takeWhile fun t => t.instant ≤ j, after.dropWhile fun t => t.instant ≤ j,
    ?_, ?_, ?_, ?_⟩
  · rwa [List.takeWhile_append_dropWhile]
  · rw [List.append_assoc, List.takeWhile_append_dropWhile, hp.append_eq]
  · rw [List.forall_mem_append]
    constructor
    · intro t ht
      exact (hp.passed t ht).trans hij
    · intro t ht
      simpa using List.mem_takeWhile_imp ht
  · intro t ht
    exact lt_of_mem_dropWhile hlater ht

theorem windowChanges_eq {history : History} {before met rest : List Transition}
    (hp : history.Parted windowStart before (met ++ rest))
    (hend : history.Parted windowEnd (before ++ met) rest) :
    history.windowChanges = changesFrom (before.getLast?.getD history.initial) met := by
  have hbefore : (changesFrom history.initial before).filter
      (fun change => inWindow change.2.instant) = [] := by
    rw [List.filter_eq_nil_iff]
    intro change hchange
    have hle := hp.passed _ (mem_of_mem_changesFrom hchange)
    rw [inWindow_iff]
    omega
  have hmet : (changesFrom (before.getLast?.getD history.initial) met).filter
      (fun change => inWindow change.2.instant) =
      changesFrom (before.getLast?.getD history.initial) met := by
    rw [List.filter_eq_self]
    intro change hchange
    have hmem := mem_of_mem_changesFrom hchange
    have hlt := hp.ahead _ (List.mem_append_left _ hmem)
    have hle := hend.passed _ (List.mem_append_right _ hmem)
    rw [inWindow_iff]
    exact ⟨hlt, hle⟩
  have hrest : ∀ e : Transition, (changesFrom e rest).filter
      (fun change => inWindow change.2.instant) = [] := by
    intro e
    rw [List.filter_eq_nil_iff]
    intro change hchange
    have hlt := hend.ahead _ (mem_of_mem_changesFrom hchange)
    rw [inWindow_iff]
    omega
  rw [windowChanges, hp.append_eq, changesFrom_append, changesFrom_append, List.filter_append,
    List.filter_append, hbefore, hmet, hrest, List.nil_append, List.append_nil]

section Verdict

variable {history : History} (h : history.Increasing)

include h

theorem checkSteps_eq (zone : String) {instant : Int} {before met rest : List Transition}
    (hp : history.Parted instant before (met ++ rest)) :
    history.checkSteps zone (before.getLast?.getD history.initial) (met.map (·.instant)) =
      verdict zone (changesFrom (before.getLast?.getD history.initial) met) := by
  induction met generalizing instant before with
  | nil => rfl
  | cons t met ih =>
    have hnext := hp.advance h
    have hrest := ih hnext
    rw [List.getLast?_concat, Option.getD_some] at hrest
    have hstate : history.stateAt t.instant = t := by
      rw [hnext.stateAt_eq h.ordered, List.getLast?_concat, Option.getD_some]
    rw [List.map_cons, checkSteps, changesFrom, verdict, List.findSome?_cons, hstate, changeFault]
    by_cases hlook : (before.getLast?.getD history.initial).look = t.look
    · rw [if_pos (Transition.looksLike_iff.mpr hlook), if_pos hlook]
    · rw [if_neg fun hlike => hlook (Transition.looksLike_iff.mp hlike), if_neg hlook]
      by_cases hname : t.name.length < 3 ∧ t.name ≠ "??"
      · have hunusable : isUsableName t.name = false := by
          rw [← Bool.not_eq_true, isUsableName_iff, not_not]
          exact hname
        rw [hunusable, if_pos hname]
        rfl
      · rw [(isUsableName_iff t.name).mpr hname, if_neg hname]
        exact hrest

/-- Verification asks for the name first, and then judges the transitions inside the window. -/
theorem verify_eq (zone : String) :
    history.verify zone =
      if zone = history.zone then verdict zone history.windowChanges
      else .error (.otherZone zone history.zone) := by
  by_cases hzone : zone = history.zone
  · have hwindow : windowStart ≤ windowEnd := by decide
    obtain ⟨before, met, rest, hp, hend⟩ := h.exists_between hwindow
    have hfuel : met.length ≤ history.transitions.size := by
      rw [← Array.length_toList, hp.append_eq, List.length_append, List.length_append]
      omega
    have hsteps : history.steps = met.map (·.instant) := stepsFrom_eq h hp hend hfuel
    rw [verify, if_neg (not_not.mpr hzone), if_pos hzone]
    dsimp only
    rw [hsteps, hp.stateAt_eq h.ordered, checkSteps_eq h zone hp, checkBack_eq h zone hend,
      windowChanges_eq hp hend]
    cases verdict zone (changesFrom (before.getLast?.getD history.initial) met) <;> rfl
  · rw [verify, if_pos hzone, if_neg hzone]
    rfl

end Verdict

theorem toHistory_zone (t : Timeline) (zone : String) : (t.toHistory zone).zone = zone := rfl

/-- What a timeline gives is at most refused for an unusable name inside the window. -/
theorem exists_of_verify_toHistory {t : Timeline} {zone : String} {fault : VerificationError}
    (h : (t.toHistory zone).verify zone = .error fault) :
    ∃ instant name, fault = .unusableName zone instant name ∧
      windowStart < instant ∧ instant ≤ windowEnd := by
  have hnormal : (t.toHistory zone).Normal := t.toHistoryBy_normal t.expansion zone
  rw [verify_eq hnormal.increasing zone, toHistory_zone, if_pos rfl] at h
  obtain ⟨earlier, change, later, hchanges, hfault, -⟩ := verdict_eq_error_iff.mp h
  have hmem : change ∈ (t.toHistory zone).windowChanges := by
    rw [hchanges]
    exact List.mem_append_right _ List.mem_cons_self
  obtain ⟨hmem, hwindow⟩ := List.mem_filter.mp hmem
  have hlook := look_ne_of_mem_changesFrom hnormal.visible hmem
  rcases eq_of_changeFault_eq_some hfault with ⟨hsame, -⟩ | ⟨-, rfl⟩
  · exact absurd hsame hlook
  · exact ⟨_, _, rfl, inWindow_iff.mp hwindow⟩

theorem verify_toHistory (t : Timeline) (zone : String) :
    (t.toHistory zone).verify zone = .ok () ∨
      ∃ instant name,
        (t.toHistory zone).verify zone = .error (.unusableName zone instant name) := by
  cases hverify : (t.toHistory zone).verify zone with
  | ok _ => exact Or.inl rfl
  | error fault =>
    obtain ⟨instant, name, rfl, -⟩ := exists_of_verify_toHistory hverify
    exact Or.inr ⟨instant, name, rfl⟩

/-- The verdict on a history whose transitions stand in order of time. It is refused if it reports
another name, else for the first transition inside the window that is invisible or has an unusable
name, and accepted if there is none; the walk back never goes astray. What a timeline gives is at
most refused for an unusable name. -/
theorem verify_iff_windowChanges :
    (∀ (history : History) (zone : String), history.Increasing →
      (history.verify zone = .error (.otherZone zone history.zone) ↔ zone ≠ history.zone) ∧
      (zone = history.zone →
        (∀ fault, history.verify zone = .error fault ↔ ∃ earlier change later,
          history.windowChanges = earlier ++ change :: later ∧
            changeFault zone change = some fault ∧ ∀ c ∈ earlier, changeFault zone c = none) ∧
        (history.verify zone = .ok () ↔
          ∀ change ∈ history.windowChanges, changeFault zone change = none)) ∧
      ∀ asked reached expected,
        history.verify zone ≠ .error (.strayStep asked reached expected)) ∧
    ∀ (t : Timeline) (zone : String),
      (t.toHistory zone).verify zone = .ok () ∨
        ∃ instant name,
          (t.toHistory zone).verify zone = .error (.unusableName zone instant name) := by
  refine ⟨fun history zone h => ?_, verify_toHistory⟩
  have hverify := verify_eq h zone
  by_cases hzone : zone = history.zone
  · rw [if_pos hzone] at hverify
    have hkind : ∀ fault, history.verify zone = .error fault →
        (∃ i, fault = .invisible zone i) ∨ ∃ i name, fault = .unusableName zone i name := by
      intro fault hfault
      rw [hverify] at hfault
      obtain ⟨_, _, _, -, hchange, -⟩ := verdict_eq_error_iff.mp hfault
      rcases eq_of_changeFault_eq_some hchange with ⟨-, rfl⟩ | ⟨-, rfl⟩
      · exact Or.inl ⟨_, rfl⟩
      · exact Or.inr ⟨_, _, rfl⟩
    refine ⟨⟨fun hother => ?_, fun hne => absurd hzone hne⟩, fun _ => ⟨fun fault => ?_, ?_⟩, ?_⟩
    · rcases hkind _ hother with ⟨_, hfault⟩ | ⟨_, _, hfault⟩ <;> cases hfault
    · rw [hverify, verdict_eq_error_iff]
    · rw [hverify, verdict_eq_ok_iff]
    · intro asked reached expected hstray
      rcases hkind _ hstray with ⟨_, hfault⟩ | ⟨_, _, hfault⟩ <;> cases hfault
  · rw [if_neg hzone] at hverify
    refine ⟨⟨fun _ => hzone, fun _ => hverify⟩, fun heq => absurd heq hzone, ?_⟩
    intro asked reached expected hstray
    rw [hverify] at hstray
    cases hstray

/-- Transitions at both ends of the window and one millisecond inside and beyond it. -/
def edges : History where
  zone := "Test/Edges"
  initial := ⟨0, 0, 0, "GMT"⟩
  transitions := #[⟨windowStart, 0, 0, "A"⟩, ⟨windowStart + 1, 3600000, 0, "BST"⟩,
    ⟨windowEnd, 0, 0, "X"⟩, ⟨windowEnd + 1, 0, 0, "Y"⟩]

theorem verify_edges :
    edges.Increasing ∧
      edges.verify "Test/Edges" = .error (.unusableName "Test/Edges" windowEnd "X") := by
  have h : edges.Increasing := by
    rw [Increasing]
    decide
  refine ⟨h, ((verify_iff_windowChanges.1 edges "Test/Edges" h).2.1 rfl).1 _ |>.mpr ?_⟩
  exact ⟨[(⟨windowStart, 0, 0, "A"⟩, ⟨windowStart + 1, 3600000, 0, "BST"⟩)],
    (⟨windowStart + 1, 3600000, 0, "BST"⟩, ⟨windowEnd, 0, 0, "X"⟩), [], by decide, by decide,
    by decide⟩

end ZoneHistory.History
