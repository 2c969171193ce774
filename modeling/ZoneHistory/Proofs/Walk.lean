import Mathlib.Data.Set.Card
import ZoneHistory.Proofs.Lookup.Scan
import ZoneHistory.Proofs.Verification

/-!
# The walk of verification

Verification steps from transition to transition until no later one lies inside the window, and then
back. A history that was read from a file may hold its transitions in any order, some of them more
than once. Still a step leads to a later instant of a transition, or nowhere; so the walk ends by
itself, after at most one round for each of the different instants, and there always is a verdict.
-/
namespace ZoneHistory

/-- The instants that a failure tells of. -/
def VerificationError.instants : VerificationError → List Int
  | otherZone _ _ => []
  | invisible _ instant => [instant]
  | unusableName _ instant _ => [instant]
  | strayStep _ reached expected => [reached, expected]

namespace History

section Bisection

variable (transitions : Array Transition) (instant : Int) (lo hi : Nat)
  (bound : hi ≤ transitions.size)

/-- Wherever bisection moves the end of its range, the transition there is later than the instant:
this needs no order of the transitions. -/
theorem lt_of_getElem?_bisectFrom (hle : lo ≤ hi)
    (above : ∀ t, transitions[hi]? = some t → instant < t.instant) {t : Transition}
    (ht : transitions[bisectFrom transitions instant lo hi bound]? = some t) :
    instant < t.instant := by
  fun_induction bisectFrom transitions instant lo hi bound with
  | case1 lo hi bound hlt inside hleft ih =>
    apply ih (by omega) _ ht
    intro middle hmiddle
    simp only [Array.getElem?_eq_getElem inside, Option.some.injEq] at hmiddle
    rwa [← hmiddle]
  | case2 lo hi bound hlt inside hright ih => exact ih (by omega) above ht
  | case3 lo hi bound hge =>
    obtain rfl : lo = hi := by omega
    exact above t ht

/-- Wherever bisection moves the start of its range, the transition before it is not later than the
instant. -/
theorem le_of_getElem?_bisectFrom
    (below : ∀ k t, k + 1 = lo → transitions[k]? = some t → t.instant ≤ instant) {k : Nat}
    {t : Transition} (hk : k + 1 = bisectFrom transitions instant lo hi bound)
    (ht : transitions[k]? = some t) : t.instant ≤ instant := by
  fun_induction bisectFrom transitions instant lo hi bound with
  | case1 lo hi bound hlt inside hleft ih => exact ih below hk
  | case2 lo hi bound hlt inside hright ih =>
    apply ih _ hk
    intro middle t hmiddle ht
    obtain rfl : middle = (lo + hi) / 2 := by omega
    simp only [Array.getElem?_eq_getElem inside, Option.some.injEq] at ht
    rw [← ht]
    exact Int.not_lt.mp hright
  | case3 lo hi bound hge => exact below k t hk ht

end Bisection

variable {history : History} {zone : String} {instant : Int} {state : Transition}

theorem instant_mem_instants {k : Nat} {t : Transition} (ht : history.transitions[k]? = some t) :
    t.instant ∈ history.instants :=
  ⟨t, Array.mem_of_getElem? ht, rfl⟩

/-- A step forward leads to a later instant of a transition, or nowhere. -/
theorem nextTransition_cases (history : History) (instant : Int) :
    history.nextTransition instant = instant ∨
      history.nextTransition instant ∈ history.instants ∧
        instant < history.nextTransition instant := by
  rw [nextTransition]
  cases ht : history.transitions[history.position instant]? with
  | none => exact Or.inl rfl
  | some t =>
    have hlater : instant < t.instant := by
      apply lt_of_getElem?_bisectFrom history.transitions instant 0 _ le_rfl (Nat.zero_le _) _ ht
      simp
    exact Or.inr ⟨instant_mem_instants ht, hlater⟩

/-- A step back leads to one millisecond before an instant of a transition so far, or nowhere. -/
theorem previousTransition_cases (history : History) (instant : Int) :
    history.previousTransition instant = instant ∨
      ∃ j ∈ history.instants, j ≤ instant ∧ history.previousTransition instant = j - 1 := by
  rw [previousTransition]
  cases hposition : history.position instant with
  | zero => exact Or.inl rfl
  | succ k =>
    dsimp only
    cases ht : history.transitions[k]? with
    | none => exact Or.inl rfl
    | some t =>
      have hearlier : t.instant ≤ instant := by
        apply le_of_getElem?_bisectFrom history.transitions instant 0 _ le_rfl _ hposition.symm ht
        simp
      exact Or.inr ⟨t.instant, instant_mem_instants ht, hearlier, rfl⟩

theorem previousTransition_le (history : History) (instant : Int) :
    history.previousTransition instant ≤ instant := by
  rcases history.previousTransition_cases instant with hself | ⟨j, -, hj, hprevious⟩ <;> omega

/-! ## The walk forward -/

/-- One round of the walk forward, from an instant and the state that was met there: the walk ends,
it is refused at the next transition, or it goes on from there. -/
def round (history : History) (zone : String) (instant : Int) (state : Transition) :
    Except VerificationError (Option (Int × Transition)) :=
  let next := history.nextTransition instant
  if next = instant ∨ windowEnd < next then .ok none
  else
    let reached := history.stateAt next
    if state.looksLike reached then .error (.invisible zone next)
    else if !isUsableName reached.name then .error (.unusableName zone next reached.name)
    else .ok (some (next, reached))

/-- The walk forward from an instant, round after round with no bound on their number: the instants
that it comes to, and whether it ends or is refused. -/
inductive Walk (history : History) (zone : String) :
    Int → Transition → List Int → Except VerificationError Unit → Prop
  | ended {instant : Int} {state : Transition} (h : history.round zone instant state = .ok none) :
      Walk history zone instant state [] (.ok ())
  | refused {instant : Int} {state : Transition} {fault : VerificationError}
      (h : history.round zone instant state = .error fault) :
      Walk history zone instant state [history.nextTransition instant] (.error fault)
  | goesOn {instant next : Int} {state reached : Transition} {met : List Int}
      {outcome : Except VerificationError Unit}
      (h : history.round zone instant state = .ok (some (next, reached)))
      (rest : Walk history zone next reached met outcome) :
      Walk history zone instant state (next :: met) outcome

/-- The walk has nowhere to go from an instant. -/
def Ends (history : History) (instant : Int) : Prop :=
  history.nextTransition instant = instant ∨ windowEnd < history.nextTransition instant

/-- The walk can go on from an instant to a later one of a transition, inside the window. -/
structure Advances (history : History) (instant : Int) : Prop where
  mem : history.nextTransition instant ∈ history.instants
  lt : instant < history.nextTransition instant
  le : history.nextTransition instant ≤ windowEnd

theorem advances_of_not_ends (h : ¬ history.Ends instant) : history.Advances instant := by
  rw [Ends, not_or, Int.not_lt] at h
  rcases history.nextTransition_cases instant with hself | ⟨hmem, hlt⟩
  · exact absurd hself h.1
  · exact ⟨hmem, hlt, h.2⟩

theorem Advances.stepsFrom_succ (h : history.Advances instant) (fuel : Nat) :
    history.stepsFrom (fuel + 1) instant =
      history.nextTransition instant ::
        history.stepsFrom fuel (history.nextTransition instant) := by
  have hlt := h.lt
  have hle := h.le
  rw [stepsFrom, if_neg (by omega)]

section Round

variable {next : Int} {reached : Transition} {fault : VerificationError}

theorem ends_of_round (h : history.round zone instant state = .ok none) :
    history.Ends instant := by
  simp only [round] at h
  split at h
  · assumption
  · split at h
    · cases h
    · split at h <;> cases h

/-- A round is refused for what the check of a list of steps finds at the first of them. -/
theorem refused_of_round (h : history.round zone instant state = .error fault) :
    history.Advances instant ∧ fault.instants = [history.nextTransition instant] ∧
      ∀ later, history.checkSteps zone state (history.nextTransition instant :: later) =
        .error fault := by
  simp only [round] at h
  split at h
  · cases h
  · next hgoes =>
    refine ⟨advances_of_not_ends hgoes, ?_⟩
    split at h
    · next hlook =>
      cases h
      exact ⟨rfl, fun later => by simp [checkSteps, hlook]⟩
    · next hlook =>
      split at h
      · next hname =>
        cases h
        exact ⟨rfl, fun later => by simp [checkSteps, hlook, hname]⟩
      · cases h

/-- A round goes on to where the check of a list of steps does. -/
theorem goesOn_of_round (h : history.round zone instant state = .ok (some (next, reached))) :
    history.Advances instant ∧ next = history.nextTransition instant ∧
      ∀ later, history.checkSteps zone state (next :: later) =
        history.checkSteps zone reached later := by
  simp only [round] at h
  split at h
  · cases h
  · next hgoes =>
    refine ⟨advances_of_not_ends hgoes, ?_⟩
    split at h
    · cases h
    · next hlook =>
      split at h
      · cases h
      · next hname =>
        cases h
        exact ⟨rfl, fun later => by simp [checkSteps, hlook, hname]⟩

end Round

theorem length_instantsAfter_lt {j : Int} (hmem : j ∈ history.instants) (hlt : instant < j) :
    (history.instantsAfter j).length < (history.instantsAfter instant).length := by
  have hlater : history.instantsAfter j =
      (history.instantsAfter instant).filter fun k => j < k := by
    rw [instantsAfter, instantsAfter, List.filter_filter]
    apply List.filter_congr
    intro k _
    by_cases hjk : j < k
    · simp [hjk, hlt.trans hjk]
    · simp [hjk]
  rw [hlater, List.length_filter_lt_length_iff_exists]
  exact ⟨j, mem_instantsAfter_iff.mpr ⟨hmem, hlt⟩, by simp⟩

/-- Every walk comes to its end, since each round leaves fewer transitions ahead. -/
theorem exists_walk (history : History) (zone : String) (instant : Int) (state : Transition) :
    ∃ met outcome, history.Walk zone instant state met outcome := by
  induction hahead : (history.instantsAfter instant).length using Nat.strong_induction_on
    generalizing instant state with
  | h ahead ih =>
    cases hround : history.round zone instant state with
    | error fault => exact ⟨_, .error fault, .refused hround⟩
    | ok step =>
      cases step with
      | none => exact ⟨[], .ok (), .ended hround⟩
      | some step =>
        obtain ⟨next, reached⟩ := step
        obtain ⟨hadvances, rfl, -⟩ := goesOn_of_round hround
        have hfewer := length_instantsAfter_lt hadvances.mem hadvances.lt
        rw [hahead] at hfewer
        obtain ⟨met, outcome, rest⟩ := ih _ hfewer _ reached rfl
        exact ⟨_ :: met, outcome, .goesOn hround rest⟩

namespace Walk

variable {met : List Int} {outcome : Except VerificationError Unit}

/-- A walk is determined by where it begins. -/
theorem unique {met' : List Int} {outcome' : Except VerificationError Unit}
    (walk : history.Walk zone instant state met outcome)
    (walk' : history.Walk zone instant state met' outcome') : met' = met ∧ outcome' = outcome := by
  induction walk generalizing met' outcome' with
  | ended h => cases walk' <;> simp_all
  | refused h => cases walk' <;> simp_all
  | goesOn h rest ih =>
    cases walk' with
    | ended h' => simp [h] at h'
    | refused h' => simp [h] at h'
    | goesOn h' rest' =>
      rw [h] at h'
      cases h'
      obtain ⟨rfl, rfl⟩ := ih rest'
      exact ⟨rfl, rfl⟩

/-- A walk comes to later and later instants. -/
theorem isChain (walk : history.Walk zone instant state met outcome) :
    (instant :: met).IsChain (· < ·) := by
  induction walk with
  | ended h => simp
  | refused h =>
    obtain ⟨hadvances, -⟩ := refused_of_round h
    simpa using hadvances.lt
  | goesOn h rest ih =>
    obtain ⟨hadvances, rfl, -⟩ := goesOn_of_round h
    exact List.isChain_cons_cons.mpr ⟨hadvances.lt, ih⟩

/-- A walk comes to instants of transitions inside the window only. -/
theorem mem_instants (walk : history.Walk zone instant state met outcome) :
    ∀ j ∈ met, j ∈ history.instants ∧ j ≤ windowEnd := by
  induction walk with
  | ended h => simp
  | refused h =>
    obtain ⟨hadvances, -⟩ := refused_of_round h
    simpa using ⟨hadvances.mem, hadvances.le⟩
  | goesOn h rest ih =>
    obtain ⟨hadvances, rfl, -⟩ := goesOn_of_round h
    exact List.forall_mem_cons.mpr ⟨⟨hadvances.mem, hadvances.le⟩, ih⟩

theorem increasing (walk : history.Walk zone instant state met outcome) :
    (instant :: met).Pairwise (· < ·) :=
  List.isChain_iff_pairwise.mp walk.isChain

theorem nodup (walk : history.Walk zone instant state met outcome) : met.Nodup :=
  (List.pairwise_cons.mp walk.increasing).2.imp Int.ne_of_lt

theorem length_le_size (walk : history.Walk zone instant state met outcome) :
    met.length ≤ history.transitions.size := by
  have hsub : met ⊆ history.transitions.toList.map (·.instant) := fun j hj =>
    mem_instants_iff_mem_map.mp (walk.mem_instants j hj).1
  simpa using (List.subperm_of_subset walk.nodup hsub).length_le

/-- There are at most as many rounds as there are different instants of transitions. -/
theorem length_le_ncard (walk : history.Walk zone instant state met outcome) :
    met.length ≤ history.instants.ncard := by
  have hfinite : history.instants.Finite := by
    apply (history.transitions.toList.map (·.instant)).finite_toSet.subset
    intro j hj
    exact mem_instants_iff_mem_map.mp hj
  calc met.length = met.toFinset.card := (List.toFinset_card_of_nodup walk.nodup).symm
    _ = (met.toFinset : Set Int).ncard := (Set.ncard_coe_finset _).symm
    _ ≤ history.instants.ncard := by
      apply Set.ncard_le_ncard _ hfinite
      intro j hj
      exact (walk.mem_instants j (by simpa using hj)).1

/-- The check of the steps that are listed beforehand comes to the outcome of the walk, if as many
are listed as the walk makes. -/
theorem checkSteps_eq (walk : history.Walk zone instant state met outcome) {fuel : Nat}
    (hfuel : met.length ≤ fuel) :
    history.checkSteps zone state (history.stepsFrom fuel instant) = outcome ∧
      (outcome = .ok () → history.stepsFrom fuel instant = met) := by
  induction walk generalizing fuel with
  | ended h =>
    have hends := ends_of_round h
    rw [Ends] at hends
    cases fuel <;> simp [stepsFrom, hends, checkSteps]
  | refused h =>
    obtain ⟨hadvances, -, hcheck⟩ := refused_of_round h
    cases fuel with
    | zero => simp at hfuel
    | succ fuel => simp [hadvances.stepsFrom_succ, hcheck]
  | goesOn h rest ih =>
    obtain ⟨hadvances, rfl, hcheck⟩ := goesOn_of_round h
    cases fuel with
    | zero => simp at hfuel
    | succ fuel =>
      obtain ⟨hlater, hmet⟩ := ih (Nat.le_of_succ_le_succ hfuel)
      rw [hadvances.stepsFrom_succ, hcheck, hlater]
      exact ⟨rfl, fun hok => by rw [hmet hok]⟩

/-- Verification asks for the name, walks forward, and then back over what it met. -/
theorem verify_eq (walk : history.Walk zone windowStart (history.stateAt windowStart) met outcome) :
    history.verify zone =
      if zone = history.zone then
        outcome.bind fun _ => history.checkBack zone met.reverse windowEnd
      else .error (.otherZone zone history.zone) := by
  obtain ⟨hcheck, hmet⟩ := walk.checkSteps_eq walk.length_le_size
  rw [← steps] at hcheck hmet
  by_cases hzone : zone = history.zone
  · rw [verify, if_neg (not_not.mpr hzone), if_pos hzone]
    dsimp only
    rw [hcheck]
    cases outcome with
    | error fault => rfl
    | ok _ =>
      rw [hmet rfl]
      rfl
  · rw [verify, if_pos hzone, if_neg hzone]
    rfl

/-- A refused walk tells of an instant that it came to. -/
theorem mem_of_mem_instants {fault : VerificationError}
    (walk : history.Walk zone instant state met (.error fault)) :
    ∀ j ∈ fault.instants, j ∈ met := by
  generalize houtcome : (Except.error fault : Except VerificationError Unit) = outcome at walk
  induction walk with
  | ended h => cases houtcome
  | refused h =>
    cases houtcome
    obtain ⟨-, hinstants, -⟩ := refused_of_round h
    simp [hinstants]
  | goesOn h rest ih =>
    intro j hj
    exact List.mem_cons_of_mem _ (ih houtcome j hj)

end Walk

/-- The walk back tells of instants in the window only: it does not leave it, and what it expects
lies one millisecond before what was met inside. -/
theorem bounds_of_checkBack {met : List Int} {fault : VerificationError}
    (hmet : ∀ j ∈ met, windowStart < j ∧ j ≤ windowEnd) (hinstant : instant ≤ windowEnd)
    (h : history.checkBack zone met instant = .error fault) :
    ∀ j ∈ fault.instants, windowStart ≤ j ∧ j ≤ windowEnd := by
  induction met generalizing instant with
  | nil => cases h
  | cons expected rest ih =>
    rw [List.forall_mem_cons] at hmet
    have hle := history.previousTransition_le instant
    rw [checkBack] at h
    split at h
    · cases h
    · next hgoes =>
      split at h
      · cases h
        have hexpected := hmet.1
        rw [VerificationError.instants, List.forall_mem_cons, List.forall_mem_singleton]
        omega
      · exact ih hmet.2 (by omega) h

theorem Walk.bounds_of_verify {met : List Int} {outcome : Except VerificationError Unit}
    {fault : VerificationError}
    (walk : history.Walk zone windowStart (history.stateAt windowStart) met outcome)
    (h : history.verify zone = .error fault) :
    ∀ j ∈ fault.instants, windowStart ≤ j ∧ j ≤ windowEnd := by
  have hmet : ∀ j ∈ met, windowStart < j ∧ j ≤ windowEnd := fun j hj =>
    ⟨(List.pairwise_cons.mp walk.increasing).1 j hj, (walk.mem_instants j hj).2⟩
  rw [walk.verify_eq] at h
  split at h
  · cases outcome with
    | error refusal =>
      cases h
      intro j hj
      obtain ⟨hlt, hle⟩ := hmet j (walk.mem_of_mem_instants j hj)
      exact ⟨hlt.le, hle⟩
    | ok _ => exact bounds_of_checkBack (fun j hj => hmet j (List.mem_reverse.mp hj)) le_rfl h
  · cases h
    simp [VerificationError.instants]

/-- Whatever the order of the transitions, a step forward leads to a later instant of one or
nowhere, and a step back to one millisecond before an instant so far or nowhere. So the walk forward
from the start of the window comes to one end, though nothing bounds its rounds: each comes to an
instant of a transition later than all before it, so there are at most as many rounds as different
instants. The verdict is that of this walk and of the walk back over what it met; and a failure
tells of instants in the window only. -/
theorem verify_anyOrder (history : History) :
    (∀ instant, history.nextTransition instant = instant ∨
      history.nextTransition instant ∈ history.instants ∧
        instant < history.nextTransition instant) ∧
    (∀ instant, history.previousTransition instant = instant ∨
      ∃ j ∈ history.instants, j ≤ instant ∧ history.previousTransition instant = j - 1) ∧
    ∀ zone, ∃ met outcome,
      (∀ met' outcome',
        history.Walk zone windowStart (history.stateAt windowStart) met' outcome' ↔
          met' = met ∧ outcome' = outcome) ∧
      (windowStart :: met).Pairwise (· < ·) ∧
      (∀ j ∈ met, j ∈ history.instants) ∧
      met.length ≤ history.instants.ncard ∧
      history.verify zone =
        (if zone = history.zone then
          outcome.bind fun _ => history.checkBack zone met.reverse windowEnd
        else .error (.otherZone zone history.zone)) ∧
      ∀ fault, history.verify zone = .error fault →
        ∀ j ∈ fault.instants, windowStart ≤ j ∧ j ≤ windowEnd := by
  refine ⟨history.nextTransition_cases, history.previousTransition_cases, fun zone => ?_⟩
  obtain ⟨met, outcome, walk⟩ :=
    history.exists_walk zone windowStart (history.stateAt windowStart)
  refine ⟨met, outcome, fun met' outcome' => ⟨walk.unique, ?_⟩, walk.increasing,
    fun j hj => (walk.mem_instants j hj).1, walk.length_le_ncard, walk.verify_eq,
    fun fault => walk.bounds_of_verify⟩
  rintro ⟨rfl, rfl⟩
  exact walk

end History

end ZoneHistory
