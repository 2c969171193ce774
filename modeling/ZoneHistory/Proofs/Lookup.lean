import Mathlib.Data.Int.Init
import Mathlib.Data.List.Chain
import Mathlib.Data.List.Sort
import Mathlib.Order.Bounds.Basic
import ZoneHistory.History

/-!
# Lookups in a history

Over transitions in order of time, bisection counts those at or before an instant, so every lookup
is a question about the last transition by then. Where moreover no transition is in vain, the
transitions are exactly the instants at which what a zone shows changes.
-/
namespace ZoneHistory

/-- What a state shows: the offset of its clocks and its abbreviation. -/
def Transition.look (t : Transition) : Int × String := (t.wallOffset, t.name)

theorem Transition.looksLike_iff {a b : Transition} : a.looksLike b = true ↔ a.look = b.look := by
  simp [looksLike, look]

namespace History

/-- The transitions are in order of time, though several may be at one instant. -/
def Ordered (history : History) : Prop :=
  history.transitions.toList.Pairwise fun a b => a.instant ≤ b.instant

theorem Ordered.instant_le {history : History} (h : history.Ordered) {j k : Nat}
    (hk : k < history.transitions.size) (hjk : j ≤ k) :
    history.transitions[j].instant ≤ history.transitions[k].instant := by
  rcases Nat.eq_or_lt_of_le hjk with rfl | hlt
  · exact le_rfl
  · exact List.pairwise_iff_getElem.mp h j k (by simpa using hlt.trans hk) (by simpa using hk) hlt

/-- The range that bisection halves always holds the boundary between the transitions at or before
the instant and those after it. -/
theorem lt_bisectFrom_iff {history : History} (h : history.Ordered) (instant : Int) (lo hi : Nat)
    (bound : hi ≤ history.transitions.size)
    (below : ∀ k (hk : k < history.transitions.size), k < lo →
      history.transitions[k].instant ≤ instant)
    (above : ∀ k (hk : k < history.transitions.size), hi ≤ k →
      instant < history.transitions[k].instant)
    {k : Nat} (hk : k < history.transitions.size) :
    k < bisectFrom history.transitions instant lo hi bound ↔
      history.transitions[k].instant ≤ instant := by
  fun_induction bisectFrom history.transitions instant lo hi bound with
  | case1 lo hi bound hlt inside hleft ih =>
    refine ih below fun j hj hmid => ?_
    have hle := h.instant_le hj hmid
    omega
  | case2 lo hi bound hlt inside hright ih =>
    refine ih (fun j hj hmid => ?_) above
    have hle := h.instant_le inside (show j ≤ (lo + hi) / 2 by omega)
    omega
  | case3 lo hi bound hge =>
    refine ⟨fun hlo => below k hk hlo, fun hinstant => ?_⟩
    by_contra hlo
    have hafter := above k hk (by omega)
    omega

theorem bisectFrom_le (transitions : Array Transition) (instant : Int) (lo hi : Nat)
    (bound : hi ≤ transitions.size) (hle : lo ≤ hi) :
    bisectFrom transitions instant lo hi bound ≤ hi := by
  fun_induction bisectFrom transitions instant lo hi bound with
  | case1 lo hi bound hlt inside hleft ih => exact (ih (by omega)).trans (by omega)
  | case2 lo hi bound hlt inside hright ih => exact ih (by omega)
  | case3 lo hi bound hge => exact hle

theorem position_le (history : History) (instant : Int) :
    history.position instant ≤ history.transitions.size :=
  bisectFrom_le _ _ _ _ _ (Nat.zero_le _)

theorem lt_position_iff {history : History} (h : history.Ordered) (instant : Int) {k : Nat}
    (hk : k < history.transitions.size) :
    k < history.position instant ↔ history.transitions[k].instant ≤ instant := by
  refine lt_bisectFrom_iff h instant 0 _ _ (fun j _ hj => ?_) (fun j hj hle => ?_) hk
  · omega
  · omega

theorem filter_eq_take {α : Type} {p : α → Bool} {l : List α} {n : Nat}
    (h : ∀ k (hk : k < l.length), k < n ↔ p l[k] = true) : l.filter p = l.take n := by
  have htake : (l.take n).filter p = l.take n := by
    rw [List.filter_eq_self]
    intro a ha
    obtain ⟨k, hk, rfl⟩ := List.mem_take_iff_getElem.mp ha
    exact (h k (by omega)).mp (by omega)
  have hdrop : (l.drop n).filter p = [] := by
    rw [List.filter_eq_nil_iff]
    intro a ha hp
    obtain ⟨k, hk, rfl⟩ := List.mem_drop_iff_getElem.mp ha
    have hlt := (h (n + k) (by omega)).mpr hp
    omega
  calc l.filter p = (l.take n ++ l.drop n).filter p := by rw [List.take_append_drop]
    _ = l.take n := by rw [List.filter_append, htake, hdrop, List.append_nil]

def upTo (history : History) (instant : Int) : List Transition :=
  history.transitions.toList.filter fun t => t.instant ≤ instant

theorem upTo_eq_take {history : History} (h : history.Ordered) (instant : Int) :
    history.upTo instant = history.transitions.toList.take (history.position instant) := by
  apply filter_eq_take
  intro k hk
  rw [lt_position_iff h instant (by simpa using hk)]
  simp

/-- A lookup gives the last transition at or before the instant, or the initial state. -/
theorem stateAt_eq {history : History} (h : history.Ordered) (instant : Int) :
    history.stateAt instant = (history.upTo instant).getLast?.getD history.initial := by
  have hle := history.position_le instant
  rw [upTo_eq_take h, stateAt]
  cases hp : history.position instant with
  | zero => simp
  | succ i =>
    rw [hp] at hle
    simp [List.getLast?_take, Array.getD_eq_getD_getElem?,
      show i < history.transitions.size by omega]

def instants (history : History) : Set Int := { j | ∃ t ∈ history.transitions, t.instant = j }

theorem mem_instants_iff {history : History} {j : Int} :
    j ∈ history.instants ↔
      ∃ k, ∃ hk : k < history.transitions.size, history.transitions[k].instant = j := by
  simp only [instants, Set.mem_ofPred_eq, Array.mem_iff_getElem]
  constructor
  · rintro ⟨t, ⟨k, hk, rfl⟩, rfl⟩
    exact ⟨k, hk, rfl⟩
  · rintro ⟨k, hk, rfl⟩
    exact ⟨_, ⟨k, hk, rfl⟩, rfl⟩

/-- The next transition is the least later instant of a transition, if there is one. -/
theorem nextTransition_least {history : History} (h : history.Ordered) (instant : Int) :
    IsLeast { j ∈ history.instants | instant < j } (history.nextTransition instant) ∨
      history.nextTransition instant = instant ∧ ∀ j ∈ history.instants, j ≤ instant := by
  rcases Nat.lt_or_ge (history.position instant) history.transitions.size with hp | hp
  · left
    have hnext : history.nextTransition instant =
        history.transitions[history.position instant].instant := by
      simp [nextTransition, hp]
    have hlater : instant < history.transitions[history.position instant].instant := by
      have hh := lt_position_iff h instant hp
      omega
    refine ⟨⟨mem_instants_iff.mpr ⟨_, hp, hnext.symm⟩, by omega⟩, ?_⟩
    rintro j ⟨hj, hij⟩
    obtain ⟨k, hk, rfl⟩ := mem_instants_iff.mp hj
    have hkp := lt_position_iff h instant hk
    have hle := h.instant_le hk (show history.position instant ≤ k by omega)
    omega
  · right
    refine ⟨by simp [nextTransition, hp], fun j hj => ?_⟩
    obtain ⟨k, hk, rfl⟩ := mem_instants_iff.mp hj
    exact (lt_position_iff h instant hk).mp (by omega)

/-- The previous transition is the millisecond before the greatest instant of a transition by then,
if there is one. -/
theorem previousTransition_greatest {history : History} (h : history.Ordered) (instant : Int) :
    IsGreatest { j ∈ history.instants | j ≤ instant } (history.previousTransition instant + 1) ∨
      history.previousTransition instant = instant ∧ ∀ j ∈ history.instants, instant < j := by
  have hle := history.position_le instant
  cases hp : history.position instant with
  | zero =>
    right
    refine ⟨by simp [previousTransition, hp], fun j hj => ?_⟩
    obtain ⟨k, hk, rfl⟩ := mem_instants_iff.mp hj
    have hkp := lt_position_iff h instant hk
    omega
  | succ i =>
    left
    have hi : i < history.transitions.size := by omega
    have hprevious : history.previousTransition instant + 1 = history.transitions[i].instant := by
      simp [previousTransition, hp, hi]
    have hbefore : history.transitions[i].instant ≤ instant :=
      (lt_position_iff h instant hi).mp (by omega)
    refine ⟨⟨mem_instants_iff.mpr ⟨i, hi, hprevious.symm⟩, by omega⟩, ?_⟩
    rintro j ⟨hj, hij⟩
    obtain ⟨k, hk, rfl⟩ := mem_instants_iff.mp hj
    have hkp := (lt_position_iff h instant hk).mpr hij
    have hki := h.instant_le hi (show k ≤ i by omega)
    omega

def shownAt (history : History) (instant : Int) : Int × String :=
  (history.offsetAt instant, history.nameAt instant)

theorem shownAt_eq_look (history : History) (instant : Int) :
    history.shownAt instant = (history.stateAt instant).look := rfl

/-- Whether an instant shows something else than the millisecond before it. -/
def ChangesAt (history : History) (instant : Int) : Prop :=
  history.shownAt instant ≠ history.shownAt (instant - 1)

theorem shownAt_eq_of_no_change {history : History} {start instant : Int} (hle : start ≤ instant)
    (hsame : ∀ j, start < j → j ≤ instant → ¬ history.ChangesAt j) :
    history.shownAt instant = history.shownAt start := by
  induction instant, hle using Int.leInduction with
  | base => rfl
  | succ instant hle ih =>
    have hnot : ¬ history.ChangesAt (instant + 1) := hsame (instant + 1) (by omega) le_rfl
    rw [ChangesAt, not_not, Int.add_sub_cancel] at hnot
    rw [hnot]
    exact ih fun j hj hji => hsame j hj (by omega)

/-- Each transition is later than the one before it and shows something else. -/
structure Normal (history : History) : Prop where
  increasing : history.transitions.toList.Pairwise fun a b => a.instant < b.instant
  visible : (history.initial :: history.transitions.toList).IsChain fun a b => a.look ≠ b.look

namespace Normal

variable {history : History}

theorem ordered (h : history.Normal) : history.Ordered :=
  h.increasing.imp fun hab => hab.le

theorem split (h : history.Normal) {t : Transition} (ht : t ∈ history.transitions) :
    ∃ before after, history.transitions.toList = before ++ t :: after ∧
      history.upTo t.instant = before ++ [t] ∧ history.upTo (t.instant - 1) = before := by
  obtain ⟨before, after, hsplit⟩ := List.append_of_mem (Array.mem_toList_iff.mpr ht)
  have hincreasing := h.increasing
  rw [hsplit, List.pairwise_append, List.pairwise_cons] at hincreasing
  obtain ⟨-, ⟨hafter, -⟩, hbefore⟩ := hincreasing
  have hkeep : ∀ (i : Int), t.instant - 1 ≤ i →
      before.filter (fun u => decide (u.instant ≤ i)) = before := by
    intro i hi
    rw [List.filter_eq_self]
    intro u hu
    have hlt := hbefore u hu t List.mem_cons_self
    simp only [decide_eq_true_eq]
    omega
  have hdrop : ∀ (i : Int), i ≤ t.instant →
      after.filter (fun u => decide (u.instant ≤ i)) = [] := by
    intro i hi
    rw [List.filter_eq_nil_iff]
    intro u hu
    have hlt := hafter u hu
    simp only [decide_eq_true_eq]
    omega
  refine ⟨before, after, hsplit, ?_, ?_⟩
  · rw [upTo, hsplit, List.filter_append, List.filter_cons_of_pos (by simp), hkeep _ (by omega),
      hdrop _ le_rfl]
  · rw [upTo, hsplit, List.filter_append,
      List.filter_cons_of_neg (by simp only [decide_eq_true_eq]; omega), hkeep _ le_rfl,
      hdrop _ (by omega), List.append_nil]

theorem stateAt_instant (h : history.Normal) {t : Transition} (ht : t ∈ history.transitions) :
    history.stateAt t.instant = t := by
  obtain ⟨before, after, -, hupTo, -⟩ := h.split ht
  rw [stateAt_eq h.ordered, hupTo]
  simp

/-- What is shown changes exactly at the transitions. -/
theorem changesAt_iff (h : history.Normal) (j : Int) :
    history.ChangesAt j ↔ j ∈ history.instants := by
  constructor
  · intro hchange
    by_contra hnot
    have hupTo : history.upTo j = history.upTo (j - 1) := by
      refine List.filter_congr fun t ht => ?_
      have hne : t.instant ≠ j := fun he => hnot ⟨t, Array.mem_toList_iff.mp ht, he⟩
      simp only [decide_eq_decide]
      omega
    apply hchange
    rw [shownAt_eq_look, shownAt_eq_look, stateAt_eq h.ordered, stateAt_eq h.ordered, hupTo]
  · rintro ⟨t, ht, rfl⟩
    obtain ⟨before, after, hsplit, -, hupTo⟩ := h.split ht
    have hchain := h.visible
    rw [hsplit, ← List.cons_append, List.isChain_append] at hchain
    have hne := hchain.2.2 (before.getLast?.getD history.initial)
      (by cases before <;> simp [List.getLast?_cons]) t (by simp)
    rw [ChangesAt, shownAt_eq_look, shownAt_eq_look, h.stateAt_instant ht, stateAt_eq h.ordered,
      hupTo]
    exact hne.symm

theorem nextTransition_least (h : history.Normal) (instant : Int) :
    IsLeast { j | instant < j ∧ history.ChangesAt j } (history.nextTransition instant) ∨
      history.nextTransition instant = instant ∧ ∀ j, instant < j → ¬ history.ChangesAt j := by
  have hset : { j | instant < j ∧ history.ChangesAt j } =
      { j ∈ history.instants | instant < j } := by
    ext j
    simp [h.changesAt_iff, and_comm]
  rw [hset]
  rcases History.nextTransition_least h.ordered instant with hleast | ⟨hself, hnone⟩
  · exact Or.inl hleast
  · refine Or.inr ⟨hself, fun j hj hchange => ?_⟩
    have hle := hnone j ((h.changesAt_iff j).mp hchange)
    omega

theorem previousTransition_greatest (h : history.Normal) (instant : Int) :
    IsGreatest { j | j ≤ instant ∧ history.ChangesAt j }
        (history.previousTransition instant + 1) ∨
      history.previousTransition instant = instant ∧
        ∀ j, j ≤ instant → ¬ history.ChangesAt j := by
  have hset : { j | j ≤ instant ∧ history.ChangesAt j } =
      { j ∈ history.instants | j ≤ instant } := by
    ext j
    simp [h.changesAt_iff, and_comm]
  rw [hset]
  rcases History.previousTransition_greatest h.ordered instant with hgreatest | ⟨hself, hnone⟩
  · exact Or.inl hgreatest
  · refine Or.inr ⟨hself, fun j hj hchange => ?_⟩
    have hlt := hnone j ((h.changesAt_iff j).mp hchange)
    omega

theorem exists_last_change (h : history.Normal) {j instant : Int} (hj : j ≤ instant)
    (hchange : history.ChangesAt j) :
    ∃ t ∈ history.transitions, j ≤ t.instant ∧ t.instant ≤ instant ∧
      history.shownAt instant = t.look := by
  rcases h.previousTransition_greatest instant with ⟨⟨hle, hlast⟩, hgreatest⟩ | ⟨-, hnone⟩
  · obtain ⟨t, ht, hinstant⟩ := (h.changesAt_iff _).mp hlast
    refine ⟨t, ht, hinstant ▸ hgreatest ⟨hj, hchange⟩, hinstant ▸ hle, ?_⟩
    have hafter : ∀ k, t.instant < k → k ≤ instant → ¬ history.ChangesAt k := by
      intro k hk hki hchanges
      have hkle := hgreatest ⟨hki, hchanges⟩
      omega
    rw [shownAt_eq_of_no_change (hinstant ▸ hle) hafter, shownAt_eq_look, h.stateAt_instant ht]
  · exact absurd hchange (hnone j hj)

theorem mem_of_agree {other : History} (h : history.Normal) (hother : other.Normal)
    (hshown : ∀ i, history.shownAt i = other.shownAt i)
    (hstandard : ∀ i, history.ChangesAt i → history.standardOffsetAt i = other.standardOffsetAt i)
    {t : Transition} (ht : t ∈ history.transitions) : t ∈ other.transitions := by
  have hchange : history.ChangesAt t.instant := (h.changesAt_iff _).mpr ⟨t, ht, rfl⟩
  have hchange' : other.ChangesAt t.instant := by
    rw [ChangesAt, ← hshown, ← hshown]
    exact hchange
  obtain ⟨u, hu, hinstant⟩ := (hother.changesAt_iff _).mp hchange'
  have hlook : t.look = u.look := by
    have hh := hshown t.instant
    rwa [shownAt_eq_look, shownAt_eq_look, h.stateAt_instant ht, ← hinstant,
      hother.stateAt_instant hu] at hh
  have hoffset : t.standardOffset = u.standardOffset := by
    have hh := hstandard _ hchange
    rwa [standardOffsetAt, standardOffsetAt, h.stateAt_instant ht, ← hinstant,
      hother.stateAt_instant hu] at hh
  have htu : t = u := by
    cases t
    cases u
    simp_all [Transition.look]
  rwa [htu]

/-- A normal history is determined by where it begins, what it shows, and the standard offsets to
which it changes. -/
theorem eq_of_agree {other : History} (h : history.Normal) (hother : other.Normal)
    (hzone : history.zone = other.zone) (hinitial : history.initial = other.initial)
    (hshown : ∀ i, history.shownAt i = other.shownAt i)
    (hstandard : ∀ i, history.ChangesAt i →
      history.standardOffsetAt i = other.standardOffsetAt i) : history = other := by
  have hstandard' : ∀ i, other.ChangesAt i →
      other.standardOffsetAt i = history.standardOffsetAt i := by
    intro i hi
    rw [ChangesAt, ← hshown, ← hshown] at hi
    exact (hstandard i hi).symm
  have hmem : ∀ t, t ∈ history.transitions.toList ↔ t ∈ other.transitions.toList := by
    intro t
    rw [Array.mem_toList_iff, Array.mem_toList_iff]
    exact ⟨mem_of_agree h hother hshown hstandard,
      mem_of_agree hother h (fun i => (hshown i).symm) hstandard'⟩
  have : Std.Irrefl fun a b : Transition => a.instant < b.instant := ⟨fun _ => lt_irrefl _⟩
  have : Std.Antisymm fun a b : Transition => a.instant < b.instant :=
    ⟨fun _ _ hab hba => absurd hba (lt_asymm hab)⟩
  have htransitions : history.transitions.toList = other.transitions.toList :=
    h.increasing.eq_of_mem_iff hother.increasing hmem
  cases history
  cases other
  simp_all

end Normal

end History

end ZoneHistory
