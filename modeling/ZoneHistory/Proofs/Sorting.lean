import ZoneHistory.Timeline

/-!
# Stable sorting

Sorting keeps elements that compare alike in their order. So it can be done before or after a choice
of elements, and part by part where nothing in one part comes after anything in the next. Where no
two elements compare alike, the order in which they are given plays no part.
-/
namespace ZoneHistory

section Stable

variable {α : Type} {le : α → α → Bool}

theorem eq_of_append_of_filter {p : α → Bool} {a b c d : List α}
    (h : a ++ b = c ++ d) (ha : ∀ x ∈ a, p x = true) (hb : ∀ x ∈ b, p x = false)
    (hc : ∀ x ∈ c, p x = true) (hd : ∀ x ∈ d, p x = false) : a = c ∧ b = d := by
  have hparts : ∀ {x y : List α}, (∀ e ∈ x, p e = true) → (∀ e ∈ y, p e = false) →
      (x ++ y).filter p = x := by
    intro x y hx hy
    have hnone : y.filter p = [] := List.filter_eq_nil_iff.mpr (by simpa using hy)
    rw [List.filter_append, List.filter_eq_self.mpr hx, hnone, List.append_nil]
  have hac : a = c := by rw [← hparts ha hb, h, hparts hc hd]
  subst hac
  exact ⟨rfl, List.append_cancel_left h⟩

variable (trans : ∀ a b c, le a b = true → le b c = true → le a c = true)
  (total : ∀ a b, (le a b || le b a) = true)

include trans total

theorem not_lt_of_mergeSort_eq {a : α} {l before after : List α}
    (hsorted : l.mergeSort le = before ++ a :: after) : ∀ x ∈ after, (!le a x) = false := by
  intro x hx
  have hordered := List.pairwise_mergeSort trans total l
  rw [hsorted] at hordered
  simpa using List.rel_of_pairwise_cons (List.pairwise_append.mp hordered).2.1 hx

/-- Sorting is stable, so it can be done before or after a choice. -/
theorem filter_mergeSort (p : α → Bool) (l : List α) :
    (l.mergeSort le).filter p = (l.filter p).mergeSort le := by
  induction l with
  | nil => simp
  | cons a l ih =>
    obtain ⟨before, after, hsorted, hrest, hbefore⟩ := List.mergeSort_cons trans total a l
    rw [hrest, List.filter_append] at ih
    rw [hsorted, List.filter_append]
    by_cases ha : p a = true
    · obtain ⟨before', after', hsorted', hrest', hbefore'⟩ :=
        List.mergeSort_cons trans total a (l.filter p)
      obtain ⟨rfl, rfl⟩ := eq_of_append_of_filter (hrest'.symm.trans ih.symm) hbefore'
        (not_lt_of_mergeSort_eq trans total hsorted')
        (fun x hx => hbefore x (List.mem_filter.mp hx).1)
        (fun x hx => not_lt_of_mergeSort_eq trans total hsorted x (List.mem_filter.mp hx).1)
      rw [List.filter_cons_of_pos ha, List.filter_cons_of_pos ha, hsorted']
    · rw [List.filter_cons_of_neg ha, List.filter_cons_of_neg ha, ih]

/-- Two parts, of which nothing in the first comes after anything in the second, are sorted apart. -/
theorem mergeSort_append_of_le {first second : List α}
    (h : ∀ a ∈ first, ∀ b ∈ second, le a b = true) :
    (first ++ second).mergeSort le = first.mergeSort le ++ second.mergeSort le := by
  induction first with
  | nil => simp
  | cons a first ih =>
    rw [List.forall_mem_cons] at h
    obtain ⟨before, after, hsorted, hrest, hbefore⟩ :=
      List.mergeSort_cons trans total a (first ++ second)
    obtain ⟨before', after', hsorted', hrest', hbefore'⟩ :=
      List.mergeSort_cons trans total a first
    have hparts := ih h.2
    rw [hrest, hrest', List.append_assoc] at hparts
    have hlater : ∀ x ∈ after' ++ second.mergeSort le, (!le a x) = false := by
      rw [List.forall_mem_append]
      refine ⟨not_lt_of_mergeSort_eq trans total hsorted', fun x hx => ?_⟩
      simpa using h.1 x (List.mem_mergeSort.mp hx)
    obtain ⟨rfl, rfl⟩ := eq_of_append_of_filter hparts hbefore
      (not_lt_of_mergeSort_eq trans total hsorted) hbefore' hlater
    rw [List.cons_append, hsorted, hsorted', List.append_assoc, List.cons_append]

/-- Elements of which no two compare alike are sorted into one list, however they are given. -/
theorem mergeSort_congr_of_perm {members others : List α} (hperm : others.Perm members)
    (antisymm : ∀ a ∈ members, ∀ b ∈ members, le a b = true → le b a = true → a = b) :
    others.mergeSort le = members.mergeSort le := by
  have hsame := (List.mergeSort_perm others le).trans
    (hperm.trans (List.mergeSort_perm members le).symm)
  apply hsame.eq_of_pairwise _ (List.pairwise_mergeSort trans total others)
    (List.pairwise_mergeSort trans total members)
  intro a b ha hb hab hba
  rw [List.mem_mergeSort] at ha hb
  exact antisymm a (hperm.mem_iff.mp ha) b hb hab hba

end Stable

section Keys

variable {α : Type} (key : α → Int)

theorem key_trans (a b c : α) :
    decide (key a ≤ key b) = true → decide (key b ≤ key c) = true →
      decide (key a ≤ key c) = true := by
  simp only [decide_eq_true_eq]
  omega

theorem key_total (a b : α) : (decide (key a ≤ key b) || decide (key b ≤ key a)) = true := by
  simp only [Bool.or_eq_true, decide_eq_true_eq]
  omega

theorem pairwise_key_mergeSort (l : List α) :
    (l.mergeSort fun a b => decide (key a ≤ key b)).Pairwise fun a b => key a ≤ key b :=
  (List.pairwise_mergeSort (key_trans key) (key_total key) l).imp of_decide_eq_true

end Keys

theorem filter_mergeSort_events (p : Event → Bool) (events : List Event) :
    (events.mergeSort fun a b => decide (a.instant ≤ b.instant)).filter p =
      (events.filter p).mergeSort fun a b => decide (a.instant ≤ b.instant) :=
  filter_mergeSort (key_trans Event.instant) (key_total Event.instant) p events

end ZoneHistory
