import Mathlib.Data.List.Nodup
import Mathlib.Data.List.Sort

/-!
# Stable sorting

What a stable sort keeps of the list it is given. Elements alike in the order
stand in the result as they stood before, so the result is settled by the
elements and by the order among those that are alike.

* `pairwise_mergeSort_isLE`: sorting by a transitive order gives a sorted list.
* `nodup_pair`: of two elements of a list without repetitions exactly one comes
  first.
* `pairwise_mergeSort_refined`: a stable sort sorts by the order refined by the place.
* `mergeSort_eq_iff`: **two lists sort to the same list exactly when they hold
  the same elements, those alike in the same order.**
* `sublist_mergeSort`: a part of a list sorts to a part of what the whole sorts to.
-/

namespace ExprHost.StableSort

variable {α : Type}

section

variable (cmp : α → α → Ordering)

theorem isLE_total [Std.OrientedCmp cmp] (a b : α) : (cmp a b).isLE || (cmp b a).isLE := by
  have hswap : cmp b a = (cmp a b).swap := Std.OrientedCmp.eq_swap
  rw [hswap]
  cases cmp a b <;> rfl

/-- Sorting by a transitive order gives a list that is sorted by it. -/
theorem pairwise_mergeSort_isLE [Std.TransCmp cmp] (l : List α) :
    (l.mergeSort fun a b => (cmp a b).isLE).Pairwise fun a b => (cmp a b).isLE = true := by
  apply List.pairwise_mergeSort _ (isLE_total cmp)
  intro a b c hab hbc
  exact Std.TransCmp.isLE_trans hab hbc

end

/-- One of two elements of a list comes before the other. -/
theorem pair_or_pair {l : List α} {a b : α} (ha : a ∈ l) (hb : b ∈ l) (hne : a ≠ b) :
    [a, b].Sublist l ∨ [b, a].Sublist l := by
  induction l with
  | nil => simp at ha
  | cons x l ih =>
    -- whichever of the two is the first element has the other one behind it
    rcases List.mem_cons.1 ha with hax | ha'
    · have hb' : b ∈ l := (List.mem_cons.1 hb).resolve_left (fun h => hne (hax.trans h.symm))
      left
      rw [hax]
      exact (List.singleton_sublist.2 hb').cons_cons x
    · rcases List.mem_cons.1 hb with hbx | hb'
      · right
        rw [hbx]
        exact (List.singleton_sublist.2 ha').cons_cons x
      · rcases ih ha' hb' with h | h
        · exact Or.inl (h.cons x)
        · exact Or.inr (h.cons x)

/-- Without repetitions no two elements come before each other. -/
theorem not_pair_swap {l : List α} (hl : l.Nodup) {a b : α} (hab : [a, b].Sublist l) :
    ¬ [b, a].Sublist l := by
  induction l with
  | nil => simp at hab
  | cons x l ih =>
    obtain ⟨hx, hl'⟩ := List.nodup_cons.1 hl
    intro hba
    have hbmem : b ∈ x :: l := hab.subset (by simp)
    have hamem : a ∈ x :: l := hab.subset (by simp)
    rcases List.sublist_cons_iff.1 hab with h1 | ⟨r, hr, h1⟩
    · rcases List.sublist_cons_iff.1 hba with h2 | ⟨r, hr, -⟩
      · exact ih hl' h1 h2
      · obtain ⟨rfl, -⟩ := List.cons.inj hr
        exact hx (h1.subset (by simp))
    · obtain ⟨rfl, rfl⟩ := List.cons.inj hr
      rcases List.sublist_cons_iff.1 hba with h2 | ⟨r, hr, -⟩
      · exact hx (h2.subset (by simp))
      · obtain ⟨rfl, -⟩ := List.cons.inj hr
        exact hx (h1.subset (by simp))

/-- **Of two elements of a list without repetitions exactly one comes first.** -/
theorem nodup_pair {l : List α} (hl : l.Nodup) {a b : α} (ha : a ∈ l) (hb : b ∈ l) (hne : a ≠ b) :
    [a, b].Sublist l ↔ ¬ [b, a].Sublist l := by
  constructor
  · exact not_pair_swap hl
  · intro h
    exact (pair_or_pair ha hb hne).resolve_right h

section

variable {le : α → α → Bool} (htrans : ∀ a b c, le a b → le b c → le a c)
  (htotal : ∀ a b, le a b || le b a)
include htrans htotal

/-- Elements alike in the order stand in the sorted list as they stood before. -/
theorem pair_mergeSort_iff {l : List α} (hl : l.Nodup) {a b : α} (ha : a ∈ l) (hb : b ∈ l)
    (hne : a ≠ b) (hab : le a b) (hba : le b a) :
    [a, b].Sublist (l.mergeSort le) ↔ [a, b].Sublist l := by
  have hperm := List.mergeSort_perm l le
  constructor
  · intro h
    rw [nodup_pair hl ha hb hne]
    intro hswap
    exact not_pair_swap (hperm.nodup_iff.2 hl) h
      (List.pair_sublist_mergeSort htrans htotal hba hswap)
  · exact List.pair_sublist_mergeSort htrans htotal hab

/-- A list sorts by the order refined by the place in another list of the same elements, if
elements alike in the order stand in both as they stand there. -/
theorem pairwise_mergeSort_refined {l m : List α} (hm : m.Nodup) (hperm : m.Perm l)
    (hties : ∀ a ∈ l, ∀ b ∈ l, a ≠ b → le a b → le b a → [a, b].Sublist m → [a, b].Sublist l) :
    (m.mergeSort le).Pairwise fun a b => le a b ∧ (le b a → [a, b].Sublist l) := by
  have hsort := List.pairwise_mergeSort htrans htotal m
  have hsorted := List.mergeSort_perm m le
  rw [List.pairwise_iff_forall_sublist]
  intro a b hab
  have hle : le a b := List.pairwise_iff_forall_sublist.1 hsort hab
  have ha : a ∈ m := hsorted.mem_iff.1 (hab.subset (by simp))
  have hb : b ∈ m := hsorted.mem_iff.1 (hab.subset (by simp))
  have hne : a ≠ b := by
    have hpair := hab.nodup (hsorted.nodup_iff.2 hm)
    simpa using hpair
  refine ⟨hle, ?_⟩
  intro hge
  apply hties a (hperm.mem_iff.1 ha) b (hperm.mem_iff.1 hb) hne hle hge
  exact (pair_mergeSort_iff htrans htotal hm ha hb hne hle hge).1 hab

/-- **When two lists sort to the same list.** -/
theorem mergeSort_eq_iff {l l' : List α} (hl : l.Nodup) :
    l.mergeSort le = l'.mergeSort le ↔
      l.Perm l' ∧ ∀ a ∈ l, ∀ b ∈ l, a ≠ b → le a b → le b a →
        ([a, b].Sublist l ↔ [a, b].Sublist l') := by
  constructor
  · intro heq
    have hperm : l.Perm l' :=
      (List.mergeSort_perm l le).symm.trans (heq ▸ List.mergeSort_perm l' le)
    refine ⟨hperm, ?_⟩
    intro a ha b hb hne hab hba
    rw [← pair_mergeSort_iff htrans htotal hl ha hb hne hab hba, heq]
    exact pair_mergeSort_iff htrans htotal (hperm.nodup_iff.1 hl) (hperm.mem_iff.1 ha)
      (hperm.mem_iff.1 hb) hne hab hba
  · rintro ⟨hperm, hties⟩
    have hsorted := pairwise_mergeSort_refined htrans htotal hl (List.Perm.refl l)
      (fun _ _ _ _ _ _ _ h => h)
    have hsorted' := pairwise_mergeSort_refined htrans htotal (hperm.nodup_iff.1 hl) hperm.symm
      (fun a ha b hb hne hab hba => (hties a ha b hb hne hab hba).2)
    -- the refined order is antisymmetric, so there is only one list sorted by it
    refine List.Perm.eq_of_pairwise ?_ hsorted hsorted' ?_
    · intro a b ha hb hab hba
      by_contra hne
      exact not_pair_swap hl (hab.2 hba.1) (hba.2 hab.1)
    · exact (List.mergeSort_perm l le).trans (hperm.trans (List.mergeSort_perm l' le).symm)

/-- What is sorted of a part of a list stands in what is sorted of the whole, in the same order. -/
theorem sublist_mergeSort {l m : List α} (hm : m.Nodup) (h : l.Sublist m) :
    (l.mergeSort le).Sublist (m.mergeSort le) := by
  have hsorted := pairwise_mergeSort_refined htrans htotal hm (List.Perm.refl m)
    (fun _ _ _ _ _ _ _ h => h)
  have hpart := (pairwise_mergeSort_refined htrans htotal (h.nodup hm) (List.Perm.refl l)
    (fun _ _ _ _ _ _ _ h => h)).imp
      fun {a b} hab => And.intro hab.1 fun hba : le b a => (hab.2 hba).trans h
  have hantisymm : Std.Antisymm fun a b => le a b = true ∧ (le b a = true → [a, b].Sublist m) :=
    ⟨fun a b hab hba => absurd (hba.2 hab.1) (not_pair_swap hm (hab.2 hba.1))⟩
  have hsubperm : (l.mergeSort le).Subperm (m.mergeSort le) :=
    (List.mergeSort_perm l le).subperm.trans
      (h.subperm.trans (List.mergeSort_perm m le).symm.subperm)
  exact List.sublist_of_subperm_of_pairwise hsubperm hpart hsorted

end

end ExprHost.StableSort
