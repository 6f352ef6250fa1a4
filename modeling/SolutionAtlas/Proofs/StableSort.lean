-- SUMMARY: Sorting keeps what ties in the order that it had, and goes along with leaving elements out.
import Mathlib

/-!
# Stable sorting

A list that is sorted by a total preorder is in order, and elements that the preorder does not tell apart stand as they
stood before. When the list was in a strict order, both orders together are strict, so the sorted list is the only one
of its elements that is in that order.
-/

namespace SolutionAtlas

variable {α : Type} {le : α → α → Bool} {R : α → α → Prop} {xs : List α} {a b : α}

theorem pair_sublist_of_mem (ha : a ∈ xs) (hb : b ∈ xs) (hne : a ≠ b) :
    [a, b].Sublist xs ∨ [b, a].Sublist xs := by
  obtain ⟨front, back, rfl⟩ := List.append_of_mem hb
  rcases List.mem_append.mp ha with hfront | hback
  · exact .inl ((List.singleton_sublist.mpr hfront).append (List.singleton_sublist.mpr List.mem_cons_self))
  · have hback : a ∈ back := (List.mem_cons.mp hback).resolve_left hne
    exact .inr (((List.singleton_sublist.mpr hback).cons_cons b).trans (List.sublist_append_right front _))

/-- In a list without repetitions no two elements stand before each other. -/
theorem not_pair_sublist_swap (h : xs.Nodup) (hab : [a, b].Sublist xs) : ¬[b, a].Sublist xs := by
  classical
  have hplaces : xs.Pairwise fun a b => xs.idxOf a < xs.idxOf b := by
    refine List.pairwise_iff_getElem.mpr fun i j hi hj hij => ?_
    rwa [h.idxOf_getElem i hi, h.idxOf_getElem j hj]
  intro hba
  have hfirst : xs.idxOf a < xs.idxOf b := List.pairwise_iff_forall_sublist.mp hplaces hab
  exact lt_asymm hfirst (List.pairwise_iff_forall_sublist.mp hplaces hba)

/-- Sorting leaves what ties in the order that it had. -/
theorem pairwise_mergeSort_ties (trans : ∀ a b c, le a b = true → le b c = true → le a c = true)
    (total : ∀ a b, (le a b || le b a) = true) (irrefl : ∀ a, ¬R a a) (h : xs.Pairwise R) :
    (xs.mergeSort le).Pairwise fun a b => le a b = true ∧ (le b a = true → R a b) := by
  have hnodup : xs.Nodup := by
    refine h.imp ?_
    rintro a b hab rfl
    exact irrefl a hab
  have hsorted : (xs.mergeSort le).Nodup := (List.mergeSort_perm xs le).nodup_iff.mpr hnodup
  refine List.pairwise_iff_forall_sublist.mpr fun {a b} hab => ?_
  refine ⟨List.pairwise_iff_forall_sublist.mp (List.pairwise_mergeSort trans total xs) hab, fun htie => ?_⟩
  have ha : a ∈ xs := List.mem_mergeSort.mp (hab.subset List.mem_cons_self)
  have hb : b ∈ xs := List.mem_mergeSort.mp (hab.subset (List.mem_cons_of_mem _ List.mem_cons_self))
  have hne : a ≠ b := by
    rintro rfl
    exact not_pair_sublist_swap hsorted hab hab
  rcases pair_sublist_of_mem ha hb hne with hbefore | hbehind
  · exact List.pairwise_iff_forall_sublist.mp h hbefore
  · exact absurd (List.pair_sublist_mergeSort trans total htie hbehind) (not_pair_sublist_swap hsorted hab)

/-- In an order that nothing is on both sides of, a list is told by its elements. -/
theorem mergeSort_filter (trans : ∀ a b c, le a b = true → le b c = true → le a c = true)
    (total : ∀ a b, (le a b || le b a) = true) (asymm : ∀ a b, R a b → ¬R b a) (h : xs.Pairwise R) (p : α → Bool) :
    (xs.filter p).mergeSort le = (xs.mergeSort le).filter p := by
  have hirrefl (a : α) : ¬R a a := fun ha => asymm a a ha ha
  have hperm : ((xs.filter p).mergeSort le).Perm ((xs.mergeSort le).filter p) :=
    (List.mergeSort_perm _ _).trans ((List.mergeSort_perm xs le).filter p).symm
  apply hperm.eq_of_pairwise _ (pairwise_mergeSort_ties trans total hirrefl (h.filter p))
    ((pairwise_mergeSort_ties trans total hirrefl h).filter p)
  rintro a b - - ⟨hab, htie⟩ ⟨hba, htie'⟩
  exact absurd (htie' hab) (asymm a b (htie hba))

end SolutionAtlas
