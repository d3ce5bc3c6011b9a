import Mathlib.Data.List.Sort

/-! # Sorted by a string

What a sort by a text of each element leaves: it is in order, and the same for
every order that the elements came in. -/

namespace Sorted

variable {α : Type}

theorem pairwise_mergeSort (key : α → String) (l : List α) :
    (l.mergeSort fun a b => decide (key a ≤ key b)).Pairwise (key · ≤ key ·) := by
  refine (List.pairwise_mergeSort ?_ ?_ l).imp fun h => of_decide_eq_true h
  · intro a b c hab hbc
    exact decide_eq_true (String.le_trans (of_decide_eq_true hab) (of_decide_eq_true hbc))
  · intro a b
    rw [Bool.or_eq_true, decide_eq_true_eq, decide_eq_true_eq]
    exact String.le_total (key a) (key b)

/-- Where no two elements have one text, the order they came in is forgotten. -/
theorem mergeSort_eq_of_perm_of_nodup (key : α → String) {l more : List α} (h : l.Perm more)
    (hkeys : (l.map key).Nodup) :
    (l.mergeSort fun a b => decide (key a ≤ key b)) =
      more.mergeSort fun a b => decide (key a ≤ key b) := by
  have hsorted : (l.mergeSort fun a b => decide (key a ≤ key b)).Perm
      (more.mergeSort fun a b => decide (key a ≤ key b)) :=
    (List.mergeSort_perm _ _).trans (h.trans (List.mergeSort_perm _ _).symm)
  refine List.Perm.eq_of_pairwise (fun a b ha hb hab hba => ?_) (pairwise_mergeSort key l)
    (pairwise_mergeSort key more) hsorted
  exact List.inj_on_of_nodup_map hkeys (List.mem_mergeSort.mp ha)
    (h.mem_iff.mpr (List.mem_mergeSort.mp hb)) (String.le_antisymm hab hba)

theorem mergeSort_eq_of_perm {names more : List String} (h : names.Perm more) :
    names.mergeSort = more.mergeSort := by
  refine List.Perm.eq_of_pairwise (fun _ _ _ _ => String.le_antisymm)
    (pairwise_mergeSort (fun name => name) names) (pairwise_mergeSort (fun name => name) more) ?_
  exact (List.mergeSort_perm _ _).trans (h.trans (List.mergeSort_perm _ _).symm)

end Sorted
