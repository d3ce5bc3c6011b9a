import Mathlib.Algebra.BigOperators.Group.Finset.Basic

/-! # Counting by what each item finds at its key

Every item looks at one key of a map and holds or not by what it finds there.
The number that hold splits by key, so a map that changes at one key and keeps
the number keeps every key's share of it, and any mix of maps with the same
shares has the same number. -/

namespace KeyedCount

variable {α κ β : Type} [DecidableEq κ]

/-- How many items hold of what the map has at their key. -/
def total (items : List α) (key : α → κ) (holds : α → β → Bool) (m : κ → β) : Nat :=
  items.countP fun item => holds item (m (key item))

/-- How many of the items at the key hold of a value there. -/
def share (items : List α) (key : α → κ) (holds : α → β → Bool) (k : κ) (b : β) : Nat :=
  items.countP fun item => decide (key item = k) && holds item b

variable {items : List α} {key : α → κ} {holds : α → β → Bool}

/-- The number is the sum of the keys' shares. -/
theorem total_eq_sum {keys : Finset κ} (m : κ → β) (h : ∀ item ∈ items, key item ∈ keys) :
    total items key holds m = ∑ k ∈ keys, share items key holds k (m k) := by
  unfold total share
  induction items with
  | nil => simp
  | cons item rest ih =>
    have hrest : ∀ item ∈ rest, key item ∈ keys := fun item hitem =>
      h item (List.mem_cons_of_mem _ hitem)
    have hkey := h item List.mem_cons_self
    simp only [List.countP_cons, Finset.sum_add_distrib]
    rw [ih hrest]
    congr 1
    rw [Finset.sum_eq_single_of_mem (key item) hkey]
    · simp
    · intro k _ hk
      simp [Ne.symm hk]

/-- Maps with the same shares have the same number. -/
theorem total_congr {m m' : κ → β}
    (h : ∀ k, share items key holds k (m k) = share items key holds k (m' k)) :
    total items key holds m = total items key holds m' := by
  have hkeys : ∀ item ∈ items, key item ∈ (items.map key).toFinset := by
    intro item hitem
    rw [List.mem_toFinset]
    exact List.mem_map.mpr ⟨item, hitem, rfl⟩
  rw [total_eq_sum m hkeys, total_eq_sum m' hkeys]
  exact Finset.sum_congr rfl fun k _ => h k

/-- A change at one key that keeps the number keeps the shares. -/
theorem share_of_total {m m' : κ → β} {changed : κ} (hoff : ∀ k, k ≠ changed → m k = m' k)
    (h : total items key holds m = total items key holds m') (k : κ) :
    share items key holds k (m k) = share items key holds k (m' k) := by
  by_cases hk : k = changed
  · subst hk
    have hkeys : ∀ item ∈ items, key item ∈ insert k (items.map key).toFinset := by
      intro item hitem
      rw [Finset.mem_insert, List.mem_toFinset]
      exact .inr (List.mem_map.mpr ⟨item, hitem, rfl⟩)
    have hmem := Finset.mem_insert_self k (items.map key).toFinset
    rw [total_eq_sum m hkeys, total_eq_sum m' hkeys, ← Finset.add_sum_erase _ _ hmem,
      ← Finset.add_sum_erase _ _ hmem] at h
    have hothers : ∑ k' ∈ (insert k (items.map key).toFinset).erase k,
          share items key holds k' (m k') =
        ∑ k' ∈ (insert k (items.map key).toFinset).erase k, share items key holds k' (m' k') := by
      refine Finset.sum_congr rfl fun k' hk' => ?_
      rw [hoff k' (Finset.ne_of_mem_erase hk')]
    omega
  · rw [hoff k hk]

end KeyedCount
