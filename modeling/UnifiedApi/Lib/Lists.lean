import Mathlib.Data.List.Induction
import Mathlib.Data.List.Nodup

/-! # Facts about lists

What is used of lists in more than one place of the program, or says nothing of
any: how a list is put together from what its elements give, how often something
is in it, and what is left of it after a change. -/

namespace Lists

variable {α β γ : Type}

/-! ## Put together -/

/-- The slices of one length, one after the other. -/
theorem flatMap_slices (l : List α) (limit n : Nat) :
    ((List.range n).flatMap fun k => (l.drop (k * limit)).take limit) = l.take (n * limit) := by
  induction n with
  | zero => simp
  | succ n ih =>
    rw [List.range_succ, List.flatMap_append, ih, List.flatMap_singleton, Nat.succ_mul,
      List.take_add]

theorem flatMap_filterMap (f : α → Option β) (g : β → List γ) (l : List α) :
    (l.filterMap f).flatMap g = l.flatMap fun a => (f a).elim [] g := by
  induction l with
  | nil => rfl
  | cons a rest ih =>
    rw [List.filterMap_cons, List.flatMap_cons, ← ih]
    cases f a with
    | none => rfl
    | some b => exact List.flatMap_cons

theorem foldlM_flatMap {σ ε : Type} (step : σ → β → Except ε σ) (g : α → List β)
    (items : List α) (s : σ) :
    (items.flatMap g).foldlM step s = items.foldlM (fun s item => (g item).foldlM step s) s := by
  induction items generalizing s with
  | nil => rfl
  | cons item rest ih =>
    rw [List.flatMap_cons, List.foldlM_append, List.foldlM_cons]
    congr 1
    funext next
    exact ih next

theorem exists_mem_zip {l : List α} {l' : List β} (h : l.length = l'.length) {a : α}
    (ha : a ∈ l) : ∃ b, (a, b) ∈ l.zip l' := by
  have hzip : a ∈ (l.zip l').map Prod.fst := by
    rwa [List.map_fst_zip (Nat.le_of_eq h)]
  obtain ⟨⟨_, b⟩, hb, rfl⟩ := List.mem_map.mp hzip
  exact ⟨b, hb⟩

/-- What a change of one element adds comes from the new one. -/
theorem filterMap_set {f : α → Option β} (l : List α) (i : Nat) (a : α) :
    (l.set i a).filterMap f ⊆ (f a).toList ++ l.filterMap f := by
  intro b hb
  obtain ⟨other, hother, hf⟩ := List.mem_filterMap.mp hb
  rcases List.mem_or_eq_of_mem_set hother with hold | hnew
  · exact List.mem_append_right _ (List.mem_filterMap.mpr ⟨other, hold, hf⟩)
  · rw [← hnew, hf]
    exact List.mem_append_left _ List.mem_cons_self

/-! ## How often -/

theorem two_le_length {a b : α} {l : List α} (ha : a ∈ l) (hb : b ∈ l) (hne : a ≠ b) :
    2 ≤ l.length := by
  cases l with
  | nil => cases ha
  | cons first rest =>
    cases rest with
    | nil => exact absurd ((List.mem_singleton.mp ha).trans (List.mem_singleton.mp hb).symm) hne
    | cons second rest =>
      rw [List.length_cons, List.length_cons]
      omega

/-- In a list without repetitions, what meets a condition is counted once just
when nothing else meets it. -/
theorem countP_eq_one_iff {l : List α} (hl : l.Nodup) {p : α → Bool} {a : α}
    (ha : a ∈ l) (hp : p a = true) :
    l.countP p = 1 ↔ ∀ b ∈ l, p b = true → b = a := by
  have hmem : a ∈ l.filter p := List.mem_filter.mpr ⟨ha, hp⟩
  rw [List.countP_eq_length_filter]
  constructor
  · intro hone b hb hpb
    obtain ⟨c, hc⟩ := List.length_eq_one_iff.mp hone
    have hbmem : b ∈ l.filter p := List.mem_filter.mpr ⟨hb, hpb⟩
    rw [hc, List.mem_singleton] at hmem hbmem
    rw [hmem, hbmem]
  · intro hall
    have hreplicate : l.filter p = List.replicate (l.filter p).length a :=
      List.eq_replicate_of_mem fun b hb =>
        hall b (List.mem_filter.mp hb).1 (List.mem_filter.mp hb).2
    have hnodup := hl.filter p
    rw [hreplicate, List.nodup_replicate] at hnodup
    have := List.length_pos_of_mem hmem
    omega

theorem nodup_eraseDups [BEq α] [LawfulBEq α] (l : List α) : l.eraseDups.Nodup := by
  induction hlength : l.length using Nat.strongRecOn generalizing l with
  | _ n ih =>
    cases l with
    | nil => exact List.nodup_nil
    | cons a rest =>
      rw [List.eraseDups_cons, List.nodup_cons]
      have hshorter : (rest.filter fun other => !other == a).length < n := by
        have := List.length_filter_le (fun other => !other == a) rest
        simp only [List.length_cons] at hlength
        omega
      exact ⟨by simp [List.mem_eraseDups], ih _ hshorter _ rfl⟩

/-- The first element of a list that is there before. -/
theorem exists_first_repeat {l : List α} (h : ¬ l.Nodup) :
    ∃ (later : Nat) (hlater : later < l.length), (l.take later).Nodup ∧
      ∃ earlier < later, l[earlier]? = some l[later] := by
  induction l using List.reverseRecOn with
  | nil => exact absurd List.nodup_nil h
  | append_singleton l a ih =>
    by_cases hl : l.Nodup
    · have hmem : a ∈ l := by
        by_contra hno
        have hnodup := (List.nodup_concat l a).mpr ⟨hno, hl⟩
        rw [List.concat_eq_append] at hnodup
        exact h hnodup
      obtain ⟨earlier, hearlier, ha⟩ := List.getElem_of_mem hmem
      refine ⟨l.length, by simp, ?_, earlier, hearlier, ?_⟩
      · rw [List.take_left]
        exact hl
      · rw [List.getElem?_append_left hearlier, List.getElem?_eq_getElem hearlier, ha]
        simp
    · obtain ⟨later, hlater, hnodup, earlier, hlt, hrepeat⟩ := ih hl
      refine ⟨later, by rw [List.length_append]; omega, ?_, earlier, hlt, ?_⟩
      · rw [List.take_append_of_le_length (Nat.le_of_lt hlater)]
        exact hnodup
      · rw [List.getElem?_append_left (Nat.lt_trans hlt hlater), hrepeat,
          List.getElem_append_left hlater]

end Lists
