import Mathlib.Data.List.Basic

/-! # Parties in numbered slots

A system keeps its parties in a list. One moves at a time, in its own slot, and
newcomers take the next one. -/

namespace Slots

variable {α : Type} {slots : List α} {i : Nat} {old new : α}

theorem lt_length (h : slots[i]? = some old) : i < slots.length :=
  (List.getElem?_eq_some_iff.mp h).1

/-! ## One party moves -/

theorem getElem?_set_self (h : slots[i]? = some old) (new : α) :
    (slots.set i new)[i]? = some new := List.getElem?_set_self (lt_length h)

theorem getElem?_set (h : slots[i]? = some old) (new : α) (j : Nat) :
    (slots.set i new)[j]? = if j = i then some new else slots[j]? := by
  by_cases hj : j = i
  · rw [if_pos hj, hj, getElem?_set_self h]
  · rw [if_neg hj, List.getElem?_set_ne (Ne.symm hj)]

theorem mem_set_self (h : slots[i]? = some old) (new : α) : new ∈ slots.set i new :=
  List.mem_of_getElem? (getElem?_set_self h new)

/-- Every other party is still there. -/
theorem mem_set_or (h : slots[i]? = some old) {other : α} (hother : other ∈ slots) :
    other ∈ slots.set i new ∨ other = old := by
  obtain ⟨j, hj⟩ := List.mem_iff_getElem?.mp hother
  by_cases hji : j = i
  · subst hji
    exact .inr (Option.some.inj (hj.symm.trans h))
  · exact .inl (List.mem_of_getElem? ((List.getElem?_set_ne (Ne.symm hji)).trans hj))

/-- What the party that moves still does after its move some party still does. -/
theorem exists_set {P : α → Prop} (h : slots[i]? = some old) (hkeeps : P old → P new)
    (hsome : ∃ other ∈ slots, P other) : ∃ other ∈ slots.set i new, P other := by
  obtain ⟨other, hother, hP⟩ := hsome
  obtain hkept | rfl := mem_set_or h hother
  · exact ⟨other, hkept, hP⟩
  · exact ⟨new, mem_set_self h new, hkeeps hP⟩

/-! ## Newcomers -/

theorem getElem?_append (h : slots[i]? = some old) (more : List α) :
    (slots ++ more)[i]? = some old := by
  rw [List.getElem?_append_left (lt_length h), h]

theorem getElem?_append_or (h : (slots ++ [new])[i]? = some old) :
    slots[i]? = some old ∨ i = slots.length ∧ old = new := by
  rcases Nat.lt_or_ge i slots.length with hlt | hge
  · rw [List.getElem?_append_left hlt] at h
    exact .inl h
  · rw [List.getElem?_append_right hge, List.getElem?_singleton] at h
    obtain ⟨hzero, heq⟩ := Option.ite_none_right_eq_some.mp h
    exact .inr ⟨by omega, (Option.some.inj heq).symm⟩

/-! ## Results filed by slot number

Tasks end in some order, each with a result for its own slot. -/

/-- A slot goes through the tasks that are its own, in their order. -/
theorem getElem?_foldl_modify {Task : Type} (number : Task → Nat) (file : Task → α → α)
    (tasks : List Task) (slots : List α) (i : Nat) :
    (tasks.foldl (fun slots task => slots.modify (number task) (file task)) slots)[i]? =
      slots[i]?.map fun slot =>
        (tasks.filter (number · == i)).foldl (fun slot task => file task slot) slot := by
  induction tasks generalizing slots with
  | nil => simp
  | cons task rest ih =>
    rw [List.foldl_cons, ih, List.getElem?_modify]
    by_cases hi : number task = i
    · simp [hi, Function.comp_def]
    · simp [hi]

private theorem filterMap_zipIdx_from {β : Type} (task : α → Nat → Option β) (slots : List α)
    (start i : Nat) :
    ((slots.zipIdx start).filterMap fun slot =>
      if slot.2 = start + i then task slot.1 slot.2 else none) =
      (slots[i]?.bind (task · (start + i))).toList := by
  induction slots generalizing start i with
  | nil => simp
  | cons slot rest ih =>
    rw [List.zipIdx_cons, List.filterMap_cons]
    cases i with
    | zero =>
      have hrest : ((rest.zipIdx (start + 1)).filterMap fun slot =>
          if slot.2 = start then task slot.1 slot.2 else none) = [] := by
        refine List.filterMap_eq_nil_iff.mpr fun later hlater => if_neg ?_
        have := List.le_snd_of_mem_zipIdx hlater
        omega
      simp only [Nat.add_zero, if_true, hrest, List.getElem?_cons_zero, Option.bind_some]
      cases task slot start <;> rfl
    | succ i =>
      have hhead : ¬ start = start + (i + 1) := by omega
      have hi := ih (start + 1) i
      rw [Nat.add_assoc, Nat.add_comm 1 i] at hi
      simp only [if_neg hhead, List.getElem?_cons_succ]
      exact hi

/-- What a numbered list gives one slot is made of that slot alone. -/
theorem filterMap_zipIdx {β : Type} (task : α → Nat → Option β) (slots : List α) (i : Nat) :
    (slots.zipIdx.filterMap fun slot => if slot.2 = i then task slot.1 slot.2 else none) =
      (slots[i]?.bind (task · i)).toList := by
  simpa using filterMap_zipIdx_from task slots 0 i

end Slots
