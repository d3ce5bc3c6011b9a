import Mathlib.Logic.Function.Basic

/-! # A write-once cell that copies share

A value is kept beside a cell, which the first to need it fills with something
worked out of the value. Copies of the value share its cell; a value that
changes takes a fresh one, and the copies keep theirs. -/

namespace SharedCell

variable {α β : Type}

/-- The cells that were made so far, and what was put into them. -/
structure Cells (β : Type) where
  content : Nat → Option β := fun _ => none
  next : Nat := 0

namespace Cells

variable (cells : Cells β) (i : Nat) (b : β)

/-- The cell `next` is made, empty. -/
def fresh : Cells β := { cells with next := cells.next + 1 }

/-- The first to fill a cell wins; whoever comes later changes nothing. -/
def fill : Cells β :=
  match cells.content i with
  | some _ => cells
  | none => { cells with content := Function.update cells.content i (some b) }

@[simp] theorem fresh_content : cells.fresh.content = cells.content := rfl

@[simp] theorem fresh_next : cells.fresh.next = cells.next + 1 := rfl

@[simp] theorem fill_next : (cells.fill i b).next = cells.next := by
  unfold fill
  cases cells.content i <;> rfl

theorem fill_content_self : (cells.fill i b).content i = some ((cells.content i).getD b) := by
  unfold fill
  cases h : cells.content i with
  | some old => exact h
  | none => exact Function.update_self ..

theorem fill_content_ne {j : Nat} (h : j ≠ i) :
    (cells.fill i b).content j = cells.content j := by
  unfold fill
  cases cells.content i with
  | some old => rfl
  | none => exact Function.update_of_ne h ..

variable {cells i b}

/-- What is in a cell stays there. -/
theorem fill_content_of_some {j : Nat} {old : β} (h : cells.content j = some old) :
    (cells.fill i b).content j = some old := by
  by_cases hj : j = i
  · subst hj
    rw [fill_content_self, h, Option.getD_some]
  · rw [fill_content_ne cells i b hj, h]

end Cells

/-- `live` values are beside cells that were made for them, and every cell holds
what was worked out of the value it was made for. -/
structure Agrees (R : α → β → Prop) (cells : Cells β) (live : α → Nat → Prop) (owner : Nat → α) :
    Prop where
  made : ∀ a i, live a i → i < cells.next ∧ owner i = a
  holds : ∀ i b, cells.content i = some b → i < cells.next ∧ R (owner i) b

def Shared (R : α → β → Prop) (cells : Cells β) (live : α → Nat → Prop) : Prop :=
  ∃ owner, Agrees R cells live owner

namespace Shared

variable {R : α → β → Prop} {cells : Cells β} {live live' : α → Nat → Prop} {a : α} {i : Nat}
  {b : β}

/-- A filled cell beside a value was worked out of that value. -/
theorem read (h : Shared R cells live) (hlive : live a i) (hcontent : cells.content i = some b) :
    R a b := by
  obtain ⟨owner, h⟩ := h
  rw [← (h.made a i hlive).2]
  exact (h.holds i b hcontent).2

/-- Copies come and go. -/
theorem mono (h : Shared R cells live) (hlive : ∀ a i, live' a i → live a i) :
    Shared R cells live' := by
  obtain ⟨owner, h⟩ := h
  exact ⟨owner, fun a i ha => h.made a i (hlive a i ha), h.holds⟩

/-- Whoever holds the value fills its cell. -/
theorem fill (h : Shared R cells live) (hlive : live a i) (hb : R a b) :
    Shared R (cells.fill i b) live := by
  obtain ⟨owner, h⟩ := h
  refine ⟨owner, fun a' j ha' => ?_, fun j b' hj => ?_⟩
  · rw [Cells.fill_next]
    exact h.made a' j ha'
  · rw [Cells.fill_next]
    by_cases hji : j = i
    · subst hji
      rw [Cells.fill_content_self] at hj
      obtain ⟨hlt, rfl⟩ := h.made a j hlive
      refine ⟨hlt, ?_⟩
      cases hold : cells.content j with
      | some old =>
        rw [hold] at hj
        obtain rfl := Option.some.inj hj
        exact (h.holds j _ hold).2
      | none =>
        rw [hold] at hj
        obtain rfl := Option.some.inj hj
        exact hb
    · rw [Cells.fill_content_ne cells i b hji] at hj
      exact h.holds j b' hj

/-- A new value takes a fresh cell. -/
theorem fresh (h : Shared R cells live)
    (hlive : ∀ a' i, live' a' i → live a' i ∨ a' = a ∧ i = cells.next) :
    Shared R cells.fresh live' := by
  obtain ⟨owner, h⟩ := h
  refine ⟨Function.update owner cells.next a, fun a' i ha' => ?_, fun i b hi => ?_⟩
  · rcases hlive a' i ha' with hold | ⟨rfl, rfl⟩
    · obtain ⟨hlt, howner⟩ := h.made a' i hold
      exact ⟨Nat.lt_succ_of_lt hlt, (Function.update_of_ne (Nat.ne_of_lt hlt) ..).trans howner⟩
    · exact ⟨Nat.lt_succ_self _, Function.update_self ..⟩
  · obtain ⟨hlt, hR⟩ := h.holds i b hi
    refine ⟨Nat.lt_succ_of_lt hlt, ?_⟩
    rwa [Function.update_of_ne (Nat.ne_of_lt hlt)]

theorem start [Inhabited α] : Shared R ({} : Cells β) (fun _ _ => False) :=
  ⟨fun _ => default, fun _ _ => False.elim, fun _ _ h => nomatch h⟩

end Shared

end SharedCell
