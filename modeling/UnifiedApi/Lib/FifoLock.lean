import Mathlib.Logic.Basic

/-! # A fair lock that is not reentrant

Who asks is put at the end of a line; when the lock is free it goes to the
head of the line. Nothing here asks who already holds it. -/

structure FifoLock (α : Type) where
  holder : Option α := none
  waiting : List α := []
  deriving DecidableEq

namespace FifoLock

variable {α : Type}

def enqueue (lock : FifoLock α) (a : α) : FifoLock α := { lock with waiting := lock.waiting ++ [a] }

/-- The free lock goes to the head of the line. -/
def acquire (lock : FifoLock α) : Option (α × FifoLock α) :=
  match lock.holder, lock.waiting with
  | none, a :: rest => some (a, ⟨some a, rest⟩)
  | _, _ => none

def release (lock : FifoLock α) : FifoLock α := { lock with holder := none }

/-- Leaving the line without the lock. -/
def withdraw [DecidableEq α] (lock : FifoLock α) (a : α) : FifoLock α :=
  { lock with waiting := lock.waiting.filter (· ≠ a) }

@[simp] theorem holder_enqueue (lock : FifoLock α) (a : α) :
    (lock.enqueue a).holder = lock.holder := rfl

@[simp] theorem holder_withdraw [DecidableEq α] (lock : FifoLock α) (a : α) :
    (lock.withdraw a).holder = lock.holder := rfl

theorem acquire_eq_some {lock lock' : FifoLock α} {a : α} (h : lock.acquire = some (a, lock')) :
    lock.holder = none ∧ ∃ rest, lock.waiting = a :: rest ∧ lock' = ⟨some a, rest⟩ := by
  unfold acquire at h
  split at h
  · rename_i rest hholder hwaiting
    obtain ⟨rfl, rfl⟩ := Prod.mk.inj (Option.some.inj h)
    exact ⟨hholder, rest, hwaiting, rfl⟩
  · cases h

/-! ## Mutual exclusion -/

/-- Only the holder does what `holds` says. -/
def Excludes (lock : FifoLock α) (holds : α → Prop) : Prop := ∀ a, holds a → lock.holder = some a

namespace Excludes

variable {lock lock' : FifoLock α} {holds holds' : α → Prop}

theorem unique (h : lock.Excludes holds) {a b : α} (ha : holds a) (hb : holds b) : a = b :=
  Option.some.inj ((h a ha).symm.trans (h b hb))

/-- Whoever else would hold it already did. -/
theorem of_holder_eq (h : lock.Excludes holds) (hholder : lock'.holder = lock.holder)
    (hsub : ∀ a, holds' a → holds a) : lock'.Excludes holds' :=
  fun a ha => hholder ▸ h a (hsub a ha)

theorem acquire (h : lock.Excludes holds) {a : α} (hacquire : lock.acquire = some (a, lock'))
    (hsub : ∀ b, holds' b → b = a ∨ holds b) : lock'.Excludes holds' := by
  obtain ⟨hfree, rest, _, rfl⟩ := acquire_eq_some hacquire
  intro b hb
  rcases hsub b hb with rfl | hold
  · rfl
  · have hheld := h b hold
    rw [hfree] at hheld
    cases hheld

/-- Only the one that held it may give it back. -/
theorem release (h : lock.Excludes holds) {a : α} (ha : holds a)
    (hsub : ∀ b, holds' b → b ≠ a ∧ holds b) : lock.release.Excludes holds' := by
  intro b hb
  obtain ⟨hne, hold⟩ := hsub b hb
  exact absurd (h.unique hold ha) hne

end Excludes

end FifoLock
