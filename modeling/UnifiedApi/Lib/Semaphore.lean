import Mathlib.Tactic.Linarith

/-! # A counting semaphore with waiters

Permits are free or held. One that comes back goes to the first waiter, if
there is one. Permits can be added, and free ones forgotten. -/

structure Semaphore where
  available : Nat
  held : Nat := 0
  waiting : Nat := 0
  deriving DecidableEq

namespace Semaphore

/-- Permits that exist, free or held. -/
def total (s : Semaphore) : Nat := s.available + s.held

/-- More permits than this cannot exist: `usize::MAX >> 3`. -/
def maxPermits : Nat := 2 ^ 61 - 1

/-- Fails on too many permits. -/
def new (permits : Nat) : Option Semaphore :=
  if permits ≤ maxPermits then some { available := permits } else none

/-- A permit, or a place in the queue. -/
def acquire (s : Semaphore) : Semaphore :=
  if 0 < s.available then { s with available := s.available - 1, held := s.held + 1 }
  else { s with waiting := s.waiting + 1 }

/-- The waiters are served first. -/
def give (n : Nat) (s : Semaphore) : Semaphore :=
  { available := s.available + (n - s.waiting)
    held := s.held + min n s.waiting
    waiting := s.waiting - n }

/-- Fails on too many permits. -/
def addPermits (n : Nat) (s : Semaphore) : Option Semaphore :=
  if s.available + n ≤ maxPermits then some (s.give n) else none

/-- A permit comes back; fails when none is out. -/
def release (s : Semaphore) : Option Semaphore :=
  if 0 < s.held then some ({ s with held := s.held - 1 }.give 1) else none

/-- A waiter gives up. -/
def abandon (s : Semaphore) : Semaphore := { s with waiting := s.waiting - 1 }

/-- Removes free permits, at most `n`, and says how many. -/
def forgetPermits (n : Nat) (s : Semaphore) : Nat × Semaphore :=
  (min n s.available, { s with available := s.available - min n s.available })

variable (s : Semaphore)

@[simp] theorem total_acquire : s.acquire.total = s.total := by
  unfold acquire
  split
  · simp only [total]
    omega
  · rfl

@[simp] theorem total_give (n : Nat) : (s.give n).total = s.total + n := by
  simp only [give, total]
  omega

@[simp] theorem total_abandon : s.abandon.total = s.total := rfl

theorem total_release {s s' : Semaphore} (h : s.release = some s') : s'.total = s.total := by
  unfold release at h
  split at h
  · obtain rfl := Option.some.inj h
    simp only [total_give]
    simp only [total]
    omega
  · cases h

theorem total_addPermits {n : Nat} {s s' : Semaphore} (h : s.addPermits n = some s') :
    s'.total = s.total + n := by
  unfold addPermits at h
  split at h
  · obtain rfl := Option.some.inj h
    exact total_give s n
  · cases h

theorem forgetPermits_le (n : Nat) : (s.forgetPermits n).1 ≤ n := Nat.min_le_left _ _

theorem total_forgetPermits (n : Nat) :
    (s.forgetPermits n).2.total + (s.forgetPermits n).1 = s.total := by
  simp only [forgetPermits, total]
  omega

/-- With nothing held, as many are forgotten as were asked for, or all. -/
theorem forgetPermits_of_held {s : Semaphore} (h : s.held = 0) (n : Nat) :
    (s.forgetPermits n).1 = min n s.total := by
  simp only [forgetPermits, total, h, Nat.add_zero]

/-- Nobody waits while a permit is free. -/
def Served : Prop := s.waiting = 0 ∨ s.available = 0

variable {s}

theorem Served.acquire (h : s.Served) : s.acquire.Served := by
  unfold Semaphore.acquire
  split
  · rename_i hfree
    exact h.imp_right fun hnone => absurd hfree (by omega)
  · rename_i hnone
    exact .inr (Nat.eq_zero_of_not_pos hnone)

theorem Served.give (h : s.Served) (n : Nat) : (s.give n).Served := by
  unfold Served Semaphore.give at *
  dsimp only
  omega

theorem Served.abandon (h : s.Served) : s.abandon.Served :=
  h.imp_left fun hnone => by simp only [Semaphore.abandon, hnone]

theorem Served.forgetPermits (h : s.Served) (n : Nat) : (s.forgetPermits n).2.Served :=
  h.imp_right fun hnone => by simp only [Semaphore.forgetPermits, hnone, Nat.zero_sub]

theorem Served.release {s' : Semaphore} (h : s.Served) (hrelease : s.release = some s') :
    s'.Served := by
  unfold Semaphore.release at hrelease
  split at hrelease
  · obtain rfl := Option.some.inj hrelease
    exact Served.give (s := { s with held := s.held - 1 }) h 1
  · cases hrelease

end Semaphore
