import UnifiedApi.Lib.Runs
import UnifiedApi.Lib.Semaphore

/-! # The permits of on-demand refreshes

The process-wide limit on refreshes can be changed under a running process. A
shrink takes the permits that are free at once and leaves the rest as a debt,
which later acquisitions settle before they take a permit. -/

namespace UnifiedApi

/-- Subtraction on `usize`, which must not underflow. -/
def usizeSub (a b : Nat) : Option Nat := if b ≤ a then some (a - b) else none

theorem usizeSub_of_le {a b : Nat} (h : b ≤ a) : usizeSub a b = some (a - b) := if_pos h

/-- The semaphore, what its capacity is meant to be and how many permits a
shrink could not reclaim yet. -/
structure RefreshPermits where
  limiter : Semaphore
  capacity : Nat
  shrinkDebt : Nat := 0
  deriving DecidableEq

/-- `settle` is the first part of an acquisition, `acquire` the rest. -/
inductive PermitOp where
  | resize (maxConcurrent : Nat)
  | settle
  | acquire
  | release
  | abandon
  deriving DecidableEq

namespace RefreshPermits

/-- A zero would block every refresh forever. -/
def new (maxConcurrent : Nat) : RefreshPermits :=
  let capacity := max maxConcurrent 1
  { limiter := ⟨capacity, 0, 0⟩, capacity }

/-- Growing first pays off a pending shrink. -/
def grow (s : RefreshPermits) (target : Nat) : Option RefreshPermits := do
  let grow ← usizeSub target s.capacity
  let cancelled := min grow s.shrinkDebt
  let shrinkDebt ← usizeSub s.shrinkDebt cancelled
  let grow ← usizeSub grow cancelled
  let limiter ← s.limiter.addPermits grow
  return { limiter, capacity := target, shrinkDebt }

def shrink (s : RefreshPermits) (target : Nat) : Option RefreshPermits := do
  let shrink ← usizeSub s.capacity target
  let (forgotten, limiter) := s.limiter.forgetPermits shrink
  let rest ← usizeSub shrink forgotten
  return { limiter, capacity := target, shrinkDebt := s.shrinkDebt + rest }

def resize (s : RefreshPermits) (maxConcurrent : Nat) : Option RefreshPermits :=
  let target := max maxConcurrent 1
  if s.capacity ≤ target then s.grow target else s.shrink target

/-- Permits released since the shrink are reclaimed before one is taken. -/
def settle (s : RefreshPermits) : Option RefreshPermits :=
  if 0 < s.shrinkDebt then do
    let (forgotten, limiter) := s.limiter.forgetPermits s.shrinkDebt
    let shrinkDebt ← usizeSub s.shrinkDebt forgotten
    return { s with limiter, shrinkDebt }
  else some s

/-- Fails where the code would panic or underflow. -/
def step (s : RefreshPermits) : PermitOp → Option RefreshPermits
  | .resize maxConcurrent => s.resize maxConcurrent
  | .settle => s.settle
  | .acquire => some { s with limiter := s.limiter.acquire }
  | .release => s.limiter.release.map fun limiter => { s with limiter }
  | .abandon => some { s with limiter := s.limiter.abandon }

/-- Sizes within the semaphore's limit; only a permit that is held comes back. -/
def Allowed (s : RefreshPermits) : PermitOp → Prop
  | .resize maxConcurrent => maxConcurrent ≤ Semaphore.maxPermits
  | .release => 0 < s.limiter.held
  | _ => True

/-- Every permit is accounted for. -/
structure Balanced (s : RefreshPermits) : Prop where
  total : s.limiter.total = s.capacity + s.shrinkDebt
  capacity : 1 ≤ s.capacity
  limit : s.limiter.total ≤ Semaphore.maxPermits

theorem Balanced.new {maxConcurrent : Nat} (h : maxConcurrent ≤ Semaphore.maxPermits) :
    (new maxConcurrent).Balanced := by
  refine ⟨rfl, Nat.le_max_right _ _, ?_⟩
  show max maxConcurrent 1 + 0 ≤ Semaphore.maxPermits
  have hone : 1 ≤ Semaphore.maxPermits := by decide
  omega

theorem Balanced.grow {s : RefreshPermits} (h : s.Balanced) {target : Nat}
    (hle : s.capacity ≤ target) (hmax : target ≤ Semaphore.maxPermits) :
    ∃ s', s.grow target = some s' ∧ s'.Balanced := by
  obtain ⟨htotal, hcapacity, hlimit⟩ := h
  have havailable : s.limiter.available ≤ s.limiter.total := Nat.le_add_right _ _
  have hadd : ∃ limiter, s.limiter.addPermits
      (target - s.capacity - min (target - s.capacity) s.shrinkDebt) = some limiter := by
    refine ⟨_, if_pos ?_⟩
    omega
  obtain ⟨limiter, hlimiter⟩ := hadd
  have hgrown := Semaphore.total_addPermits hlimiter
  refine ⟨⟨limiter, target, s.shrinkDebt - min (target - s.capacity) s.shrinkDebt⟩, ?_, ?_, ?_, ?_⟩
  · simp [RefreshPermits.grow, usizeSub_of_le hle, usizeSub_of_le (Nat.min_le_right _ _),
      usizeSub_of_le (Nat.min_le_left _ _), hlimiter]
  · dsimp only
    omega
  · dsimp only
    omega
  · dsimp only
    omega

theorem Balanced.shrink {s : RefreshPermits} (h : s.Balanced) {target : Nat}
    (hlt : target < s.capacity) (hone : 1 ≤ target) :
    ∃ s', s.shrink target = some s' ∧ s'.Balanced := by
  obtain ⟨htotal, _, hlimit⟩ := h
  have hforgotten := s.limiter.forgetPermits_le (s.capacity - target)
  have hrest := s.limiter.total_forgetPermits (s.capacity - target)
  refine ⟨⟨(s.limiter.forgetPermits (s.capacity - target)).2, target,
    s.shrinkDebt + (s.capacity - target - (s.limiter.forgetPermits (s.capacity - target)).1)⟩,
    ?_, ?_, hone, ?_⟩
  · simp only [RefreshPermits.shrink, usizeSub_of_le hlt.le, usizeSub_of_le hforgotten,
      Option.pure_def, Option.bind_eq_bind, Option.bind_some]
  · dsimp only
    omega
  · dsimp only
    omega

theorem Balanced.settle {s : RefreshPermits} (h : s.Balanced) :
    ∃ s', s.settle = some s' ∧ s'.Balanced ∧ s'.capacity = s.capacity ∧
      (s.limiter.held = 0 → s'.limiter.total = s'.capacity) := by
  obtain ⟨htotal, hcapacity, hlimit⟩ := h
  unfold RefreshPermits.settle
  split
  · have hforgotten := s.limiter.forgetPermits_le s.shrinkDebt
    have hrest := s.limiter.total_forgetPermits s.shrinkDebt
    refine ⟨{ s with
      limiter := (s.limiter.forgetPermits s.shrinkDebt).2
      shrinkDebt := s.shrinkDebt - (s.limiter.forgetPermits s.shrinkDebt).1 }, ?_, ⟨?_, ?_, ?_⟩,
      rfl, ?_⟩
    · simp only [usizeSub_of_le hforgotten, Option.pure_def, Option.bind_eq_bind,
        Option.bind_some]
    · dsimp only
      omega
    · exact hcapacity
    · dsimp only
      omega
    · intro hheld
      have hall := Semaphore.forgetPermits_of_held hheld s.shrinkDebt
      dsimp only
      omega
  · refine ⟨s, rfl, ⟨htotal, hcapacity, hlimit⟩, rfl, ?_⟩
    intro _
    omega

theorem Balanced.release {s : RefreshPermits} (h : s.Balanced) (hheld : 0 < s.limiter.held) :
    ∃ s', s.step .release = some s' ∧ s'.Balanced := by
  obtain ⟨limiter, hlimiter⟩ : ∃ limiter, s.limiter.release = some limiter := ⟨_, if_pos hheld⟩
  have htotal := Semaphore.total_release hlimiter
  exact ⟨{ s with limiter }, by simp [step, hlimiter], htotal.trans h.total, h.capacity,
    htotal.le.trans h.limit⟩

/-- No operation panics or underflows, and each keeps the balance. -/
theorem Balanced.step {s : RefreshPermits} (h : s.Balanced) {op : PermitOp} (hop : s.Allowed op) :
    ∃ s', s.step op = some s' ∧ s'.Balanced := by
  cases op with
  | resize maxConcurrent =>
    have hmax : max maxConcurrent 1 ≤ Semaphore.maxPermits :=
      Nat.max_le.mpr ⟨hop, by decide⟩
    unfold RefreshPermits.step resize
    dsimp only
    split
    · rename_i hle
      exact h.grow hle hmax
    · rename_i hnle
      exact h.shrink (Nat.not_le.mp hnle) (Nat.le_max_right _ _)
  | settle =>
    obtain ⟨s', hs', hbalanced, _⟩ := h.settle
    exact ⟨s', hs', hbalanced⟩
  | acquire =>
    have htotal := s.limiter.total_acquire
    exact ⟨_, rfl, htotal.trans h.total, h.capacity, htotal.le.trans h.limit⟩
  | release => exact h.release hop
  | abandon =>
    have htotal := s.limiter.total_abandon
    exact ⟨_, rfl, htotal.trans h.total, h.capacity, htotal.le.trans h.limit⟩

theorem Balanced.of_step {s s' : RefreshPermits} {op : PermitOp} (h : s.Balanced)
    (hop : s.Allowed op) (hstep : s.step op = some s') : s'.Balanced := by
  obtain ⟨next, hnext, hkept⟩ := h.step hop
  obtain rfl := Option.some.inj (hnext.symm.trans hstep)
  exact hkept

theorem reached_balanced {maxConcurrent : Nat} (hnew : maxConcurrent ≤ Semaphore.maxPermits)
    {s : RefreshPermits} (h : Runs.Reach step Allowed (new maxConcurrent) s) : s.Balanced :=
  h.invariant (Balanced.new hnew) fun _ _ _ hbalanced hop hstep => hbalanced.of_step hop hstep

/-! ## The queue of the limiter -/

theorem served_grow {s s' : RefreshPermits} {target : Nat} (h : s.limiter.Served)
    (hgrow : s.grow target = some s') : s'.limiter.Served := by
  unfold RefreshPermits.grow at hgrow
  obtain ⟨_, _, hgrow⟩ := Option.bind_eq_some_iff.mp hgrow
  obtain ⟨_, _, hgrow⟩ := Option.bind_eq_some_iff.mp hgrow
  obtain ⟨_, _, hgrow⟩ := Option.bind_eq_some_iff.mp hgrow
  obtain ⟨limiter, hadd, hgrow⟩ := Option.bind_eq_some_iff.mp hgrow
  obtain rfl := Option.some.inj hgrow
  obtain ⟨_, hadd⟩ := Option.ite_none_right_eq_some.mp hadd
  obtain rfl := Option.some.inj hadd
  exact h.give _

theorem served_shrink {s s' : RefreshPermits} {target : Nat} (h : s.limiter.Served)
    (hshrink : s.shrink target = some s') : s'.limiter.Served := by
  unfold RefreshPermits.shrink at hshrink
  obtain ⟨shrink, _, hshrink⟩ := Option.bind_eq_some_iff.mp hshrink
  obtain ⟨_, _, hshrink⟩ := Option.bind_eq_some_iff.mp hshrink
  obtain rfl := Option.some.inj hshrink
  exact h.forgetPermits shrink

theorem settle_spec {s s' : RefreshPermits} (h : s.settle = some s') :
    s'.capacity = s.capacity ∧ (s.limiter.Served → s'.limiter.Served) := by
  unfold RefreshPermits.settle at h
  split at h
  · obtain ⟨_, _, h⟩ := Option.bind_eq_some_iff.mp h
    obtain rfl := Option.some.inj h
    exact ⟨rfl, fun hserved => hserved.forgetPermits s.shrinkDebt⟩
  · obtain rfl := Option.some.inj h
    exact ⟨rfl, id⟩

/-- Nobody ever waits while a permit is free. -/
theorem served_step {s s' : RefreshPermits} {op : PermitOp} (h : s.limiter.Served)
    (hstep : s.step op = some s') : s'.limiter.Served := by
  cases op with
  | resize maxConcurrent =>
    unfold RefreshPermits.step resize at hstep
    dsimp only at hstep
    split at hstep
    · exact served_grow h hstep
    · exact served_shrink h hstep
  | settle => exact (settle_spec hstep).2 h
  | acquire =>
    obtain rfl := Option.some.inj hstep
    exact h.acquire
  | release =>
    obtain ⟨limiter, hlimiter, rfl⟩ := Option.map_eq_some_iff.mp hstep
    exact h.release hlimiter
  | abandon =>
    obtain rfl := Option.some.inj hstep
    exact h.abandon

/-- Only a resize changes the capacity. -/
theorem capacity_step {s s' : RefreshPermits} {op : PermitOp} (hstep : s.step op = some s')
    (hop : ∀ n, op ≠ .resize n) : s'.capacity = s.capacity := by
  cases op with
  | resize maxConcurrent => exact absurd rfl (hop maxConcurrent)
  | settle => exact (settle_spec hstep).1
  | acquire | abandon =>
    obtain rfl := Option.some.inj hstep
    rfl
  | release =>
    obtain ⟨limiter, _, rfl⟩ := Option.map_eq_some_iff.mp hstep
    rfl

/-- **Permits are conserved** over every run: free and held ones are the
capacity plus the debt, nothing underflows or panics, and once everything has
come back one settlement leaves exactly the capacity. -/
theorem permits_conserved {maxConcurrent : Nat} (hnew : maxConcurrent ≤ Semaphore.maxPermits)
    {s : RefreshPermits} (h : Runs.Reach step Allowed (new maxConcurrent) s) :
    s.limiter.available + s.limiter.held = s.capacity + s.shrinkDebt ∧ 1 ≤ s.capacity ∧
    (∀ op, s.Allowed op → ∃ s', s.step op = some s') ∧
    (s.limiter.held = 0 → ∃ s', s.step .settle = some s' ∧
      s'.limiter.available + s'.limiter.held = s.capacity ∧ s'.capacity = s.capacity) := by
  have hbalanced := reached_balanced hnew h
  refine ⟨hbalanced.total, hbalanced.capacity, ?_, ?_⟩
  · intro op hop
    obtain ⟨s', hs', _⟩ := hbalanced.step hop
    exact ⟨s', hs'⟩
  · intro hheld
    obtain ⟨s', hs', _, hcapacity, hsettled⟩ := hbalanced.settle
    exact ⟨s', hs', (hsettled hheld).trans hcapacity, hcapacity⟩

/-- Both of two permits are out when the limit shrinks to one; one of them
comes back, and the next acquisition settles the debt with it. -/
def shrinkUnderLoad : List PermitOp :=
  [.settle, .acquire, .settle, .acquire, .resize 1, .release, .settle, .release]

theorem shrinkUnderLoad_conserved : ∃ s : RefreshPermits,
    Runs.exec step (new 2) shrinkUnderLoad = some s ∧
    s.limiter.available + s.limiter.held = s.capacity + s.shrinkDebt ∧ 1 ≤ s.capacity ∧
    (∀ op, s.Allowed op → ∃ s', s.step op = some s') ∧
    (s.limiter.held = 0 → ∃ s', s.step .settle = some s' ∧
      s'.limiter.available + s'.limiter.held = s.capacity ∧ s'.capacity = s.capacity) := by
  have hone : 1 ≤ Semaphore.maxPermits := by decide
  have hmeets : Runs.Meets step Allowed (new 2) shrinkUnderLoad :=
    ⟨trivial, trivial, trivial, trivial, hone, Nat.two_pos, trivial, Nat.one_pos, trivial⟩
  have hexec : Runs.exec step (new 2) shrinkUnderLoad = some ⟨⟨1, 0, 0⟩, 1, 0⟩ := rfl
  exact ⟨_, hexec, permits_conserved (by decide) (Runs.Reach.start.of_meets hmeets hexec)⟩

end RefreshPermits

end UnifiedApi
