import Mathlib.Data.List.Range
import Mathlib.Tactic.Linarith

/-! # The scheduler's backoff

Periodic syncs, enricher runs and project pulls share one piece of bookkeeping:
a count of failures in a row and how many ticks to sit out. Both are `u32`; an
operation that would overflow is `none`. -/

namespace UnifiedApi.Scheduler

def u32Max : Nat := 2 ^ 32 - 1

def checkedAdd (a b : Nat) : Option Nat := if a + b ≤ u32Max then some (a + b) else none

def checkedSub (a b : Nat) : Option Nat := if b ≤ a then some (a - b) else none

def saturatingAdd (a b : Nat) : Nat := min (a + b) u32Max

def saturatingPow (base exponent : Nat) : Nat := min (base ^ exponent) u32Max

def maxBackoffIntervals : Nat := 8

/-- How many ticks a task sits out after a failure. -/
def ticksToSkip (consecutiveFailures : Nat) : Option Nat :=
  if consecutiveFailures = 0 then some 0
  else do
    let exponent ← checkedSub consecutiveFailures 1
    checkedSub (min (saturatingPow 2 exponent) maxBackoffIntervals) 1

structure Backoff where
  consecutiveFailures : Nat := 0
  skip : Nat := 0
  deriving DecidableEq

/-- The bookkeeping after an attempt; a success leaves `skip` as it is. -/
def Backoff.settle (failed : Bool) (backoff : Backoff) : Option Backoff :=
  if failed then do
    let consecutiveFailures := saturatingAdd backoff.consecutiveFailures 1
    let skip ← ticksToSkip consecutiveFailures
    some { consecutiveFailures, skip }
  else some { backoff with consecutiveFailures := 0 }

/-- What is logged of a failure: when the next attempt comes. -/
def Backoff.nextAttempt (backoff : Backoff) : Option Nat := checkedAdd backoff.skip 1

def scheduledSync (error : Option String) (backoff : Backoff) : Option Backoff := do
  let settled ← backoff.settle error.isSome
  if error.isSome then let _ ← settled.nextAttempt
  some settled

/-- No outcome is a target that is not in the cache, which counts as a failure. -/
def scheduledEnrichment (outcome : Option (Option String)) (backoff : Backoff) : Option Backoff :=
  backoff.settle (outcome.all (·.isSome))

def scheduledProjectPull (result : Except String Unit) (backoff : Backoff) : Option Backoff := do
  let settled ← backoff.settle !result.isOk
  if !result.isOk then let _ ← settled.nextAttempt
  some settled

/-! ## One attempt -/

theorem ticksToSkip_eq (k : Nat) : ticksToSkip (k + 1) = some (min (2 ^ k) 8 - 1) := by
  have hpos : 0 < 2 ^ k := Nat.two_pow_pos k
  have hcap : min (saturatingPow 2 k) maxBackoffIntervals = min (2 ^ k) 8 := by
    simp only [saturatingPow, u32Max, maxBackoffIntervals]
    omega
  simp only [ticksToSkip, checkedSub, Nat.succ_ne_zero, if_false, Nat.le_add_left, if_true,
    Nat.add_sub_cancel, Option.bind_eq_bind, Option.bind_some, hcap]
  exact if_pos (by omega)

/-- What a failure leaves behind, with the count no higher than it can be. -/
theorem settle_failed (backoff : Backoff) :
    backoff.settle true = some
      { consecutiveFailures := min (backoff.consecutiveFailures + 1) u32Max
        skip := min (2 ^ (min (backoff.consecutiveFailures + 1) u32Max - 1)) 8 - 1 } := by
  obtain ⟨k, hk⟩ : ∃ k, min (backoff.consecutiveFailures + 1) u32Max = k + 1 :=
    Nat.exists_eq_add_one_of_ne_zero (by simp only [u32Max]; omega)
  simp [Backoff.settle, saturatingAdd, hk, ticksToSkip_eq]

theorem nextAttempt_eq (backoff : Backoff) (h : backoff.skip < 8) :
    backoff.nextAttempt = some (backoff.skip + 1) := by
  rw [Backoff.nextAttempt, checkedAdd, if_pos]
  simp only [u32Max]
  omega

/-- The log line of a failure never overflows. -/
theorem settle_logged (failed : Bool) (backoff : Backoff) :
    (do
      let settled ← backoff.settle failed
      if failed then let _ ← settled.nextAttempt
      some settled) = backoff.settle failed := by
  cases failed with
  | false => simp [Backoff.settle]
  | true =>
    rw [settle_failed]
    generalize min (backoff.consecutiveFailures + 1) u32Max = consecutiveFailures
    have hskip : min (2 ^ (consecutiveFailures - 1)) 8 - 1 < 8 := by omega
    simp [nextAttempt_eq ⟨consecutiveFailures, _⟩ hskip]

/-- What a job does with its counters, from how its attempt ended. -/
structure Job (Outcome : Type) where
  failed : Outcome → Bool
  attempt : Outcome → Backoff → Option Backoff
  attempt_eq (outcome : Outcome) (backoff : Backoff) :
    attempt outcome backoff = backoff.settle (failed outcome)

def syncJob : Job (Option String) where
  failed error := error.isSome
  attempt := scheduledSync
  attempt_eq _ backoff := settle_logged _ backoff

def enrichmentJob : Job (Option (Option String)) where
  failed outcome := outcome.all (·.isSome)
  attempt := scheduledEnrichment
  attempt_eq _ _ := rfl

def projectJob : Job (Except String Unit) where
  failed result := !result.isOk
  attempt := scheduledProjectPull
  attempt_eq _ backoff := settle_logged _ backoff

/-! ## The loop -/

/-- A task after some ticks, with the ticks at which it made its attempts. -/
structure Loop where
  backoff : Backoff := {}
  ticks : Nat := 0
  attempts : List Nat := []

section
variable {Outcome : Type} (job : Job Outcome) (outcomes : Nat → Outcome)

/-- One tick of the interval, or one occurrence of the cron schedule;
`outcomes` has how each attempt in turn ends. -/
def Loop.tick (loop : Loop) : Option Loop :=
  if loop.backoff.skip > 0 then do
    let skip ← checkedSub loop.backoff.skip 1
    some { loop with backoff := { loop.backoff with skip }, ticks := loop.ticks + 1 }
  else do
    let backoff ← job.attempt (outcomes loop.attempts.length) loop.backoff
    some { backoff, ticks := loop.ticks + 1, attempts := loop.attempts ++ [loop.ticks] }

/-- The task after that many ticks since it was started. -/
def run : Nat → Option Loop
  | 0 => some {}
  | ticks + 1 => (run ticks).bind (Loop.tick job outcomes)

/-! ## When the attempts come -/

/-- How many attempts in a row had failed before this one. -/
def streak : Nat → Nat
  | 0 => 0
  | n + 1 => if job.failed (outcomes n) then streak n + 1 else 0

/-- From an attempt to the next: one tick after a success, and doubling up to 8
with each failure in a row. -/
def distance (n : Nat) : Nat :=
  if job.failed (outcomes n) then min (2 ^ (streak job outcomes (n + 1) - 1)) 8 else 1

/-- The tick of each attempt. -/
def attemptAt : Nat → Nat
  | 0 => 0
  | n + 1 => attemptAt n + distance job outcomes n

/-- What `n` attempts have left in the counters, and that the next is due when
the ticks to skip are over. -/
structure Loop.Due (n : Nat) (loop : Loop) : Prop where
  attempts : loop.attempts = (List.range n).map (attemptAt job outcomes)
  failures : loop.backoff.consecutiveFailures = min (streak job outcomes n) u32Max
  due : loop.ticks + loop.backoff.skip = attemptAt job outcomes n
  past : ∀ i < n, attemptAt job outcomes i < loop.ticks

variable {job outcomes}

/-- Past the cap of 8, a longer streak and a saturated one are the same. -/
theorem backoff_saturated (k : Nat) :
    min (2 ^ (min (k + 1) u32Max - 1)) 8 = min (2 ^ k) 8 := by
  have hcapped {e : Nat} (he : 3 ≤ e) : min (2 ^ e) 8 = 8 :=
    Nat.min_eq_right (Nat.pow_le_pow_right (Nat.zero_lt_two) he)
  by_cases hk : k + 1 ≤ u32Max
  · rw [Nat.min_eq_left hk, Nat.add_sub_cancel]
  · rw [hcapped, hcapped]
    all_goals
      simp only [u32Max] at hk ⊢
      omega

theorem Loop.Due.tick {n : Nat} {loop : Loop} (h : loop.Due job outcomes n) :
    ∃ loop', loop.tick job outcomes = some loop' ∧ loop'.ticks = loop.ticks + 1 ∧
      loop'.Due job outcomes (if loop.backoff.skip > 0 then n else n + 1) := by
  unfold Loop.tick
  by_cases hskip : loop.backoff.skip > 0
  · rw [if_pos hskip, checkedSub, if_pos (by omega)]
    refine ⟨_, rfl, rfl, ?_⟩
    rw [if_pos hskip]
    have := h.due
    exact ⟨h.attempts, h.failures, by simp only; omega, fun i hi => Nat.lt_succ_of_lt (h.past i hi)⟩
  · have hzero : loop.backoff.skip = 0 := by omega
    have hlength : loop.attempts.length = n := by simp [h.attempts]
    have hnow : loop.ticks = attemptAt job outcomes n := by
      have := h.due
      omega
    have hattempts : loop.attempts ++ [loop.ticks] =
        (List.range (n + 1)).map (attemptAt job outcomes) := by
      rw [List.range_succ, List.map_append, h.attempts, hnow]
      rfl
    have hpast : ∀ i < n + 1, attemptAt job outcomes i < loop.ticks + 1 := by
      intro i hi
      rcases Nat.lt_succ_iff_lt_or_eq.mp hi with hi | rfl
      · exact Nat.lt_succ_of_lt (h.past i hi)
      · omega
    rw [if_neg hskip, if_neg hskip, hlength, job.attempt_eq]
    cases hfailed : job.failed (outcomes n) with
    | false =>
      refine ⟨_, rfl, rfl, hattempts, ?_, ?_, hpast⟩
      · simp [streak, hfailed]
      · simp [attemptAt, distance, hfailed, hzero, hnow]
    | true =>
      rw [settle_failed, h.failures]
      refine ⟨_, rfl, rfl, hattempts, ?_, ?_, hpast⟩
      · simp only [streak, hfailed, if_true]
        omega
      · have hcount : min (min (streak job outcomes n) u32Max + 1) u32Max =
            min (streak job outcomes n + 1) u32Max := by omega
        have hpos : 0 < 2 ^ streak job outcomes n := Nat.two_pow_pos _
        simp only [attemptAt, distance, streak, hfailed, if_true, hcount, backoff_saturated,
          Nat.add_sub_cancel, hnow]
        omega

variable (job outcomes)

theorem run_due (ticks : Nat) :
    ∃ loop n, run job outcomes ticks = some loop ∧ loop.ticks = ticks ∧
      loop.Due job outcomes n := by
  induction ticks with
  | zero => exact ⟨{}, 0, rfl, rfl, rfl, rfl, rfl, by simp⟩
  | succ ticks ih =>
    obtain ⟨loop, n, hrun, hticks, hdue⟩ := ih
    obtain ⟨loop', htick, hticks', hdue'⟩ := hdue.tick
    exact ⟨loop', _, by rw [run, hrun, Option.bind_some, htick], by omega, hdue'⟩

theorem attemptAt_strictMono : StrictMono (attemptAt job outcomes) := by
  apply strictMono_nat_of_lt_succ
  intro n
  have hpos : 0 < distance job outcomes n := by
    unfold distance
    split
    · exact Nat.lt_min.mpr ⟨Nat.two_pow_pos _, by omega⟩
    · omega
  exact Nat.lt_add_of_pos_right hpos

end

/-- **Attempts back off.** However the attempts of a job end, no number of ticks
overflows a counter, and the ticks at which attempts were made are those of
`attemptAt`: the first one, and each next a `distance` later. -/
theorem run_spaced {Outcome : Type} (job : Job Outcome) (outcomes : Nat → Outcome) (ticks : Nat) :
    ∃ loop n, run job outcomes ticks = some loop ∧
      loop.attempts = (List.range n).map (attemptAt job outcomes) ∧
      ∀ i, attemptAt job outcomes i < ticks ↔ i < n := by
  obtain ⟨loop, n, hrun, hticks, hdue⟩ := run_due job outcomes ticks
  refine ⟨loop, n, hrun, hdue.attempts, fun i => ?_⟩
  constructor
  · intro hi
    apply (attemptAt_strictMono job outcomes).lt_iff_lt.mp
    have := hdue.due
    omega
  · intro hi
    exact hticks ▸ hdue.past i hi

example : (run syncJob (fun _ => some "timed out") 24).map Loop.attempts =
    some [0, 1, 3, 7, 15, 23] := by
  decide

end UnifiedApi.Scheduler
