import UnifiedApi.Application.RefreshPermits

/-! # After a shrink of the refresh limit

A shrink leaves as a debt the permits it could not take. An acquisition settles
what it can of the debt when it begins, before it asks for a permit. One that
waits has settled already, and a permit that comes back goes to it whatever the
debt is. -/

namespace UnifiedApi

/-- The permits, with the acquisitions that have settled and not yet asked, and
for each permit obtained since the shrink how many others were out then. -/
structure ShrinkRun where
  permits : RefreshPermits
  entering : Nat := 0
  shrunk : Bool := false
  othersHeld : List Nat := []
  deriving DecidableEq

/-- `settle` and `ask` are the two parts of an acquisition. Another task can act
between them. -/
inductive ShrinkOp where
  | settle
  | ask
  | release
  | abandon
  | shrink (maxConcurrent : Nat)
  deriving DecidableEq

namespace ShrinkRun

def new (maxConcurrent : Nat) : ShrinkRun := { permits := .new maxConcurrent }

/-- For a step that hands out a permit, how many permits are free for it: those
of the pool, or the one that comes back. -/
def free (s : ShrinkRun) : ShrinkOp → Option Nat
  | .ask => if 0 < s.permits.limiter.available then some s.permits.limiter.available else none
  | .release => if 0 < s.permits.limiter.waiting then some 1 else none
  | _ => none

/-- How many permits others hold when a step hands one out: the one that comes
back is no longer held. -/
def others (s : ShrinkRun) : ShrinkOp → Nat
  | .release => s.permits.limiter.held - 1
  | _ => s.permits.limiter.held

/-- Notes the permit a step handed out after the shrink. -/
def note (s : ShrinkRun) (op : ShrinkOp) : List Nat :=
  if s.shrunk ∧ (s.free op).isSome then s.others op :: s.othersHeld else s.othersHeld

/-- One shrink, to a smaller capacity; only a permit that is out comes back, and
only a call that waits gives up. -/
def step (s : ShrinkRun) (op : ShrinkOp) : Option ShrinkRun :=
  let othersHeld := s.note op
  match op with
  | .settle =>
    (s.permits.step .settle).map fun permits =>
      { s with permits, entering := s.entering + 1, othersHeld }
  | .ask =>
    if 0 < s.entering then
      (s.permits.step .acquire).map fun permits =>
        { s with permits, entering := s.entering - 1, othersHeld }
    else none
  | .release => (s.permits.step .release).map fun permits => { s with permits, othersHeld }
  | .abandon =>
    if 0 < s.permits.limiter.waiting then
      (s.permits.step .abandon).map fun permits => { s with permits, othersHeld }
    else none
  | .shrink maxConcurrent =>
    if s.shrunk = false ∧ max maxConcurrent 1 < s.permits.capacity then
      (s.permits.step (.resize maxConcurrent)).map fun permits =>
        { s with permits, shrunk := true, othersHeld }
    else none

/-- The permits' own operation behind a step. -/
def op : ShrinkOp → PermitOp
  | .settle => .settle
  | .ask => .acquire
  | .release => .release
  | .abandon => .abandon
  | .shrink maxConcurrent => .resize maxConcurrent

/-- What every step does: the permits' own operation, and the note. Only the
shrink changes whether there was one. -/
theorem step_spec {s s' : ShrinkRun} {l : ShrinkOp} (h : step s l = some s') :
    s.permits.step (op l) = some s'.permits ∧ s'.othersHeld = s.note l ∧
    ((∃ n, l = .shrink n ∧ s.shrunk = false ∧ max n 1 < s.permits.capacity) ∨
      (∀ n, l ≠ .shrink n) ∧ s'.shrunk = s.shrunk) := by
  cases l with
  | settle =>
    obtain ⟨permits, hpermits, rfl⟩ := Option.map_eq_some_iff.mp h
    exact ⟨hpermits, rfl, .inr ⟨by simp, rfl⟩⟩
  | ask =>
    obtain ⟨_, h⟩ := Option.ite_none_right_eq_some.mp h
    obtain ⟨permits, hpermits, rfl⟩ := Option.map_eq_some_iff.mp h
    exact ⟨hpermits, rfl, .inr ⟨by simp, rfl⟩⟩
  | release =>
    obtain ⟨permits, hpermits, rfl⟩ := Option.map_eq_some_iff.mp h
    exact ⟨hpermits, rfl, .inr ⟨by simp, rfl⟩⟩
  | abandon =>
    obtain ⟨_, h⟩ := Option.ite_none_right_eq_some.mp h
    obtain ⟨permits, hpermits, rfl⟩ := Option.map_eq_some_iff.mp h
    exact ⟨hpermits, rfl, .inr ⟨by simp, rfl⟩⟩
  | shrink n =>
    obtain ⟨⟨hfirst, hless⟩, h⟩ := Option.ite_none_right_eq_some.mp h
    obtain ⟨permits, hpermits, rfl⟩ := Option.map_eq_some_iff.mp h
    exact ⟨hpermits, rfl, .inl ⟨n, rfl, hfirst, hless⟩⟩

/-- Every permit is accounted for, nobody waits beside a free one, and nothing
is noted before the shrink. -/
structure Sound (s : ShrinkRun) : Prop where
  balanced : s.permits.Balanced
  served : s.permits.limiter.Served
  unshrunk : s.shrunk = false → s.othersHeld = []

theorem Sound.new {maxConcurrent : Nat} (h : maxConcurrent ≤ Semaphore.maxPermits) :
    (new maxConcurrent).Sound :=
  ⟨.new h, .inl rfl, fun _ => rfl⟩

theorem note_of_unshrunk {s : ShrinkRun} (h : s.shrunk = false) (l : ShrinkOp) :
    s.note l = s.othersHeld := by
  simp [note, h]

theorem Sound.allowed {s s' : ShrinkRun} {l : ShrinkOp} (h : s.Sound)
    (hstep : step s l = some s') : s.permits.Allowed (op l) := by
  obtain ⟨hpermits, _, hshrink⟩ := step_spec hstep
  cases l with
  | settle | ask | abandon => trivial
  | release =>
    obtain ⟨limiter, hlimiter, _⟩ := Option.map_eq_some_iff.mp hpermits
    exact (Option.ite_none_right_eq_some.mp hlimiter).1
  | shrink n =>
    obtain ⟨_, hn, _, hless⟩ | ⟨hother, _⟩ := hshrink
    · obtain rfl := ShrinkOp.shrink.inj hn
      have hlimit := h.balanced.limit
      have htotal := h.balanced.total
      show n ≤ Semaphore.maxPermits
      omega
    · exact absurd rfl (hother n)

theorem Sound.step {s s' : ShrinkRun} {l : ShrinkOp} (h : s.Sound)
    (hstep : step s l = some s') : s'.Sound := by
  obtain ⟨hpermits, hnote, hshrink⟩ := step_spec hstep
  refine ⟨h.balanced.of_step (h.allowed hstep) hpermits,
    RefreshPermits.served_step h.served hpermits, ?_⟩
  intro hunshrunk
  have hbefore : s.shrunk = false := by
    obtain ⟨_, _, hfirst, _⟩ | ⟨_, hsame⟩ := hshrink
    · exact hfirst
    · exact hsame ▸ hunshrunk
  rw [hnote, note_of_unshrunk hbefore, h.unshrunk hbefore]

/-- The debt is smaller than what is free for the permit that the step hands
out. For one that comes back to a call that waits: there is no debt left. -/
def Paid (s : ShrinkRun) (l : ShrinkOp) : Prop :=
  s.shrunk = true → ∀ free, s.free l = some free → s.permits.shrinkDebt < free

/-- The debt decides whether a permit handed out keeps within the capacity. -/
theorem Sound.others_lt_iff {s : ShrinkRun} {l : ShrinkOp} (h : s.Sound) {free : Nat}
    (hfree : s.free l = some free) (hallowed : s.permits.Allowed (op l)) :
    s.others l < s.permits.capacity ↔ s.permits.shrinkDebt < free := by
  have htotal : s.permits.limiter.available + s.permits.limiter.held =
    s.permits.capacity + s.permits.shrinkDebt := h.balanced.total
  cases l with
  | ask =>
    obtain ⟨_, hfree⟩ := Option.ite_none_right_eq_some.mp hfree
    obtain rfl := Option.some.inj hfree
    simp only [others]
    omega
  | release =>
    obtain ⟨hwaiting, hfree⟩ := Option.ite_none_right_eq_some.mp hfree
    obtain rfl := Option.some.inj hfree
    have hnone : s.permits.limiter.available = 0 := h.served.resolve_left (by omega)
    have hheld : 0 < s.permits.limiter.held := hallowed
    simp only [others]
    omega
  | settle | abandon | shrink _ => cases hfree

/-- Every permit obtained since the shrink was obtained within the capacity. -/
def Converged (s : ShrinkRun) : Prop := ∀ held ∈ s.othersHeld, held < s.permits.capacity

theorem Converged.step {s s' : ShrinkRun} {l : ShrinkOp} (hsound : s.Sound) (h : s.Converged)
    (hpaid : s.Paid l) (hstep : step s l = some s') : s'.Converged := by
  obtain ⟨hpermits, hnote, hshrink⟩ := step_spec hstep
  obtain ⟨n, rfl, hfirst, _⟩ | ⟨hother, _⟩ := hshrink
  · intro held hheld
    rw [hnote, note_of_unshrunk hfirst, hsound.unshrunk hfirst] at hheld
    cases hheld
  · have hcapacity : s'.permits.capacity = s.permits.capacity := by
      refine RefreshPermits.capacity_step hpermits fun n hn => ?_
      cases l with
      | shrink m => exact hother m rfl
      | settle | ask | release | abandon => cases hn
    intro held hheld
    rw [hcapacity]
    rw [hnote, note] at hheld
    split at hheld
    · rename_i hgrant
      obtain rfl | hold := List.mem_cons.mp hheld
      · obtain ⟨free, hfree⟩ := Option.isSome_iff_exists.mp hgrant.2
        exact (hsound.others_lt_iff hfree (hsound.allowed hstep)).mpr (hpaid hgrant.1 free hfree)
      · exact h held hold
    · exact h held hheld

/-- A step that hands out a permit past the debt breaks the bound. -/
theorem Sound.not_converged {s s' : ShrinkRun} {l : ShrinkOp} (h : s.Sound)
    (hunpaid : ¬ s.Paid l) (hstep : ShrinkRun.step s l = some s') : ¬ s'.Converged := by
  unfold Paid at hunpaid
  push Not at hunpaid
  obtain ⟨hshrunk, free, hfree, hdebt⟩ := hunpaid
  obtain ⟨hpermits, hnote, hshrink⟩ := step_spec hstep
  have hover : s.permits.capacity ≤ s.others l := by
    have hiff := h.others_lt_iff hfree (h.allowed hstep)
    omega
  have hcapacity : s'.permits.capacity = s.permits.capacity := by
    refine RefreshPermits.capacity_step hpermits fun n hn => ?_
    cases l with
    | shrink m => cases hfree
    | settle | ask | release | abandon => cases hn
  intro hconverged
  have hmem : s.others l ∈ s'.othersHeld := by
    rw [hnote, note, if_pos ⟨hshrunk, Option.isSome_iff_exists.mpr ⟨free, hfree⟩⟩]
    exact List.mem_cons_self
  have hlt := hconverged _ hmem
  omega

theorem reached_sound {maxConcurrent : Nat} (hnew : maxConcurrent ≤ Semaphore.maxPermits)
    {ok : ShrinkRun → ShrinkOp → Prop} {s : ShrinkRun}
    (h : Runs.Reach step ok (new maxConcurrent) s) : s.Sound :=
  h.invariant (Sound.new hnew) fun _ _ _ hsound _ hstep => hsound.step hstep

/-- **Convergence after a shrink.** In every run in which each permit handed out
after the shrink finds more free permits than debt, each is obtained while fewer
than the new capacity are held; and a run in which one does not goes past the
capacity with that very permit. -/
theorem shrink_converges {maxConcurrent : Nat} (hnew : maxConcurrent ≤ Semaphore.maxPermits) :
    (∀ s, Runs.Reach step Paid (new maxConcurrent) s → s.Converged) ∧
    ∀ s l s', Runs.Reach step Runs.Any (new maxConcurrent) s → step s l = some s' → ¬ s.Paid l →
      ¬ s'.Converged := by
  constructor
  · intro s h
    have hnone : (new maxConcurrent).Converged := fun _ hheld => absurd hheld List.not_mem_nil
    have hboth := h.invariant (P := fun s => s.Sound ∧ s.Converged) ⟨Sound.new hnew, hnone⟩
      fun s l s' hs hpaid hstep => ⟨hs.1.step hstep, hs.2.step hs.1 hpaid hstep⟩
    exact hboth.2
  · intro s l s' h hstep hunpaid
    exact (reached_sound hnew h).not_converged hunpaid hstep

/-- Both of two permits are out when the limit shrinks to one; both come back,
and the next call settles the debt before it asks. -/
def settledByNext : List ShrinkOp :=
  [.settle, .ask, .settle, .ask, .shrink 1, .release, .release, .settle, .ask]

theorem settledByNext_converges : ∃ s, Runs.exec step (new 2) settledByNext = some s ∧
    s.othersHeld = [0] ∧ s.Converged := by
  have hrun : Runs.exec step (new 2) settledByNext =
    some ⟨⟨⟨0, 1, 0⟩, 1, 0⟩, 0, true, [0]⟩ := rfl
  have hmeets : Runs.Meets step Paid (new 2) settledByNext := by
    simp [Runs.Meets, Paid, settledByNext, step, new, RefreshPermits.new, RefreshPermits.step,
      RefreshPermits.settle, RefreshPermits.resize, RefreshPermits.shrink, usizeSub, free,
      Semaphore.acquire, Semaphore.release, Semaphore.give, Semaphore.forgetPermits]
  exact ⟨_, hrun, rfl, (shrink_converges (by decide)).1 _ (Runs.Reach.start.of_meets hmeets hrun)⟩

/-- Two refreshes hold the two permits and a third waits; the limit shrinks to
one, and one of the two finishes. -/
def queuedThroughShrink : List ShrinkOp :=
  [.settle, .ask, .settle, .ask, .settle, .ask, .shrink 1, .release]

/-- The permit that comes back goes to the third while the second still runs:
one held, of a capacity of one. -/
theorem queuedThroughShrink_not_converged : ¬ ∀ maxConcurrent ≤ Semaphore.maxPermits, ∀ s,
    Runs.Reach step Runs.Any (new maxConcurrent) s → s.Converged := by
  intro h
  have hrun : Runs.exec step (new 2) queuedThroughShrink =
    some ⟨⟨⟨0, 2, 0⟩, 1, 1⟩, 0, true, [1]⟩ := rfl
  have hlt : 1 < 1 := h 2 (by decide) _ (Runs.Reach.start.of_exec hrun) 1 (by simp)
  omega

end ShrinkRun

end UnifiedApi
