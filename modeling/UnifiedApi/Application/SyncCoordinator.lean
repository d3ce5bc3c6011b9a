import UnifiedApi.Application.SyncRequest
import UnifiedApi.Lib.FifoLock
import UnifiedApi.Lib.Runs

/-! # The syncs of one source, in any interleaving

A call loads the counter of completed full syncs, queues for the source's lock
and compares the counter once it has it. The lock is held until the call
returns, or until its caller gives up and drops it. -/

namespace UnifiedApi

/-- Only a plain full sync can stand in for another. -/
def SyncRequest.coalescable (request : SyncRequest) : Bool :=
  request.scope = .full && !request.refreshOrigin

/-- Where a call stands in `sync_source`. A gather carries the moment at which
its connector was started; one that ended, if it succeeded. -/
inductive SyncPhase where
  | loaded
  | queued
  | acquired
  | ready
  | gathering (started : Nat)
  | ended (gathered : Option Nat)
  | counted
  | coalesced
  | returned
  | dropped
  deriving DecidableEq

namespace SyncPhase

/-- The guard is alive. -/
def holds : SyncPhase → Bool
  | acquired | ready | gathering _ | ended _ | counted | coalesced => true
  | _ => false

/-- There is an await at which the call can be dropped. -/
def droppable : SyncPhase → Bool
  | queued | ready | gathering _ | ended _ => true
  | _ => false

/-- The start of a gather that runs, or that succeeded and is not counted. -/
def gatherStarted : SyncPhase → Option Nat
  | gathering started => some started
  | ended gathered => gathered
  | _ => none

/-- Counted, if there was something to count. -/
def done : SyncPhase → Bool
  | counted | returned => true
  | _ => false

/-- The connector was started before that moment, or will not be any more. -/
def Past (phase : SyncPhase) (began : Nat) : Prop :=
  match phase with
  | gathering started | ended (some started) => started < began
  | ended none | counted | returned | dropped => True
  | loaded | queued | acquired | ready | coalesced => False

theorem holds_of_gatherStarted {phase : SyncPhase} {started : Nat}
    (h : phase.gatherStarted = some started) : phase.holds = true := by
  cases phase <;> first | rfl | cases h

theorem not_done_of_gatherStarted {phase : SyncPhase} {started : Nat}
    (h : phase.gatherStarted = some started) : phase.done = false := by
  cases phase <;> first | rfl | cases h

theorem past_of_gatherStarted {phase : SyncPhase} {started began : Nat}
    (h : phase.gatherStarted = some started) (hlt : started < began) : phase.Past began := by
  cases phase with
  | gathering _ =>
    obtain rfl := Option.some.inj h
    exact hlt
  | ended gathered =>
    obtain rfl : gathered = some started := h
    exact hlt
  | _ => cases h

end SyncPhase

/-- What a call is from its start on. The last three fields are history: the
moment it began, how many full syncs were completed and which was in flight. -/
structure SyncStart where
  request : SyncRequest
  fullSyncsBefore : UInt64
  began : Nat
  completedBefore : Nat
  inFlight : Option Nat
  deriving DecidableEq

structure SyncCall where
  start : SyncStart
  phase : SyncPhase := .loaded
  deriving DecidableEq

/-- A plain full sync that completed: the call, and the start of its connector. -/
structure FullSync where
  id : Nat
  started : Nat
  deriving DecidableEq

/-- The lock and the counter of a source, and the calls by number. The clock
and the completed full syncs, oldest first, are history. -/
structure SyncState where
  lock : FifoLock Nat := {}
  fullSyncs : UInt64 := 0
  calls : List SyncCall := []
  clock : Nat := 0
  completed : List FullSync := []
  deriving DecidableEq

/-- A step of one call; it can fail before its connector runs. -/
inductive SyncStep where
  | enqueue
  | compare
  | fail
  | gatherStart
  | gatherEnd (success : Bool)
  | bump
  | return
  | drop
  deriving DecidableEq

/-- The lock itself decides who gets it. -/
inductive SyncLabel where
  | begin (request : SyncRequest)
  | acquire
  | call (id : Nat) (step : SyncStep)
  deriving DecidableEq

namespace SyncCall

def coalescable (call : SyncCall) : Bool := call.start.request.coalescable

/-- A plain full sync between the start of its connector and the counter. -/
def inFlight (call : SyncCall) : Bool := call.coalescable && call.phase.gatherStarted.isSome

/-- Nothing is left to do but to hand back the lock. -/
def returns (call : SyncCall) : Bool :=
  match call.phase with
  | .coalesced | .counted | .ended none => true
  | .ended (some _) => !call.coalescable
  | _ => false

/-- What the call does once it has the lock. -/
def compare (call : SyncCall) (fullSyncs : UInt64) : SyncPhase :=
  if call.coalescable && fullSyncs != call.start.fullSyncsBefore then .coalesced else .ready

theorem compare_gatherStarted (call : SyncCall) (fullSyncs : UInt64) :
    (call.compare fullSyncs).gatherStarted = none := by
  unfold compare
  split <;> rfl

/-- Only a counter that moved sends a call home. -/
theorem ne_of_compare {call : SyncCall} {fullSyncs : UInt64}
    (h : call.compare fullSyncs = .coalesced) : fullSyncs ≠ call.start.fullSyncsBefore := by
  unfold compare at h
  split at h
  · rename_i hmoved
    rw [Bool.and_eq_true, bne_iff_ne] at hmoved
    exact hmoved.2
  · cases h

end SyncCall

namespace SyncState

/-- The plain full sync that is past the start of its connector and not yet
counted, if there is one: it has the lock. -/
def inFlight (s : SyncState) : Option Nat :=
  s.lock.holder.filter fun id => s.calls[id]?.any (·.inFlight)

/-- The entry is looked up and the counter loaded. -/
def begin (s : SyncState) (request : SyncRequest) : SyncState :=
  let start :=
    { request, fullSyncsBefore := s.fullSyncs, began := s.clock,
      completedBefore := s.completed.length, inFlight := s.inFlight }
  { s with calls := s.calls ++ [{ start }], clock := s.clock + 1 }

def move (s : SyncState) (id : Nat) (call : SyncCall) (phase : SyncPhase) : SyncState :=
  { s with calls := s.calls.set id { call with phase }, clock := s.clock + 1 }

def stepCall (s : SyncState) (id : Nat) (call : SyncCall) : SyncStep → Option SyncState
  | .enqueue =>
    if call.phase = .loaded then some { s.move id call .queued with lock := s.lock.enqueue id }
    else none
  | .compare =>
    if call.phase = .acquired then some (s.move id call (call.compare s.fullSyncs)) else none
  | .fail => if call.phase = .ready then some (s.move id call (.ended none)) else none
  | .gatherStart =>
    if call.phase = .ready then some (s.move id call (.gathering s.clock)) else none
  | .gatherEnd success => match call.phase with
    | .gathering started =>
      some (s.move id call (.ended (if success then some started else none)))
    | _ => none
  | .bump => match call.phase with
    | .ended (some started) =>
      if call.coalescable then
        some { s.move id call .counted with
          fullSyncs := s.fullSyncs + 1, completed := s.completed ++ [⟨id, started⟩] }
      else none
    | _ => none
  | .return =>
    if call.returns then some { s.move id call .returned with lock := s.lock.release } else none
  | .drop =>
    if call.phase.droppable then
      some { s.move id call .dropped with
        lock := if call.phase.holds then s.lock.release else s.lock.withdraw id }
    else none

def step (s : SyncState) : SyncLabel → Option SyncState
  | .begin request => some (s.begin request)
  | .acquire => s.lock.acquire.bind fun (id, lock) => s.calls[id]?.bind fun call =>
    if call.phase = .queued then some { s.move id call .acquired with lock } else none
  | .call id own => s.calls[id]?.bind fun call => s.stepCall id call own

/-- A full sync that started after this call began has completed. -/
def FreshFor (s : SyncState) (call : SyncCall) : Prop :=
  ∃ sync ∈ s.completed, call.start.began < sync.started

instance (s : SyncState) (call : SyncCall) : Decidable (s.FreshFor call) :=
  inferInstanceAs (Decidable (∃ sync ∈ s.completed, _))

/-- Reached by any interleaving of any number of calls. -/
abbrev Reached (s : SyncState) : Prop := Runs.Reach step Runs.Any {} s

/-! ## What a step can do -/

/-- What the step `s → s'` does to `call`, which it moves to `phase`. -/
structure Moves (s s' : SyncState) (id : Nat) (call : SyncCall) (phase : SyncPhase) : Prop where
  calls : s'.calls = s.calls.set id { call with phase }
  clock : s'.clock = s.clock + 1
  lock : (s'.lock.holder = s.lock.holder ∧ (phase.holds → call.phase.holds)) ∨
    s.lock.acquire = some (id, s'.lock) ∨
    (call.phase.holds ∧ phase.holds = false ∧ s'.lock = s.lock.release)
  counted : (s'.fullSyncs = s.fullSyncs ∧ s'.completed = s.completed) ∨
    ∃ started, call.phase = .ended (some started) ∧ call.coalescable ∧ phase = .counted ∧
      s'.fullSyncs = s.fullSyncs + 1 ∧ s'.completed = s.completed ++ [⟨id, started⟩]
  gathering : ∀ started, phase.gatherStarted = some started →
    call.phase.gatherStarted = some started ∨ (call.phase = .ready ∧ started = s.clock)
  past : ∀ began, call.phase.Past began → phase.Past began
  done : call.phase.done → phase.done
  coalesced : phase = .coalesced → s.fullSyncs ≠ call.start.fullSyncsBefore

theorem stepCall_moves {s s' : SyncState} {id : Nat} {call : SyncCall} {own : SyncStep}
    (h : s.stepCall id call own = some s') : ∃ phase, Moves s s' id call phase := by
  obtain ⟨start, phase⟩ := call
  cases own with
  | enqueue =>
    obtain ⟨rfl, h⟩ := Option.ite_none_right_eq_some.mp h
    obtain rfl := Option.some.inj h
    exact ⟨.queued, rfl, rfl, .inl ⟨rfl, nofun⟩, .inl ⟨rfl, rfl⟩, nofun, nofun, nofun, nofun⟩
  | compare =>
    obtain ⟨rfl, h⟩ := Option.ite_none_right_eq_some.mp h
    obtain rfl := Option.some.inj h
    refine ⟨_, rfl, rfl, .inl ⟨rfl, fun _ => rfl⟩, .inl ⟨rfl, rfl⟩, ?_, nofun, nofun,
      SyncCall.ne_of_compare⟩
    intro started hstarted
    rw [SyncCall.compare_gatherStarted] at hstarted
    cases hstarted
  | fail =>
    obtain ⟨rfl, h⟩ := Option.ite_none_right_eq_some.mp h
    obtain rfl := Option.some.inj h
    exact ⟨.ended none, rfl, rfl, .inl ⟨rfl, fun _ => rfl⟩, .inl ⟨rfl, rfl⟩, nofun, nofun, nofun,
      nofun⟩
  | gatherStart =>
    obtain ⟨rfl, h⟩ := Option.ite_none_right_eq_some.mp h
    obtain rfl := Option.some.inj h
    refine ⟨.gathering s.clock, rfl, rfl, .inl ⟨rfl, fun _ => rfl⟩, .inl ⟨rfl, rfl⟩, ?_, nofun,
      nofun, nofun⟩
    intro started hstarted
    exact .inr ⟨rfl, (Option.some.inj hstarted).symm⟩
  | gatherEnd success =>
    cases phase with
    | gathering started =>
      obtain rfl := Option.some.inj h
      cases success with
      | false =>
        exact ⟨.ended none, rfl, rfl, .inl ⟨rfl, fun _ => rfl⟩, .inl ⟨rfl, rfl⟩, nofun,
          fun _ _ => trivial, nofun, nofun⟩
      | true =>
        exact ⟨.ended (some started), rfl, rfl, .inl ⟨rfl, fun _ => rfl⟩, .inl ⟨rfl, rfl⟩,
          fun _ hstarted => .inl hstarted, fun _ hpast => hpast, nofun, nofun⟩
    | _ => cases h
  | bump =>
    cases phase with
    | ended gathered =>
      cases gathered with
      | none => cases h
      | some started =>
        obtain ⟨hfull, h⟩ := Option.ite_none_right_eq_some.mp h
        obtain rfl := Option.some.inj h
        exact ⟨.counted, rfl, rfl, .inl ⟨rfl, fun _ => rfl⟩,
          .inr ⟨started, rfl, hfull, rfl, rfl, rfl⟩, nofun, fun _ _ => trivial, nofun, nofun⟩
    | _ => cases h
  | «return» =>
    obtain ⟨hreturns, h⟩ := Option.ite_none_right_eq_some.mp h
    obtain rfl := Option.some.inj h
    have hholds : phase.holds = true := by
      cases phase <;> first | rfl | cases hreturns
    exact ⟨.returned, rfl, rfl, .inr (.inr ⟨hholds, rfl, rfl⟩), .inl ⟨rfl, rfl⟩, nofun,
      fun _ _ => trivial, fun _ => rfl, nofun⟩
  | drop =>
    obtain ⟨hdroppable, h⟩ := Option.ite_none_right_eq_some.mp h
    obtain rfl := Option.some.inj h
    have hdone : phase.done ≠ true := by
      cases phase <;> first | exact Bool.false_ne_true | cases hdroppable
    refine ⟨.dropped, rfl, rfl, ?_, .inl ⟨rfl, rfl⟩, nofun, fun _ _ => trivial,
      fun h => absurd h hdone, nofun⟩
    cases hholds : phase.holds with
    | false => exact .inl ⟨by simp, nofun⟩
    | true => exact .inr (.inr ⟨rfl, rfl, by simp⟩)

theorem step_cases {s s' : SyncState} {label : SyncLabel} (h : s.step label = some s') :
    (∃ request, s' = s.begin request) ∨
    ∃ id call phase, s.calls[id]? = some call ∧ Moves s s' id call phase := by
  cases label with
  | begin request => exact .inl ⟨request, (Option.some.inj h).symm⟩
  | acquire =>
    obtain ⟨⟨id, lock⟩, hacquire, h⟩ := Option.bind_eq_some_iff.mp h
    obtain ⟨⟨start, phase⟩, hcall, h⟩ := Option.bind_eq_some_iff.mp h
    obtain ⟨rfl, h⟩ := Option.ite_none_right_eq_some.mp h
    obtain rfl := Option.some.inj h
    exact .inr ⟨id, _, .acquired, hcall, rfl, rfl, .inr (.inl hacquire), .inl ⟨rfl, rfl⟩, nofun,
      nofun, nofun, nofun⟩
  | call id own =>
    obtain ⟨call, hcall, h⟩ := Option.bind_eq_some_iff.mp h
    obtain ⟨phase, hmoves⟩ := stepCall_moves h
    exact .inr ⟨id, call, phase, hcall, hmoves⟩

end SyncState

end UnifiedApi
