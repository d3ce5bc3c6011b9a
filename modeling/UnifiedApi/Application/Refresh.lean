import Mathlib.Data.List.Sort
import Mathlib.Data.String.Basic
import UnifiedApi.Cache.MemoryCache
import UnifiedApi.Domain.Source
import UnifiedApi.Lib.FifoLock
import UnifiedApi.Lib.Runs
import UnifiedApi.Lib.Waiting

/-! # On-demand refreshes and their per-host locks

A refresh locks the stale ones of the hosts it is asked for, one after the
other, before it looks again and syncs. What it does under the locks asks for
none of them; whenever it ends, or is dropped by its caller, its guards go. -/

namespace UnifiedApi

open Clock

/-- Which of the named hosts are outside their TTL; what is not cached is. -/
def staleHosts (cache : MemoryCache) (source : Source) (sourceId : String) (hosts : List String)
    (ttlOverride : Option Nat) (now : Nat) : List String :=
  match cache.get sourceId with
  | none => hosts
  | some entry =>
    let groupTtls := source.groupTtlByHost entry.dataset
    let defaultTtl := ttlOverride.getD (asSecs entry.ttl)
    hosts.filter fun hostname =>
      !entry.isHostFresh hostname (some (source.effectiveTtl hostname groupTtls defaultTtl)) now

section Stale
variable {cache : MemoryCache} {source : Source} {sourceId hostname : String}
  {hosts : List String} {ttlOverride : Option Nat} {now : Nat}

theorem mem_of_mem_staleHosts
    (h : hostname ∈ staleHosts cache source sourceId hosts ttlOverride now) :
    hostname ∈ hosts := by
  unfold staleHosts at h
  split at h
  · exact h
  · exact (List.mem_filter.mp h).1

theorem mem_staleHosts_of_cached {entry : CacheEntry} (h : cache.get sourceId = some entry) :
    hostname ∈ staleHosts cache source sourceId hosts ttlOverride now ↔
      hostname ∈ hosts ∧ entry.isHostFresh hostname (some (source.effectiveTtl hostname
        (source.groupTtlByHost entry.dataset)
        (ttlOverride.getD (asSecs entry.ttl)))) now = false := by
  unfold staleHosts
  rw [h]
  simp only [List.mem_filter, Bool.not_eq_true']

end Stale

/-- What `refresh_hosts` is called with, and the cache and clock it finds. -/
structure RefreshRequest where
  cache : MemoryCache
  source : Source
  sourceId : String
  hosts : List String
  ttlOverride : Option Nat
  now : Nat

namespace RefreshRequest

def stale (request : RefreshRequest) : List String :=
  staleHosts request.cache request.source request.sourceId request.hosts request.ttlOverride
    request.now

/-- The stale hosts in the order in which they are locked. -/
def ordered (request : RefreshRequest) : List String := request.stale.mergeSort (· ≤ ·)

end RefreshRequest

/-- One lock for each source and host. -/
structure LockKey where
  sourceId : String
  hostname : String
  deriving DecidableEq

inductive RefreshPhase where
  /-- Between two locks, or past the last. -/
  | running
  | queued
  | leaving
  deriving DecidableEq

/-- A call: the hosts whose locks it has and those it has still to lock. -/
structure RefreshCall where
  sourceId : String
  guards : List String := []
  todo : List String
  phase : RefreshPhase := .running
  deriving DecidableEq

structure RefreshState where
  locks : LockKey → FifoLock Nat := fun _ => {}
  calls : List RefreshCall := []

inductive RefreshStep where
  /-- The next host's lock is asked for. -/
  | lock
  | finish
  /-- Dropped at an await. -/
  | drop
  | release
  deriving DecidableEq

inductive RefreshLabel where
  | begin (request : RefreshRequest)
  /-- A free lock goes to the head of its line. -/
  | grant (key : LockKey)
  | call (id : Nat) (step : RefreshStep)

namespace RefreshCall

def key (call : RefreshCall) (hostname : String) : LockKey := ⟨call.sourceId, hostname⟩

/-- The lock the call waits for. -/
def wants (call : RefreshCall) : Option LockKey :=
  if call.phase = .queued then call.todo.head?.map call.key else none

theorem wants_eq_some {call : RefreshCall} {key : LockKey} (h : call.wants = some key) :
    key.sourceId = call.sourceId ∧ ∃ rest, call.todo = key.hostname :: rest := by
  obtain ⟨_, h⟩ := Option.ite_none_right_eq_some.mp h
  obtain ⟨hostname, hhead, rfl⟩ := Option.map_eq_some_iff.mp h
  exact ⟨rfl, List.head?_eq_some_iff.mp hhead⟩

end RefreshCall

namespace RefreshState

def move (s : RefreshState) (id : Nat) (call : RefreshCall) (key : LockKey)
    (lock : FifoLock Nat) : RefreshState :=
  { locks := Function.update s.locks key lock, calls := s.calls.set id call }

/-- No host that is stale, no lock. -/
def begin (s : RefreshState) (request : RefreshRequest) : RefreshState :=
  { s with calls := s.calls ++ [{ sourceId := request.sourceId, todo := request.ordered }] }

def stepCall (s : RefreshState) (id : Nat) (call : RefreshCall) : RefreshStep → Option RefreshState
  | .lock => match call.phase, call.todo with
    | .running, hostname :: _ =>
      let key := call.key hostname
      some (s.move id { call with phase := .queued } key ((s.locks key).enqueue id))
    | _, _ => none
  | .finish => match call.phase, call.todo with
    | .running, [] => some { s with calls := s.calls.set id { call with phase := .leaving } }
    | _, _ => none
  | .drop => match call.phase, call.todo with
    | .queued, hostname :: _ =>
      let key := call.key hostname
      some (s.move id { call with phase := .leaving } key ((s.locks key).withdraw id))
    | .running, [] => some { s with calls := s.calls.set id { call with phase := .leaving } }
    | _, _ => none
  | .release => match call.phase, call.guards with
    | .leaving, hostname :: rest =>
      let key := call.key hostname
      some (s.move id { call with guards := rest } key (s.locks key).release)
    | _, _ => none

def step (s : RefreshState) : RefreshLabel → Option RefreshState
  | .begin request => some (s.begin request)
  | .grant key => (s.locks key).acquire.bind fun (id, lock) => s.calls[id]?.bind fun call =>
    if call.wants = some key then
      some (s.move id { call with
        guards := call.guards ++ [key.hostname], todo := call.todo.tail, phase := .running }
        key lock)
    else none
  | .call id own => s.calls[id]?.bind fun call => s.stepCall id call own

/-- The lock table says that call `id` has the lock. -/
def Holds (s : RefreshState) (id : Nat) (key : LockKey) : Prop := (s.locks key).holder = some id

/-- Call `id` waits in the line of the lock. -/
def Wants (s : RefreshState) (id : Nat) (key : LockKey) : Prop :=
  ∃ call, s.calls[id]? = some call ∧ call.wants = some key

/-- Calls that wait for each other's locks in a circle, or one for its own. -/
def Deadlock (s : RefreshState) : Prop := Waiting.Deadlock s.Holds s.Wants

/-- Only requests that meet the condition. -/
def Admits (admits : RefreshRequest → Prop) (_ : RefreshState) (label : RefreshLabel) : Prop :=
  ∀ request, label = .begin request → admits request

/-- Reached by any interleaving of any number of such refreshes. -/
abbrev Reached (admits : RefreshRequest → Prop) (s : RefreshState) : Prop :=
  Runs.Reach step (Admits admits) {} s

/-! ## What a step can do -/

/-- What the step `s → s'` does with `call`, which becomes `call'`: it takes
hosts from the front of its list and drops guards from the front, and whoever
holds a lock afterwards held it before or is this call. -/
structure Moves (s s' : RefreshState) (id : Nat) (call call' : RefreshCall) : Prop where
  calls : s'.calls = s.calls.set id call'
  sourceId : call'.sourceId = call.sourceId
  hosts : (call'.guards ++ call'.todo).Sublist (call.guards ++ call.todo)
  holds : ∀ other key, s'.Holds other key →
    (other = id ∧ call.sourceId = key.sourceId ∧ key.hostname ∈ call'.guards) ∨
    (s.Holds other key ∧ (call.sourceId = key.sourceId → key.hostname ∈ call.guards →
      key.hostname ∈ call'.guards))

theorem move_locks (s : RefreshState) (id : Nat) (call : RefreshCall) (key other : LockKey)
    (lock : FifoLock Nat) :
    (s.move id call key lock).locks other = if other = key then lock else s.locks other :=
  Function.update_apply s.locks key lock other

/-- A lock that changes its line, but not its holder. -/
theorem holds_of_move {s : RefreshState} {id : Nat} {call : RefreshCall} {key : LockKey}
    {lock : FifoLock Nat} (h : lock.holder = (s.locks key).holder) {other : Nat} {held : LockKey}
    (hholds : (s.move id call key lock).Holds other held) : s.Holds other held := by
  rw [Holds, move_locks] at hholds
  split at hholds
  · rename_i hkey
    rw [Holds, hkey, ← h]
    exact hholds
  · exact hholds

theorem stepCall_moves {s s' : RefreshState} {id : Nat} {call : RefreshCall} {own : RefreshStep}
    (h : s.stepCall id call own = some s') : ∃ call', Moves s s' id call call' := by
  unfold stepCall at h
  split at h
  · -- a lock is asked for
    split at h
    · obtain rfl := Option.some.inj h
      refine ⟨_, rfl, rfl, List.Sublist.refl _, fun other key hholds =>
        .inr ⟨?_, fun _ hguard => hguard⟩⟩
      exact holds_of_move (FifoLock.holder_enqueue _ _) hholds
    · cases h
  · split at h
    · obtain rfl := Option.some.inj h
      exact ⟨_, rfl, rfl, List.Sublist.refl _, fun _ _ hholds =>
        .inr ⟨hholds, fun _ hguard => hguard⟩⟩
    · cases h
  · split at h
    · -- the line is left
      obtain rfl := Option.some.inj h
      refine ⟨_, rfl, rfl, List.Sublist.refl _, fun other key hholds =>
        .inr ⟨?_, fun _ hguard => hguard⟩⟩
      exact holds_of_move (FifoLock.holder_withdraw _ _) hholds
    · obtain rfl := Option.some.inj h
      exact ⟨_, rfl, rfl, List.Sublist.refl _, fun _ _ hholds =>
        .inr ⟨hholds, fun _ hguard => hguard⟩⟩
    · cases h
  · split at h
    · -- a guard goes
      rename_i hostname rest _ hguards
      obtain rfl := Option.some.inj h
      refine ⟨_, rfl, rfl, ?_, fun other key hholds => .inr ?_⟩
      · rw [hguards]
        exact List.sublist_cons_self _ _
      · rw [Holds, move_locks] at hholds
        split at hholds
        · cases hholds
        · rename_i hkey
          refine ⟨hholds, fun hsource hguard => ?_⟩
          rw [hguards] at hguard
          rcases List.mem_cons.mp hguard with heq | hrest
          · exact absurd (show key = ⟨call.sourceId, hostname⟩ by rw [hsource, ← heq]) hkey
          · exact hrest
    · cases h

theorem step_cases {s s' : RefreshState} {label : RefreshLabel} (h : s.step label = some s') :
    (∃ request, label = .begin request ∧ s' = s.begin request) ∨
    ∃ id call call', s.calls[id]? = some call ∧ Moves s s' id call call' := by
  cases label with
  | begin request => exact .inl ⟨request, rfl, (Option.some.inj h).symm⟩
  | grant key =>
    obtain ⟨⟨id, lock⟩, hacquire, h⟩ := Option.bind_eq_some_iff.mp h
    obtain ⟨call, hcall, h⟩ := Option.bind_eq_some_iff.mp h
    obtain ⟨hwants, h⟩ := Option.ite_none_right_eq_some.mp h
    obtain rfl := Option.some.inj h
    obtain ⟨hsource, rest, htodo⟩ := RefreshCall.wants_eq_some hwants
    refine .inr ⟨id, call, _, hcall, rfl, rfl, ?_, ?_⟩
    · show ((call.guards ++ [key.hostname]) ++ call.todo.tail).Sublist (call.guards ++ call.todo)
      rw [htodo, List.append_assoc]
      exact List.Sublist.refl _
    · intro other held hholds
      rw [Holds, move_locks] at hholds
      split at hholds
      · rename_i hkey
        obtain ⟨_, _, _, rfl⟩ := FifoLock.acquire_eq_some hacquire
        refine .inl ⟨(Option.some.inj hholds).symm, hkey ▸ hsource.symm, ?_⟩
        rw [hkey]
        exact List.mem_append_right _ (List.mem_singleton_self _)
      · exact .inr ⟨hholds, fun _ hguard => List.mem_append_left _ hguard⟩
  | call id own =>
    obtain ⟨call, hcall, h⟩ := Option.bind_eq_some_iff.mp h
    obtain ⟨call', hmoves⟩ := stepCall_moves h
    exact .inr ⟨id, call, call', hcall, hmoves⟩

end RefreshState

end UnifiedApi
