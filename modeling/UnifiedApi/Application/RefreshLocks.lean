import UnifiedApi.Application.Refresh
import UnifiedApi.Lib.Slots

/-! # The order in which refreshes lock their hosts

Sorted lists make overlapping refreshes safe as long as no list names a host
twice: the lock is not reentrant. -/

namespace UnifiedApi

open Clock

namespace RefreshState

/-! ## What holds in every state reached -/

/-- Every call has its hosts in strict order, those that it has locked before
those that it has not, and whoever holds a lock has a guard of it. -/
structure Orderly (s : RefreshState) : Prop where
  ascending : ∀ (id : Nat) (call : RefreshCall), s.calls[id]? = some call →
    (call.guards ++ call.todo).Pairwise (· < ·)
  guarded : ∀ id key, s.Holds id key → ∃ call : RefreshCall, s.calls[id]? = some call ∧
    call.sourceId = key.sourceId ∧ key.hostname ∈ call.guards

theorem Orderly.initial : Orderly {} :=
  ⟨fun _ _ hcall => (nomatch hcall), fun _ _ hholds => (nomatch hholds)⟩

/-- Sorting puts a list without repetitions in strict order. -/
theorem ordered_pairwise {request : RefreshRequest} (h : request.stale.Nodup) :
    request.ordered.Pairwise (· < ·) := by
  have hnodup : request.ordered.Nodup := (List.mergeSort_perm _ _).nodup_iff.mpr h
  have hsorted : request.ordered.Pairwise (· ≤ ·) := List.pairwise_mergeSort' (· ≤ ·) _
  exact (hsorted.and hnodup).imp fun hab => lt_of_le_of_ne hab.1 hab.2

theorem Orderly.begin {s : RefreshState} (h : Orderly s) {request : RefreshRequest}
    (hstale : request.stale.Nodup) : Orderly (s.begin request) where
  ascending := by
    intro id call hcall
    obtain hold | ⟨_, rfl⟩ := Slots.getElem?_append_or hcall
    · exact h.ascending id call hold
    · exact ordered_pairwise hstale
  guarded := by
    intro id key hholds
    obtain ⟨call, hcall, hguard⟩ := h.guarded id key hholds
    exact ⟨call, Slots.getElem?_append hcall _, hguard⟩

theorem Orderly.moves {s s' : RefreshState} (h : Orderly s) {id : Nat} {call call' : RefreshCall}
    (hcall : s.calls[id]? = some call) (hmoves : Moves s s' id call call') : Orderly s' := by
  have hself : s'.calls[id]? = some call' := by
    rw [hmoves.calls, Slots.getElem?_set_self hcall]
  have hother : ∀ i, i ≠ id → s'.calls[i]? = s.calls[i]? := by
    intro i hi
    rw [hmoves.calls, List.getElem?_set_ne (Ne.symm hi)]
  constructor
  · intro i other hi
    by_cases hid : i = id
    · rw [hid, hself] at hi
      obtain rfl := Option.some.inj hi
      exact (h.ascending id call hcall).sublist hmoves.hosts
    · rw [hother i hid] at hi
      exact h.ascending i other hi
  · intro i key hholds
    rcases hmoves.holds i key hholds with ⟨rfl, hsource, hguard⟩ | ⟨hheld, hkeeps⟩
    · exact ⟨call', hself, hmoves.sourceId.trans hsource, hguard⟩
    · obtain ⟨other, hi, hsource, hguard⟩ := h.guarded i key hheld
      by_cases hid : i = id
      · subst hid
        rw [hcall] at hi
        obtain rfl := Option.some.inj hi
        exact ⟨call', hself, hmoves.sourceId.trans hsource, hkeeps hsource hguard⟩
      · exact ⟨other, (hother i hid).trans hi, hsource, hguard⟩

theorem reached_orderly {s : RefreshState} (h : Reached (·.stale.Nodup) s) : Orderly s := by
  refine h.invariant Orderly.initial fun s label s' hinv hok hstep => ?_
  rcases step_cases hstep with ⟨request, rfl, rfl⟩ | ⟨id, call, call', hcall, hmoves⟩
  · exact hinv.begin (hok request rfl)
  · exact hinv.moves hcall hmoves

/-- Every call asks for locks in ascending order of their hosts. -/
theorem Orderly.ascends {s : RefreshState} (h : Orderly s) :
    Waiting.Ascends LockKey.hostname s.Holds s.Wants := by
  intro id held wanted hholds ⟨call, hcall, hwants⟩
  obtain ⟨other, hother, _, hguard⟩ := h.guarded id held hholds
  rw [hcall] at hother
  obtain rfl := Option.some.inj hother
  obtain ⟨_, rest, htodo⟩ := RefreshCall.wants_eq_some hwants
  have hascending := h.ascending id call hcall
  rw [htodo] at hascending
  exact (List.pairwise_append.mp hascending).2.2 _ hguard _ List.mem_cons_self

/-! ## What a repeated host does -/

theorem step_lock {s : RefreshState} {id : Nat} {sourceId hostname : String}
    {guards rest : List String}
    (hcall : s.calls[id]? = some ⟨sourceId, guards, hostname :: rest, .running⟩) :
    s.step (.call id .lock) = some (s.move id ⟨sourceId, guards, hostname :: rest, .queued⟩
      ⟨sourceId, hostname⟩ ((s.locks ⟨sourceId, hostname⟩).enqueue id)) := by
  show s.calls[id]?.bind _ = _
  rw [hcall]
  rfl

theorem step_grant {s : RefreshState} {id : Nat} {sourceId hostname : String}
    {guards rest : List String} {lock : FifoLock Nat}
    (hcall : s.calls[id]? = some ⟨sourceId, guards, hostname :: rest, .queued⟩)
    (hacquire : (s.locks ⟨sourceId, hostname⟩).acquire = some (id, lock)) :
    s.step (.grant ⟨sourceId, hostname⟩) = some (s.move id
      ⟨sourceId, guards ++ [hostname], rest, .running⟩ ⟨sourceId, hostname⟩ lock) := by
  show (s.locks ⟨sourceId, hostname⟩).acquire.bind _ = _
  rw [hacquire, Option.bind_some]
  show s.calls[id]?.bind _ = _
  rw [hcall]
  exact if_pos rfl

/-- The first call takes one lock after the other while the rest are free: up
to the host that it has already locked. -/
theorem waits_for_itself_from {admits : RefreshRequest → Prop} {sourceId : String}
    (todo : List String) {guards : List String} {s : RefreshState} (hs : Reached admits s)
    (hcall : s.calls[0]? = some ⟨sourceId, guards, todo, .running⟩)
    (hheld : ∀ hostname ∈ guards, s.Holds 0 ⟨sourceId, hostname⟩)
    (hfree : ∀ hostname ∉ guards, s.locks ⟨sourceId, hostname⟩ = {})
    (honce : guards.Nodup) (hrepeats : ¬ (guards ++ todo).Nodup) :
    ∃ (s' : RefreshState) (key : LockKey), Reached admits s' ∧ s'.Wants 0 key ∧ s'.Holds 0 key := by
  induction todo generalizing guards s with
  | nil =>
    rw [List.append_nil] at hrepeats
    exact absurd honce hrepeats
  | cons hostname rest ih =>
    have hasked := Runs.Reach.step (l := .call 0 .lock) hs
      (fun _ hbegin => by cases hbegin) (step_lock hcall)
    have hqueued : (s.calls.set 0 ⟨sourceId, guards, hostname :: rest, .queued⟩)[0]? =
        some ⟨sourceId, guards, hostname :: rest, .queued⟩ := Slots.getElem?_set_self hcall _
    by_cases hguard : hostname ∈ guards
    · -- its own lock
      refine ⟨_, ⟨sourceId, hostname⟩, hasked, ⟨_, hqueued, rfl⟩, ?_⟩
      rw [Holds, move_locks, if_pos rfl]
      exact hheld hostname hguard
    · have hacquire : ((s.move 0 ⟨sourceId, guards, hostname :: rest, .queued⟩
          ⟨sourceId, hostname⟩ ((s.locks ⟨sourceId, hostname⟩).enqueue 0)).locks
            ⟨sourceId, hostname⟩).acquire = some (0, ⟨some 0, []⟩) := by
        rw [move_locks, if_pos rfl, hfree hostname hguard]
        rfl
      have hgranted := Runs.Reach.step (l := .grant ⟨sourceId, hostname⟩) hasked
        (fun _ hbegin => by cases hbegin) (step_grant hqueued hacquire)
      have hrunning : ((s.calls.set 0 ⟨sourceId, guards, hostname :: rest, .queued⟩).set 0
          ⟨sourceId, guards ++ [hostname], rest, .running⟩)[0]? =
            some ⟨sourceId, guards ++ [hostname], rest, .running⟩ :=
        Slots.getElem?_set_self hqueued _
      refine ih hgranted hrunning ?_ ?_ ?_ ?_
      · intro other hother
        rw [Holds, move_locks]
        split
        · rfl
        · rename_i hkey
          rcases List.mem_append.mp hother with hold | hnew
          · rw [move_locks, if_neg hkey]
            exact hheld other hold
          · rw [List.mem_singleton.mp hnew] at hkey
            exact absurd rfl hkey
      · intro other hother
        rw [List.mem_append, not_or, List.mem_singleton] at hother
        have hkey : (⟨sourceId, other⟩ : LockKey) ≠ ⟨sourceId, hostname⟩ :=
          fun heq => hother.2 (LockKey.mk.inj heq).2
        rw [move_locks, if_neg hkey, move_locks, if_neg hkey]
        exact hfree other hother.1
      · rw [← List.concat_eq_append]
        exact (List.nodup_concat guards hostname).mpr ⟨hguard, honce⟩
      · rw [List.append_assoc]
        exact hrepeats

/-- A request that names a stale host twice ends in the line of a lock that it
holds itself. -/
theorem waits_for_itself {admits : RefreshRequest → Prop} {request : RefreshRequest}
    (hadmits : admits request) (hrepeats : ¬ request.stale.Nodup) :
    ∃ (s : RefreshState) (key : LockKey), Reached admits s ∧ s.Wants 0 key ∧ s.Holds 0 key := by
  have hbegin : step {} (.begin request) = some (begin {} request) := rfl
  have hreached : Reached admits (begin {} request) := by
    refine Runs.Reach.start.step (fun other heq => ?_) hbegin
    obtain rfl := RefreshLabel.begin.inj heq
    exact hadmits
  have hordered : ¬ ([] ++ request.ordered).Nodup := fun h =>
    hrepeats ((List.mergeSort_perm _ _).nodup_iff.mp h)
  exact waits_for_itself_from request.ordered hreached rfl nofun (fun _ _ => rfl) List.nodup_nil
    hordered

/-- **Refreshes never wait for each other's locks in a circle, nor for their
own, exactly when** no list of stale hosts names a host twice. -/
theorem not_deadlock_iff (admits : RefreshRequest → Prop) :
    (∀ s, Reached admits s → ¬ s.Deadlock) ↔
      ∀ request, admits request → request.stale.Nodup := by
  constructor
  · intro hnever request hadmits
    by_contra hrepeats
    obtain ⟨s, key, hs, hwants, hholds⟩ := waits_for_itself hadmits hrepeats
    exact hnever s hs ⟨0, .single ⟨key, hwants, hholds⟩⟩
  · intro hstale s hs
    have hnodup := hs.mono fun _ _ hok request heq => hstale request (hok request heq)
    exact (reached_orderly hnodup).ascends.not_deadlock

/-- `?host=a,a` on a source that is not cached yet. -/
def repeatedHost : RefreshRequest where
  cache := {}
  source := { ttlSeconds := 60 }
  sourceId := "src"
  hosts := ["a", "a"]
  ttlOverride := none
  now := fromSecs 100

/-- Sorting puts equal names next to each other; it does not make them one. -/
theorem repeatedHost_waits_for_itself :
    ∃ (s : RefreshState) (key : LockKey), Reached (· = repeatedHost) s ∧ s.Wants 0 key ∧
      s.Holds 0 key :=
  waits_for_itself rfl (show ¬ repeatedHost.stale.Nodup by decide)

end RefreshState

end UnifiedApi
