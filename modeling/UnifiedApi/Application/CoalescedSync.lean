import UnifiedApi.Application.SyncCoordinator
import UnifiedApi.Lib.Slots
import UnifiedApi.Lib.Lists

/-! # Which full sync a coalesced call answers from

The counter that moved says that a full sync was counted after the call began.
It does not say that its gather started after that. -/

namespace UnifiedApi

namespace SyncState

/-! ## What holds in every state reached -/

/-- Call `id` has the guard. -/
def Holds (s : SyncState) (id : Nat) : Prop :=
  ∃ call : SyncCall, s.calls[id]? = some call ∧ call.phase.holds = true

/-- The lock, the counter and the completed full syncs agree with the calls. -/
structure Coherent (s : SyncState) : Prop where
  excludes : s.lock.Excludes s.Holds
  counter : s.fullSyncs = UInt64.ofNat s.completed.length
  counted : ∀ sync ∈ s.completed, sync.started < s.clock ∧
    ∃ call : SyncCall, s.calls[sync.id]? = some call ∧ call.phase.done = true
  once : (s.completed.map (·.id)).Nodup
  gathering : ∀ (id : Nat) (call : SyncCall) started, s.calls[id]? = some call →
    call.phase.gatherStarted = some started → started < s.clock

/-- A call of the new state is an old one, but for the one that moved. -/
theorem Moves.getElem? {s s' : SyncState} {id : Nat} {call : SyncCall} {phase : SyncPhase}
    (h : Moves s s' id call phase) (hcall : s.calls[id]? = some call) (i : Nat) :
    s'.calls[i]? = if i = id then some { call with phase } else s.calls[i]? := by
  rw [h.calls]
  exact Slots.getElem?_set hcall _ i

/-- What holds of a call's phase, and of the moved one's before and after, still
holds. -/
theorem Moves.keeps {s s' : SyncState} {id : Nat} {call : SyncCall} {phase : SyncPhase}
    (h : Moves s s' id call phase) (hcall : s.calls[id]? = some call) {P : SyncPhase → Prop}
    (hP : P call.phase → P phase) {i : Nat}
    (hsome : ∃ other, s.calls[i]? = some other ∧ P other.phase) :
    ∃ other, s'.calls[i]? = some other ∧ P other.phase := by
  obtain ⟨other, hother, hphase⟩ := hsome
  rw [h.getElem? hcall]
  split
  · rename_i hid
    rw [hid, hcall] at hother
    obtain rfl := Option.some.inj hother
    exact ⟨_, rfl, hP hphase⟩
  · exact ⟨other, hother, hphase⟩

theorem begin_getElem? (s : SyncState) (request : SyncRequest) {i : Nat} {call : SyncCall}
    (h : s.calls[i]? = some call) : (s.begin request).calls[i]? = some call :=
  Slots.getElem?_append h _

/-- The calls after a begin: those before it and one that did nothing yet. -/
theorem begin_cases {s : SyncState} {request : SyncRequest} {i : Nat} {call : SyncCall}
    (h : (s.begin request).calls[i]? = some call) :
    s.calls[i]? = some call ∨
    call = ⟨⟨request, s.fullSyncs, s.clock, s.completed.length, s.inFlight⟩, .loaded⟩ :=
  (Slots.getElem?_append_or h).imp_right And.right

theorem Coherent.initial : Coherent {} where
  excludes := fun _ ⟨_, hcall, _⟩ => nomatch hcall
  counter := rfl
  counted := nofun
  once := List.nodup_nil
  gathering := fun _ _ _ hcall => nomatch hcall

theorem Coherent.begin {s : SyncState} (h : Coherent s) (request : SyncRequest) :
    Coherent (s.begin request) where
  excludes := by
    refine h.excludes.of_holder_eq rfl fun id ⟨call, hcall, hholds⟩ => ?_
    rcases begin_cases hcall with hold | rfl
    · exact ⟨call, hold, hholds⟩
    · cases hholds
  counter := h.counter
  counted := by
    intro sync hsync
    obtain ⟨hlt, call, hcall, hdone⟩ := h.counted sync hsync
    exact ⟨Nat.lt_succ_of_lt hlt, call, begin_getElem? s request hcall, hdone⟩
  once := h.once
  gathering := by
    intro id call started hcall hstarted
    rcases begin_cases hcall with hold | rfl
    · exact Nat.lt_succ_of_lt (h.gathering id call started hold hstarted)
    · cases hstarted

/-- Only the call that moves may have taken the guard or given it back. -/
theorem Moves.excludes {s s' : SyncState} (h : s.lock.Excludes s.Holds) {id : Nat} {call : SyncCall}
    {phase : SyncPhase} (hcall : s.calls[id]? = some call) (hmoves : Moves s s' id call phase) :
    s'.lock.Excludes s'.Holds := by
  have hother : ∀ i, i ≠ id → s'.Holds i → s.Holds i := by
    intro i hi ⟨other, hother, hholds⟩
    rw [hmoves.getElem? hcall, if_neg hi] at hother
    exact ⟨other, hother, hholds⟩
  have hown : s'.Holds id → phase.holds = true := by
    intro ⟨other, hother, hholds⟩
    rw [hmoves.getElem? hcall, if_pos rfl] at hother
    obtain rfl := Option.some.inj hother
    exact hholds
  rcases hmoves.lock with ⟨hholder, hkeeps⟩ | hacquire | ⟨hheld, hfree, hrelease⟩
  · refine h.of_holder_eq hholder fun i hi => ?_
    by_cases hid : i = id
    · subst hid
      exact ⟨call, hcall, hkeeps (hown hi)⟩
    · exact hother i hid hi
  · refine h.acquire hacquire fun i hi => ?_
    by_cases hid : i = id
    · exact .inl hid
    · exact .inr (hother i hid hi)
  · rw [hrelease]
    refine h.release ⟨call, hcall, hheld⟩ fun i hi => ?_
    have hid : i ≠ id := by
      intro heq
      subst heq
      rw [hown hi] at hfree
      cases hfree
    exact ⟨hid, hother i hid hi⟩

theorem Coherent.moves {s s' : SyncState} (h : Coherent s) {id : Nat} {call : SyncCall}
    {phase : SyncPhase} (hcall : s.calls[id]? = some call) (hmoves : Moves s s' id call phase) :
    Coherent s' where
  excludes := hmoves.excludes h.excludes hcall
  counter := by
    rcases hmoves.counted with ⟨hcounter, hcompleted⟩ | ⟨started, _, _, _, hcounter, hcompleted⟩
    · rw [hcounter, hcompleted]
      exact h.counter
    · rw [hcounter, hcompleted, h.counter, List.length_append]
      exact (UInt64.ofNat_add ..).symm
  counted := by
    have hold : ∀ sync ∈ s.completed, sync.started < s'.clock ∧
        ∃ call : SyncCall, s'.calls[sync.id]? = some call ∧ call.phase.done = true := by
      intro sync hsync
      obtain ⟨hlt, hdone⟩ := h.counted sync hsync
      rw [hmoves.clock]
      exact ⟨Nat.lt_succ_of_lt hlt, hmoves.keeps hcall (P := (·.done)) hmoves.done hdone⟩
    rcases hmoves.counted with ⟨_, hcompleted⟩ | ⟨started, hphase, _, hcounted, _, hcompleted⟩
    · rw [hcompleted]
      exact hold
    · rw [hcompleted]
      intro sync hsync
      rcases List.mem_append.mp hsync with hsync | hsync
      · exact hold sync hsync
      · obtain rfl := List.mem_singleton.mp hsync
        have hlt := h.gathering id call started hcall (by rw [hphase]; rfl)
        refine ⟨by rw [hmoves.clock]; exact Nat.lt_succ_of_lt hlt, { call with phase }, ?_, ?_⟩
        · rw [hmoves.getElem? hcall, if_pos rfl]
        · show phase.done = true
          rw [hcounted]
          rfl
  once := by
    rcases hmoves.counted with ⟨_, hcompleted⟩ | ⟨started, hphase, _, _, _, hcompleted⟩
    · rw [hcompleted]
      exact h.once
    · rw [hcompleted, List.map_append, List.nodup_append]
      refine ⟨h.once, List.pairwise_singleton _ _, ?_⟩
      intro i hi j hj heq
      have hid : j = id := List.mem_singleton.mp hj
      obtain ⟨sync, hsync, rfl⟩ := List.mem_map.mp hi
      obtain ⟨_, other, hother, hdone⟩ := h.counted sync hsync
      rw [heq, hid, hcall] at hother
      obtain rfl := Option.some.inj hother
      rw [hphase] at hdone
      cases hdone
  gathering := by
    intro i other started hother hstarted
    rw [hmoves.getElem? hcall] at hother
    rw [hmoves.clock]
    split at hother
    · obtain rfl := Option.some.inj hother
      rcases hmoves.gathering started hstarted with hbefore | ⟨_, rfl⟩
      · exact Nat.lt_succ_of_lt (h.gathering id call started hcall hbefore)
      · exact Nat.lt_succ_self _
    · exact Nat.lt_succ_of_lt (h.gathering i other started hother hstarted)

/-- What the start of a call says of the state it is looked at in: which
completed full syncs were there before it, and which one it came in the middle
of. -/
structure Knows (s : SyncState) (start : SyncStart) : Prop where
  before : start.completedBefore ≤ s.completed.length
  counter : start.fullSyncsBefore = UInt64.ofNat start.completedBefore
  began : start.began < s.clock
  old : ∀ sync ∈ s.completed.take start.completedBefore, sync.started < start.began
  new : ∀ sync ∈ s.completed.drop start.completedBefore,
    start.inFlight = some sync.id ∨ start.began < sync.started
  gathering : ∀ (id : Nat) (other : SyncCall) started, s.calls[id]? = some other →
    other.coalescable = true → other.phase.gatherStarted = some started →
      start.inFlight = some id ∨ start.began < started
  past : ∀ id, start.inFlight = some id →
    ∃ other : SyncCall, s.calls[id]? = some other ∧ other.phase.Past start.began
  interrupted : ∀ sync ∈ s.completed, start.inFlight = some sync.id →
    sync ∈ s.completed.drop start.completedBefore ∧ sync.started < start.began

/-- The invariant of a source: its calls know, and who answers without a
gather has seen the counter move. -/
structure Inv (s : SyncState) : Prop where
  coherent : Coherent s
  knows : ∀ (id : Nat) (call : SyncCall), s.calls[id]? = some call → s.Knows call.start
  coalesced : ∀ (id : Nat) (call : SyncCall), s.calls[id]? = some call → call.phase = .coalesced →
    call.start.completedBefore < s.completed.length

theorem of_inFlight {s : SyncState} {id : Nat} (h : s.inFlight = some id) :
    ∃ (call : SyncCall) (started : Nat), s.calls[id]? = some call ∧
      call.phase.gatherStarted = some started := by
  obtain ⟨_, hany⟩ := Option.filter_eq_some_iff.mp h
  obtain ⟨call, hcall, hflight⟩ := (Option.any_eq_true _ _).mp hany
  rw [SyncCall.inFlight, Bool.and_eq_true] at hflight
  obtain ⟨started, hstarted⟩ := Option.isSome_iff_exists.mp hflight.2
  exact ⟨call, started, hcall, hstarted⟩

theorem inFlight_of_gathering {s : SyncState} (h : Coherent s) {id : Nat} {call : SyncCall}
    {started : Nat} (hcall : s.calls[id]? = some call) (hfull : call.coalescable = true)
    (hstarted : call.phase.gatherStarted = some started) : s.inFlight = some id := by
  have hholder := h.excludes id ⟨call, hcall, SyncPhase.holds_of_gatherStarted hstarted⟩
  have hflight : call.inFlight = true := by
    rw [SyncCall.inFlight, hfull, hstarted]
    rfl
  refine Option.filter_eq_some_iff.mpr ⟨hholder, ?_⟩
  rw [hcall]
  exact hflight

/-- The call that begins. -/
theorem Knows.begin_self {s : SyncState} (h : Coherent s) (request : SyncRequest) :
    (s.begin request).Knows
      ⟨request, s.fullSyncs, s.clock, s.completed.length, s.inFlight⟩ where
  before := le_refl _
  counter := h.counter
  began := Nat.lt_succ_self _
  old := by
    intro sync hsync
    exact (h.counted sync (List.mem_of_mem_take hsync)).1
  new := by
    intro sync hsync
    rw [show (s.begin request).completed = s.completed from rfl, List.drop_length] at hsync
    cases hsync
  gathering := by
    intro id other started hother hfull hstarted
    rcases begin_cases hother with hother | rfl
    · exact .inl (inFlight_of_gathering h hother hfull hstarted)
    · cases hstarted
  past := by
    intro id hid
    obtain ⟨other, started, hother, hstarted⟩ := of_inFlight hid
    have hlt := h.gathering id other started hother hstarted
    exact ⟨other, begin_getElem? s request hother, SyncPhase.past_of_gatherStarted hstarted hlt⟩
  interrupted := by
    intro sync hsync hid
    obtain ⟨other, started, hother, hstarted⟩ := of_inFlight hid
    obtain ⟨_, counted, hcounted, hdone⟩ := h.counted sync hsync
    rw [hother] at hcounted
    obtain rfl := Option.some.inj hcounted
    rw [SyncPhase.not_done_of_gatherStarted hstarted] at hdone
    cases hdone

theorem Knows.begin {s : SyncState} {start : SyncStart} (h : s.Knows start)
    (request : SyncRequest) :
    (s.begin request).Knows start where
  before := h.before
  counter := h.counter
  began := Nat.lt_succ_of_lt h.began
  old := h.old
  new := h.new
  gathering := by
    intro id other started hother hfull hstarted
    rcases begin_cases hother with hother | rfl
    · exact h.gathering id other started hother hfull hstarted
    · cases hstarted
  past := by
    intro id hid
    obtain ⟨other, hother, hpast⟩ := h.past id hid
    exact ⟨other, begin_getElem? s request hother, hpast⟩
  interrupted := h.interrupted

theorem Knows.moves {s s' : SyncState} {start : SyncStart} (h : s.Knows start) {id : Nat}
    {call : SyncCall} {phase : SyncPhase} (hcall : s.calls[id]? = some call)
    (hmoves : Moves s s' id call phase) : s'.Knows start where
  before := by
    rcases hmoves.counted with ⟨_, hcompleted⟩ | ⟨_, _, _, _, _, hcompleted⟩
    · exact hcompleted ▸ h.before
    · rw [hcompleted, List.length_append]
      exact Nat.le_add_right_of_le h.before
  counter := h.counter
  began := by
    rw [hmoves.clock]
    exact Nat.lt_succ_of_lt h.began
  old := by
    rcases hmoves.counted with ⟨_, hcompleted⟩ | ⟨_, _, _, _, _, hcompleted⟩
    · exact hcompleted ▸ h.old
    · rw [hcompleted, List.take_append_of_le_length h.before]
      exact h.old
  new := by
    rcases hmoves.counted with ⟨_, hcompleted⟩ | ⟨started, hphase, hfull, _, _, hcompleted⟩
    · exact hcompleted ▸ h.new
    · rw [hcompleted, List.drop_append_of_le_length h.before]
      intro sync hsync
      rcases List.mem_append.mp hsync with hsync | hsync
      · exact h.new sync hsync
      · obtain rfl := List.mem_singleton.mp hsync
        exact h.gathering id call started hcall hfull (by rw [hphase]; rfl)
  gathering := by
    intro i other started hother hfull hstarted
    rw [hmoves.getElem? hcall] at hother
    split at hother
    · rename_i hid
      obtain rfl := Option.some.inj hother
      rcases hmoves.gathering started hstarted with hbefore | ⟨_, rfl⟩
      · exact hid ▸ h.gathering id call started hcall hfull hbefore
      · exact .inr h.began
    · exact h.gathering i other started hother hfull hstarted
  past := by
    intro i hid
    exact hmoves.keeps hcall (P := (·.Past start.began)) (hmoves.past _) (h.past i hid)
  interrupted := by
    rcases hmoves.counted with ⟨_, hcompleted⟩ | ⟨started, hphase, _, _, _, hcompleted⟩
    · exact hcompleted ▸ h.interrupted
    · rw [hcompleted, List.drop_append_of_le_length h.before]
      intro sync hsync hid
      rcases List.mem_append.mp hsync with hsync | hsync
      · obtain ⟨hmem, hlt⟩ := h.interrupted sync hsync hid
        exact ⟨List.mem_append_left _ hmem, hlt⟩
      · obtain rfl := List.mem_singleton.mp hsync
        obtain ⟨other, hother, hpast⟩ := h.past id hid
        rw [hcall] at hother
        obtain rfl := Option.some.inj hother
        rw [hphase] at hpast
        exact ⟨List.mem_append_right _ (List.mem_singleton_self _), hpast⟩

/-- Completed full syncs stay completed. -/
theorem Moves.length_le {s s' : SyncState} {id : Nat} {call : SyncCall} {phase : SyncPhase}
    (h : Moves s s' id call phase) : s.completed.length ≤ s'.completed.length := by
  rcases h.counted with ⟨_, hcompleted⟩ | ⟨_, _, _, _, _, hcompleted⟩
  · exact hcompleted ▸ le_refl _
  · rw [hcompleted, List.length_append]
    exact Nat.le_add_right _ _

theorem Inv.initial : Inv {} :=
  ⟨Coherent.initial, fun _ _ hcall => (nomatch hcall), fun _ _ hcall => (nomatch hcall)⟩

theorem Inv.step {s s' : SyncState} {label : SyncLabel} (h : Inv s)
    (hstep : s.step label = some s') : Inv s' := by
  rcases step_cases hstep with ⟨request, rfl⟩ | ⟨id, call, phase, hcall, hmoves⟩
  · refine ⟨h.coherent.begin request, ?_, ?_⟩
    · intro i other hother
      rcases begin_cases hother with hother | rfl
      · exact (h.knows i other hother).begin request
      · exact Knows.begin_self h.coherent request
    · intro i other hother hphase
      rcases begin_cases hother with hother | rfl
      · exact h.coalesced i other hother hphase
      · cases hphase
  · refine ⟨h.coherent.moves hcall hmoves, ?_, ?_⟩
    · intro i other hother
      rw [hmoves.getElem? hcall] at hother
      split at hother
      · obtain rfl := Option.some.inj hother
        exact (h.knows id call hcall).moves hcall hmoves
      · exact (h.knows i other hother).moves hcall hmoves
    · intro i other hother hphase
      apply Nat.lt_of_lt_of_le _ hmoves.length_le
      rw [hmoves.getElem? hcall] at hother
      split at hother
      · obtain rfl := Option.some.inj hother
        have hknows := h.knows id call hcall
        have hcounter := hmoves.coalesced hphase
        rw [h.coherent.counter, hknows.counter] at hcounter
        exact Nat.lt_of_le_of_ne hknows.before fun heq => hcounter (by rw [heq])
      · exact h.coalesced i other hother hphase

theorem reached_inv {s : SyncState} (h : Reached s) : Inv s :=
  h.invariant Inv.initial fun _ _ _ hinv _ hstep => hinv.step hstep

/-- What completed since the call began: a fresh full sync, or the one the call
came in the middle of. -/
theorem Knows.fresh {s : SyncState} {call : SyncCall} (h : s.Knows call.start) {sync : FullSync}
    (hsync : sync ∈ s.completed.drop call.start.completedBefore)
    (hid : call.start.inFlight ≠ some sync.id) : s.FreshFor call := by
  rcases h.new sync hsync with heq | hlt
  · exact absurd heq hid
  · exact ⟨sync, List.mem_of_mem_drop hsync, hlt⟩

/-- A fresh full sync is none that was there before, nor the one in flight. -/
theorem Knows.of_fresh {s : SyncState} {call : SyncCall} (h : s.Knows call.start)
    (hfresh : s.FreshFor call) : ∃ sync ∈ s.completed.drop call.start.completedBefore,
      call.start.inFlight ≠ some sync.id := by
  obtain ⟨sync, hsync, hlt⟩ := hfresh
  refine ⟨sync, ?_, fun hid => ?_⟩
  · rw [← List.take_append_drop call.start.completedBefore s.completed, List.mem_append] at hsync
    rcases hsync with hold | hnew
    · exact absurd (h.old sync hold) (Nat.lt_asymm hlt)
    · exact hnew
  · exact absurd (h.interrupted sync hsync hid).2 (Nat.lt_asymm hlt)

/-- **A call answers from a full sync that started after it began exactly
when** the full sync that was in flight as the call began, if there was one,
was not counted, or another one was counted as well. -/
theorem coalesced_fresh_iff {s : SyncState} (hs : s.Reached) {id : Nat} {call : SyncCall}
    (hcall : s.calls[id]? = some call) (hphase : call.phase = .coalesced) :
    s.FreshFor call ↔
      (∀ sync ∈ s.completed, call.start.inFlight ≠ some sync.id) ∨
      call.start.completedBefore + 2 ≤ s.completed.length := by
  have hinv := reached_inv hs
  have hknows := hinv.knows id call hcall
  have hmoved := hinv.coalesced id call hcall hphase
  have hlength : (s.completed.drop call.start.completedBefore).length =
      s.completed.length - call.start.completedBefore := List.length_drop
  constructor
  · intro hfresh
    obtain ⟨sync, hsync, hother⟩ := hknows.of_fresh hfresh
    by_cases hflight : ∀ sync ∈ s.completed, call.start.inFlight ≠ some sync.id
    · exact .inl hflight
    · push Not at hflight
      obtain ⟨running, hrunning, hid⟩ := hflight
      have hne : running ≠ sync := fun heq => hother (heq ▸ hid)
      have htwo := Lists.two_le_length (hknows.interrupted running hrunning hid).1 hsync hne
      exact .inr (by omega)
  · intro hcond
    rcases hcond with hflight | htwo
    · obtain ⟨sync, hsync⟩ := List.exists_mem_of_length_pos
        (show 0 < (s.completed.drop call.start.completedBefore).length by omega)
      exact hknows.fresh hsync (hflight sync (List.mem_of_mem_drop hsync))
    · have honce : ((s.completed.drop call.start.completedBefore).map (·.id)).Nodup := by
        rw [List.map_drop]
        exact hinv.coherent.once.sublist (List.drop_sublist _ _)
      cases hnew : s.completed.drop call.start.completedBefore with
      | nil =>
        rw [hnew, List.length_nil] at hlength
        omega
      | cons first rest =>
        cases rest with
        | nil =>
          rw [hnew, List.length_singleton] at hlength
          omega
        | cons second rest =>
          have hfirst : first ∈ s.completed.drop call.start.completedBefore :=
            hnew ▸ List.mem_cons_self
          have hsecond : second ∈ s.completed.drop call.start.completedBefore :=
            hnew ▸ List.mem_cons_of_mem _ List.mem_cons_self
          by_cases hid : call.start.inFlight = some first.id
          · refine hknows.fresh hsecond fun heq => ?_
            rw [hnew, List.map_cons, List.map_cons, List.nodup_cons] at honce
            rw [hid] at heq
            exact honce.1 (Option.some.inj heq ▸ List.mem_cons_self)
          · exact hknows.fresh hfirst hid

/-- Two plain full syncs: the second call begins before the connector of the
first starts, and answers from it. -/
def sharedGather : List SyncLabel :=
  [.begin (.new .full), .call 0 .enqueue, .acquire, .call 0 .compare, .begin (.new .full),
    .call 1 .enqueue, .call 0 .gatherStart, .call 0 (.gatherEnd true), .call 0 .bump,
    .call 0 .return, .acquire, .call 1 .compare]

/-- The same, but the second call begins in the middle of the gather. -/
def lateGather : List SyncLabel :=
  [.begin (.new .full), .call 0 .enqueue, .acquire, .call 0 .compare, .call 0 .gatherStart,
    .begin (.new .full), .call 1 .enqueue, .call 0 (.gatherEnd true), .call 0 .bump,
    .call 0 .return, .acquire, .call 1 .compare]

/-- Where the first run leads. -/
def sharedState : SyncState := ((Runs.exec step {} sharedGather).getD {})

theorem sharedGather_fresh_iff : ∃ call, sharedState.calls[1]? = some call ∧
    (sharedState.FreshFor call ↔
      (∀ sync ∈ sharedState.completed, call.start.inFlight ≠ some sync.id) ∨
      call.start.completedBefore + 2 ≤ sharedState.completed.length) :=
  have hreached : sharedState.Reached := Runs.reach_iff_exec.mpr ⟨sharedGather, by decide⟩
  ⟨_, rfl, coalesced_fresh_iff hreached (show sharedState.calls[1]? = some _ from rfl) rfl⟩

/-- The second call is told that a sync that started after it began has
completed; the only one started before. -/
theorem lateGather_not_fresh : ∃ s call, Runs.exec step {} lateGather = some s ∧
    s.calls[1]? = some call ∧ call.phase = .coalesced ∧ ¬ s.FreshFor call :=
  ⟨_, _, rfl, rfl, rfl, by decide⟩

end SyncState

end UnifiedApi
