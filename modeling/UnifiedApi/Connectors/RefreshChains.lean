import Mathlib.Logic.Function.Basic
import Mathlib.Data.List.Nodup
import Mathlib.Data.List.Perm.Subperm
import UnifiedApi.Connectors.Federation
import UnifiedApi.Lib.FifoLock
import UnifiedApi.Lib.Runs
import UnifiedApi.Lib.Slots
import UnifiedApi.Lib.Lists

/-! # Refreshes that travel from instance to instance

A sync holds the lock of its source for as long as it takes, and a refresh
that asks its origin to gather first waits there for another sync to get that
source's lock. The hops bound how far this goes; they do not say where. -/

namespace UnifiedApi

/-- Where a sync is. -/
inductive ChainPhase where
  | arrived
  | queued
  | holding
  | done
  deriving DecidableEq

/-- One sync: the chain it belongs to, by the sync that entered, and how many
hops it is away from that. -/
structure ChainCall where
  chain : Nat
  hop : Nat
  ask : SyncAsk
  /-- The origin has been asked. -/
  sent : Bool := false
  phase : ChainPhase := .arrived
  deriving DecidableEq

structure ChainState where
  calls : List ChainCall := []
  locks : SourceAt → FifoLock Nat := fun _ => {}

inductive ChainLabel where
  /-- A request from outside. -/
  | receive (node : SourceAt) (request : SyncRequest)
  | lock (id : Nat)
  /-- A free lock goes to the head of its line. -/
  | grant (node : SourceAt)
  | forward (id : Nat)
  /-- Answered, or given up. -/
  | finish (id : Nat)
  | leave (id : Nat)

namespace ChainState

def move (s : ChainState) (id : Nat) (call : ChainCall) (phase : ChainPhase)
    (lock : FifoLock Nat) : ChainState where
  calls := s.calls.set id { call with phase }
  locks := Function.update s.locks call.ask.node lock

def step (fed : Federation) (s : ChainState) : ChainLabel → Option ChainState
  | .receive node request => some { s with
      calls := s.calls ++ [{ chain := s.calls.length, hop := 0, ask := ⟨node, some request⟩ }] }
  | .lock id => s.calls[id]?.bind fun call =>
    -- a query that does not parse and a source that is not configured are refused before
    if call.phase = .arrived ∧ call.ask.request.isSome = true ∧
        (fed.sources call.ask.node).isSome = true then
      some (s.move id call .queued ((s.locks call.ask.node).enqueue id))
    else none
  | .grant node => (s.locks node).acquire.bind fun (id, lock) => s.calls[id]?.bind fun call =>
    if call.phase = .queued ∧ call.ask.node = node then some (s.move id call .holding lock)
    else none
  | .forward id => s.calls[id]?.bind fun call =>
    if call.phase = .holding ∧ call.sent = false then
      (fed.forward call.ask).map fun ask => { s with
        calls := s.calls.set id { call with sent := true } ++
          [{ chain := call.chain, hop := call.hop + 1, ask }] }
    else none
  | .finish id => s.calls[id]?.bind fun call =>
    if call.phase = .holding then some (s.move id call .done (s.locks call.ask.node).release)
    else none
  | .leave id => s.calls[id]?.bind fun call =>
    if call.phase = .queued then
      some (s.move id call .done ((s.locks call.ask.node).withdraw id))
    else none

/-- The syncs of the chain that another one asked for. -/
def further (s : ChainState) (chain : Nat) : Nat :=
  s.calls.countP fun call => decide (call.chain = chain) && decide (call.hop ≠ 0)

/-- A sync of the chain waits for a lock that an earlier one holds. -/
def SelfWaits (s : ChainState) (chain : Nat) : Prop :=
  ∃ (a b : Nat) (earlier later : ChainCall),
    s.calls[a]? = some earlier ∧ s.calls[b]? = some later ∧
    earlier.chain = chain ∧ later.chain = chain ∧ earlier.hop < later.hop ∧
    later.phase = .queued ∧ (s.locks later.ask.node).holder = some a

/-- The chain began with this. -/
def Entered (s : ChainState) (chain : Nat) (ask : SyncAsk) : Prop :=
  ∃ call, s.calls[chain]? = some call ∧ call.chain = chain ∧ call.hop = 0 ∧ call.ask = ask

/-! ## What a step can do -/

/-- The same sync, further on. -/
structure SameCall (call call' : ChainCall) : Prop where
  chain : call'.chain = call.chain
  hop : call'.hop = call.hop
  ask : call'.ask = call.ask
  sent : call.sent = true → call'.sent = true

theorem SameCall.refl (call : ChainCall) : SameCall call call := ⟨rfl, rfl, rfl, id⟩

/-- A sync that the step made: one from outside, or one that another sync had
not asked for until now. -/
def NewCall (fed : Federation) (s s' : ChainState) (call : ChainCall) : Prop :=
  (call.chain = s.calls.length ∧ call.hop = 0) ∨
  ∃ (id : Nat) (parent : ChainCall), s.calls[id]? = some parent ∧ parent.sent = false ∧
    (∃ parent', s'.calls[id]? = some parent' ∧ SameCall parent parent' ∧ parent'.sent = true) ∧
    call.chain = parent.chain ∧ call.hop = parent.hop + 1 ∧ fed.forward parent.ask = some call.ask

structure Evolves (fed : Federation) (s s' : ChainState) : Prop where
  keeps : ∀ id call, s.calls[(id : Nat)]? = some call →
    ∃ call', s'.calls[id]? = some call' ∧ SameCall call call'
  news : ∀ id call', s'.calls[(id : Nat)]? = some call' →
    (∃ call, s.calls[id]? = some call ∧ SameCall call call') ∨
      id = s.calls.length ∧ NewCall fed s s' call'
  holders : ∀ id node, (s'.locks node).holder = some id →
    (s.locks node).holder = some id ∨ ∃ call, s.calls[id]? = some call ∧ call.ask.node = node

theorem move_locks (s : ChainState) (id : Nat) (call : ChainCall) (phase : ChainPhase)
    (lock : FifoLock Nat) (node : SourceAt) :
    (s.move id call phase lock).locks node =
      if node = call.ask.node then lock else s.locks node :=
  Function.update_apply s.locks call.ask.node lock node

theorem move_evolves {fed : Federation} {s : ChainState} {id : Nat} {call : ChainCall}
    (hcall : s.calls[id]? = some call) (phase : ChainPhase) (lock : FifoLock Nat)
    (hlock : ∀ holder, lock.holder = some holder →
      (s.locks call.ask.node).holder = some holder ∨ holder = id) :
    Evolves fed s (s.move id call phase lock) := by
  have hself : (s.move id call phase lock).calls[id]? = some { call with phase } :=
    Slots.getElem?_set_self hcall _
  have hother : ∀ i, i ≠ id → (s.move id call phase lock).calls[i]? = s.calls[i]? := fun i hi =>
    List.getElem?_set_ne (Ne.symm hi)
  refine ⟨?_, ?_, ?_⟩
  · intro i old hold
    by_cases hi : i = id
    · subst hi
      obtain rfl := Option.some.inj (hcall.symm.trans hold)
      exact ⟨_, hself, rfl, rfl, rfl, fun hsent => hsent⟩
    · exact ⟨old, (hother i hi).trans hold, .refl old⟩
  · intro i new hnew
    by_cases hi : i = id
    · subst hi
      obtain rfl := Option.some.inj (hself.symm.trans hnew)
      exact .inl ⟨call, hcall, rfl, rfl, rfl, fun hsent => hsent⟩
    · exact .inl ⟨new, (hother i hi).symm.trans hnew, .refl new⟩
  · intro holder node hholder
    rw [move_locks] at hholder
    split at hholder
    · rename_i hnode
      rcases hlock holder hholder with hheld | rfl
      · exact .inl (hnode ▸ hheld)
      · exact .inr ⟨call, hcall, hnode.symm⟩
    · exact .inl hholder

/-- One more call at the end, the others as they were. -/
theorem append_evolves {fed : Federation} {s s' : ChainState} {calls : List ChainCall}
    {added : ChainCall} (hcalls : s'.calls = calls ++ [added])
    (hlength : calls.length = s.calls.length)
    (hkeeps : ∀ id call, s.calls[(id : Nat)]? = some call →
      ∃ call', calls[id]? = some call' ∧ SameCall call call')
    (hnew : NewCall fed s s' added) (hlocks : s'.locks = s.locks) : Evolves fed s s' where
  keeps id call hcall := by
    obtain ⟨call', hcall', hsame⟩ := hkeeps id call hcall
    exact ⟨call', hcalls ▸ Slots.getElem?_append hcall' _, hsame⟩
  news id call' hcall' := by
    rw [hcalls] at hcall'
    obtain hold | ⟨hid, rfl⟩ := Slots.getElem?_append_or hcall'
    · obtain ⟨call, hcall⟩ : ∃ call, s.calls[id]? = some call :=
        ⟨_, List.getElem?_eq_getElem (hlength ▸ Slots.lt_length hold)⟩
      obtain ⟨call'', hcall'', hsame⟩ := hkeeps id call hcall
      obtain rfl := Option.some.inj (hold.symm.trans hcall'')
      exact .inl ⟨call, hcall, hsame⟩
    · exact .inr ⟨hid.trans hlength, hnew⟩
  holders id node hholder := .inl (hlocks ▸ hholder)

theorem step_evolves {fed : Federation} {s s' : ChainState} {label : ChainLabel}
    (h : s.step fed label = some s') : Evolves fed s s' := by
  cases label with
  | receive node request =>
    obtain rfl := Option.some.inj h
    exact append_evolves rfl rfl (fun _ call hcall => ⟨call, hcall, .refl call⟩)
      (.inl ⟨rfl, rfl⟩) rfl
  | lock id =>
    obtain ⟨call, hcall, h⟩ := Option.bind_eq_some_iff.mp h
    obtain ⟨_, h⟩ := Option.ite_none_right_eq_some.mp h
    obtain rfl := Option.some.inj h
    exact move_evolves hcall _ _ fun _ hholder => .inl hholder
  | grant node =>
    obtain ⟨⟨id, lock⟩, hacquire, h⟩ := Option.bind_eq_some_iff.mp h
    obtain ⟨call, hcall, h⟩ := Option.bind_eq_some_iff.mp h
    obtain ⟨_, h⟩ := Option.ite_none_right_eq_some.mp h
    obtain rfl := Option.some.inj h
    obtain ⟨_, _, _, rfl⟩ := FifoLock.acquire_eq_some hacquire
    exact move_evolves hcall _ _ fun _ hholder => .inr (Option.some.inj hholder).symm
  | forward id =>
    obtain ⟨call, hcall, h⟩ := Option.bind_eq_some_iff.mp h
    obtain ⟨⟨_, hunsent⟩, h⟩ := Option.ite_none_right_eq_some.mp h
    obtain ⟨ask, hask, rfl⟩ := Option.map_eq_some_iff.mp h
    have hself : (s.calls.set id { call with sent := true })[id]? =
        some { call with sent := true } := Slots.getElem?_set_self hcall _
    have hsame : SameCall call { call with sent := true } := ⟨rfl, rfl, rfl, fun _ => rfl⟩
    refine append_evolves rfl (List.length_set ..) ?_ (.inr ⟨id, call, hcall, hunsent,
      ⟨_, ?_, hsame, rfl⟩, rfl, rfl, hask⟩) rfl
    · intro i old hold
      by_cases hi : i = id
      · subst hi
        obtain rfl := Option.some.inj (hcall.symm.trans hold)
        exact ⟨_, hself, hsame⟩
      · exact ⟨old, (List.getElem?_set_ne (Ne.symm hi)).trans hold, .refl old⟩
    · exact Slots.getElem?_append hself _
  | finish id =>
    obtain ⟨call, hcall, h⟩ := Option.bind_eq_some_iff.mp h
    obtain ⟨_, h⟩ := Option.ite_none_right_eq_some.mp h
    obtain rfl := Option.some.inj h
    exact move_evolves hcall _ _ fun _ hholder => nomatch hholder
  | leave id =>
    obtain ⟨call, hcall, h⟩ := Option.bind_eq_some_iff.mp h
    obtain ⟨_, h⟩ := Option.ite_none_right_eq_some.mp h
    obtain rfl := Option.some.inj h
    exact move_evolves hcall _ _ fun _ hholder => .inl hholder

/-! ## What holds in every state reached -/

/-- Every sync is as many asks away from the one that entered as its hop says,
no two of a chain are equally far, each but the first was asked for, and
locks are held by syncs of their source. -/
structure ChainInv (fed : Federation) (s : ChainState) : Prop where
  chains : ∀ id call, s.calls[(id : Nat)]? = some call →
    ∃ first, s.calls[call.chain]? = some first ∧ first.chain = call.chain ∧ first.hop = 0 ∧
      fed.visit call.hop first.ask = some call.ask
  unique : ∀ id id' call call', s.calls[(id : Nat)]? = some call →
    s.calls[(id' : Nat)]? = some call' → call.chain = call'.chain → call.hop = call'.hop → id = id'
  sent : ∀ id call, s.calls[(id : Nat)]? = some call → ∀ hop, call.hop = hop + 1 →
    ∃ (id : Nat) (parent : ChainCall), s.calls[id]? = some parent ∧
      parent.chain = call.chain ∧ parent.hop = hop ∧ parent.sent = true
  holders : ∀ id node, (s.locks node).holder = some id →
    ∃ call, s.calls[id]? = some call ∧ call.ask.node = node

theorem initial_inv (fed : Federation) : ChainInv fed {} :=
  ⟨by simp, by simp, by simp, by simp⟩

/-- A new sync is the first at its distance: what it came from had not asked
yet. -/
theorem NewCall.unique {fed : Federation} {s s' : ChainState} {call' : ChainCall}
    (h : ChainInv fed s) (hnew : NewCall fed s s' call') (id : Nat)
    (call : ChainCall) (hcall : s.calls[id]? = some call) (hchain : call.chain = call'.chain) :
    call.hop ≠ call'.hop := by
  intro hhop
  rcases hnew with ⟨hnewChain, _⟩ | ⟨p, parent, hparent, hunsent, _, hnewChain, hnewHop, _⟩
  · obtain ⟨first, hfirst, _⟩ := h.chains id call hcall
    obtain ⟨hlt, _⟩ := List.getElem?_eq_some_iff.mp hfirst
    omega
  · obtain ⟨q, parent', hparent', hchain', hhop', hsent⟩ :=
      h.sent id call hcall parent.hop (hhop.trans hnewHop)
    have hsame : q = p := h.unique q p parent' parent hparent' hparent
      (hchain'.trans (hchain.trans hnewChain)) hhop'
    subst hsame
    obtain rfl := Option.some.inj (hparent.symm.trans hparent')
    rw [hunsent] at hsent
    cases hsent

section Evolves
variable {fed : Federation} {s s' : ChainState} (h : ChainInv fed s) (hev : Evolves fed s s')
include h hev

theorem evolves_chains (id : Nat) (call' : ChainCall) (hcall' : s'.calls[id]? = some call') :
    ∃ first, s'.calls[call'.chain]? = some first ∧ first.chain = call'.chain ∧ first.hop = 0 ∧
      fed.visit call'.hop first.ask = some call'.ask := by
  have hfirst : ∀ {id : Nat} {call : ChainCall}, s.calls[id]? = some call →
      ∃ first, s'.calls[call.chain]? = some first ∧ first.chain = call.chain ∧ first.hop = 0 ∧
        fed.visit call.hop first.ask = some call.ask := by
    intro id call hcall
    obtain ⟨first, hfirst, hchain, hhop, hvisit⟩ := h.chains id call hcall
    obtain ⟨first', hfirst', hsame⟩ := hev.keeps _ first hfirst
    exact ⟨first', hfirst', hsame.chain.trans hchain, hsame.hop.trans hhop, hsame.ask ▸ hvisit⟩
  rcases hev.news id call' hcall' with ⟨call, hcall, hsame⟩ | ⟨hid, hnew⟩
  · rw [hsame.chain, hsame.hop, hsame.ask]
    exact hfirst hcall
  · rcases hnew with ⟨hchain, hhop⟩ | ⟨p, parent, hparent, _, _, hchain, hhop, hforward⟩
    · refine ⟨call', by rw [hchain, ← hid, hcall'], rfl, hhop, ?_⟩
      rw [hhop]
      rfl
    · obtain ⟨first, hfirst, hfirstChain, hfirstHop, hvisit⟩ := hfirst hparent
      rw [hchain, hhop]
      refine ⟨first, hfirst, hfirstChain, hfirstHop, ?_⟩
      rw [Federation.visit_succ, hvisit]
      exact hforward

theorem evolves_unique (id id' : Nat) (call call' : ChainCall) (hcall : s'.calls[id]? = some call)
    (hcall' : s'.calls[id']? = some call') (hchain : call.chain = call'.chain)
    (hhop : call.hop = call'.hop) : id = id' := by
  rcases hev.news id call hcall with ⟨old, hold, hsame⟩ | ⟨hid, hnew⟩ <;>
    rcases hev.news id' call' hcall' with ⟨old', hold', hsame'⟩ | ⟨hid', hnew'⟩
  · refine h.unique id id' old old' hold hold' ?_ ?_
    · rw [← hsame.chain, ← hsame'.chain, hchain]
    · rw [← hsame.hop, ← hsame'.hop, hhop]
  · exact absurd (hsame.hop.symm.trans hhop)
      (hnew'.unique h id old hold (hsame.chain.symm.trans hchain))
  · exact absurd (hsame'.hop.symm.trans hhop.symm)
      (hnew.unique h id' old' hold' (hsame'.chain.symm.trans hchain.symm))
  · rw [hid, hid']

theorem evolves_sent (id : Nat) (call' : ChainCall) (hcall' : s'.calls[id]? = some call')
    (hop : Nat) (hhop : call'.hop = hop + 1) :
    ∃ (id : Nat) (parent : ChainCall), s'.calls[id]? = some parent ∧
      parent.chain = call'.chain ∧ parent.hop = hop ∧ parent.sent = true := by
  rcases hev.news id call' hcall' with ⟨call, hcall, hsame⟩ | ⟨_, hnew⟩
  · obtain ⟨p, parent, hparent, hchain, hparentHop, hsent⟩ :=
      h.sent id call hcall hop (hsame.hop ▸ hhop)
    obtain ⟨parent', hparent', hsame'⟩ := hev.keeps p parent hparent
    exact ⟨p, parent', hparent', by rw [hsame'.chain, hchain, hsame.chain],
      hsame'.hop.trans hparentHop, hsame'.sent hsent⟩
  · rcases hnew with ⟨_, hzero⟩ | ⟨p, parent, _, _, ⟨parent', hparent', hsame, hsent⟩, hchain,
      hnewHop, _⟩
    · omega
    · refine ⟨p, parent', hparent', hsame.chain.trans hchain.symm, ?_, hsent⟩
      rw [hsame.hop]
      omega

theorem evolves_inv : ChainInv fed s' where
  chains := evolves_chains h hev
  unique := evolves_unique h hev
  sent := evolves_sent h hev
  holders id node hholder := by
    rcases hev.holders id node hholder with hheld | ⟨call, hcall, hnode⟩
    · obtain ⟨call, hcall, hnode⟩ := h.holders id node hheld
      obtain ⟨call', hcall', hsame⟩ := hev.keeps id call hcall
      exact ⟨call', hcall', by rw [hsame.ask, hnode]⟩
    · obtain ⟨call', hcall', hsame⟩ := hev.keeps id call hcall
      exact ⟨call', hcall', by rw [hsame.ask, hnode]⟩

end Evolves

theorem reached_inv {fed : Federation} {s : ChainState}
    (h : Runs.Reach (step fed) Runs.Any {} s) : ChainInv fed s :=
  h.invariant (initial_inv fed) fun _ _ _ hinv _ hstep => evolves_inv hinv (step_evolves hstep)

/-! ## How far and where to -/

/-- The syncs of a chain whose hops are bounded are no more than the bound. -/
theorem further_le {fed : Federation} {s : ChainState} (h : ChainInv fed s) {chain bound : Nat}
    (hbound : ∀ (id : Nat) (call : ChainCall), s.calls[id]? = some call → call.chain = chain →
      call.hop ≤ bound) : s.further chain ≤ bound := by
  unfold further
  rw [List.countP_eq_length_filter]
  have hpairwise : s.calls.Pairwise fun a b => a.chain = b.chain → a.hop ≠ b.hop := by
    rw [List.pairwise_iff_getElem]
    intro i j hi hj hlt hchain hhop
    have hsame := h.unique i j _ _ (List.getElem?_eq_getElem hi) (List.getElem?_eq_getElem hj)
      hchain hhop
    omega
  have hmem : ∀ call ∈ s.calls.filter fun call =>
      decide (call.chain = chain) && decide (call.hop ≠ 0),
      call ∈ s.calls ∧ call.chain = chain ∧ call.hop ≠ 0 := by
    intro call hcall
    simpa using List.mem_filter.mp hcall
  have hnodup : ((s.calls.filter fun call =>
      decide (call.chain = chain) && decide (call.hop ≠ 0)).map (·.hop)).Nodup := by
    rw [List.Nodup, List.pairwise_map]
    refine (hpairwise.filter _).imp_of_mem fun {a b} ha hb hne => ?_
    exact hne ((hmem a ha).2.1.trans (hmem b hb).2.1.symm)
  have hsubset : ((s.calls.filter fun call =>
      decide (call.chain = chain) && decide (call.hop ≠ 0)).map (·.hop)) ⊆
      List.range' 1 bound := by
    intro hop hhop
    obtain ⟨call, hcall, rfl⟩ := List.mem_map.mp hhop
    obtain ⟨hin, hchain, hne⟩ := hmem call hcall
    obtain ⟨id, hid⟩ := List.mem_iff_getElem?.mp hin
    have hle := hbound id call hid hchain
    rw [List.mem_range'_1]
    omega
  have hlength := (hnodup.subperm hsubset).length_le
  rwa [List.length_map, List.length_range'] at hlength

section Refresh
variable {fed : Federation} {node : SourceAt} {scope : SyncScope} {depth : UInt8}

/-- Each sync of a refresh's chain stands on the refresh's way. -/
theorem walk_of_entered {s : ChainState} (h : ChainInv fed s) (htravels : fed.Travels scope)
    {chain : Nat} (hentered : s.Entered chain ⟨node, some (.refreshingOrigin scope depth)⟩)
    {id : Nat} {call : ChainCall} (hcall : s.calls[id]? = some call)
    (hchain : call.chain = chain) :
    (fed.walk depth.toNat node)[call.hop]? = some call.ask.node := by
  obtain ⟨first, hfirst, _, _, hask⟩ := hentered
  obtain ⟨first', hfirst', _, _, hvisit⟩ := h.chains id call hcall
  rw [hchain] at hfirst'
  obtain rfl := Option.some.inj (hfirst.symm.trans hfirst')
  rw [hask] at hvisit
  exact Federation.walk_of_visit htravels hvisit

theorem refresh_further_le {s : ChainState} (h : ChainInv fed s) (htravels : fed.Travels scope)
    {chain : Nat} (hentered : s.Entered chain ⟨node, some (.refreshingOrigin scope depth)⟩) :
    s.further chain ≤ depth.toNat := by
  refine further_le h fun id call hcall hchain => ?_
  obtain ⟨hlt, _⟩ := List.getElem?_eq_some_iff.mp
    (walk_of_entered h htravels hentered hcall hchain)
  have hle : (fed.walk depth.toNat node).length ≤ depth.toNat + 1 :=
    Federation.walk_length_le depth.toNat node
  omega

/-- On a way without repetitions a later sync is at another source. -/
theorem refresh_not_selfWaits {s : ChainState} (h : ChainInv fed s) (htravels : fed.Travels scope)
    (hnodup : (fed.walk depth.toNat node).Nodup) {chain : Nat}
    (hentered : s.Entered chain ⟨node, some (.refreshingOrigin scope depth)⟩) :
    ¬ s.SelfWaits chain := by
  intro ⟨a, b, earlier, later, ha, hb, hearlier, hlater, hlt, _, hholder⟩
  obtain ⟨holder, hcall, hnode⟩ := h.holders a later.ask.node hholder
  obtain rfl := Option.some.inj (ha.symm.trans hcall)
  have hat := walk_of_entered h htravels hentered ha hearlier
  have hat' := walk_of_entered h htravels hentered hb hlater
  rw [hnode, ← hat'] at hat
  obtain ⟨hbound, _⟩ := List.getElem?_eq_some_iff.mp hat'
  have hsame := (List.getElem?_inj (by omega) hnodup).mp hat
  omega

end Refresh

/-! ## Going the whole way -/

/-- A refresh alone in the federation, `hops` asks further on: all that it has
come past hold their locks, no other lock is taken. -/
structure OnTheWay (fed : Federation) (ask : SyncAsk) (hops : Nat) (s : ChainState) : Prop where
  reached : Runs.Reach (step fed) Runs.Any {} s
  length : s.calls.length = hops + 1
  before : ∀ hop < hops, ∃ call, s.calls[hop]? = some call ∧ call.chain = 0 ∧ call.hop = hop ∧
    fed.visit hop ask = some call.ask ∧ (s.locks call.ask.node).holder = some hop
  last : ∃ call, s.calls[hops]? = some call ∧ call.chain = 0 ∧ call.hop = hops ∧
    fed.visit hops ask = some call.ask ∧ call.sent = false ∧ call.phase = .arrived
  free : ∀ node, (∀ hop < hops, ∀ passed, fed.visit hop ask = some passed → passed.node ≠ node) →
    s.locks node = {}

theorem onTheWay_zero (fed : Federation) (node : SourceAt) (request : SyncRequest) :
    ∃ s, OnTheWay fed ⟨node, some request⟩ 0 s := by
  refine ⟨_, Runs.Reach.start.step (l := ChainLabel.receive node request) trivial rfl, rfl, by simp,
    ⟨_, rfl, rfl, rfl, rfl, rfl, rfl⟩, fun _ _ => rfl⟩

theorem step_lock {fed : Federation} {s : ChainState} {id : Nat} {call : ChainCall}
    (hcall : s.calls[id]? = some call) (harrived : call.phase = .arrived)
    (hrequest : call.ask.request.isSome = true)
    (hsource : (fed.sources call.ask.node).isSome = true) :
    s.step fed (.lock id) =
      some (s.move id call .queued ((s.locks call.ask.node).enqueue id)) := by
  show s.calls[id]?.bind _ = _
  rw [hcall]
  exact if_pos ⟨harrived, hrequest, hsource⟩

theorem step_grant {fed : Federation} {s : ChainState} {id : Nat} {call : ChainCall}
    {node : SourceAt} {lock : FifoLock Nat} (hcall : s.calls[id]? = some call)
    (hqueued : call.phase = .queued) (hnode : call.ask.node = node)
    (hacquire : (s.locks node).acquire = some (id, lock)) :
    s.step fed (.grant node) = some (s.move id call .holding lock) := by
  show (s.locks node).acquire.bind _ = _
  rw [hacquire, Option.bind_some]
  show s.calls[id]?.bind _ = _
  rw [hcall]
  exact if_pos ⟨hqueued, hnode⟩

theorem step_forward {fed : Federation} {s : ChainState} {id : Nat} {call : ChainCall}
    {ask : SyncAsk} (hcall : s.calls[id]? = some call) (hholding : call.phase = .holding)
    (hunsent : call.sent = false) (hforward : fed.forward call.ask = some ask) :
    s.step fed (.forward id) = some { s with
      calls := s.calls.set id { call with sent := true } ++
        [{ chain := call.chain, hop := call.hop + 1, ask }] } := by
  show s.calls[id]?.bind _ = _
  rw [hcall, Option.bind_some, if_pos ⟨hholding, hunsent⟩, hforward, Option.map_some]

/-- A sync that has arrived where the lock is free gets it and asks its
origin. -/
theorem reach_asked {fed : Federation} {s : ChainState}
    (h : Runs.Reach (step fed) Runs.Any {} s) {id : Nat} {call : ChainCall} {next : SyncAsk}
    (hcall : s.calls[id]? = some call) (harrived : call.phase = .arrived)
    (hunsent : call.sent = false) (hforward : fed.forward call.ask = some next)
    (hfree : s.locks call.ask.node = {}) :
    Runs.Reach (step fed) Runs.Any {}
      { calls := s.calls.set id { call with phase := .holding, sent := true } ++
          [{ chain := call.chain, hop := call.hop + 1, ask := next }]
        locks := Function.update s.locks call.ask.node ⟨some id, []⟩ } := by
  obtain ⟨request, hrequest, hrest⟩ := Option.bind_eq_some_iff.mp hforward
  obtain ⟨source, hsource, _⟩ := Option.bind_eq_some_iff.mp hrest
  have hqueued := h.step (l := ChainLabel.lock id) trivial
    (step_lock hcall harrived (by rw [hrequest]; rfl) (by rw [hsource]; rfl))
  have hwaiting : (s.move id call .queued ((s.locks call.ask.node).enqueue id)).calls[id]? =
      some { call with phase := .queued } := Slots.getElem?_set_self hcall _
  have hacquire : ((s.move id call .queued ((s.locks call.ask.node).enqueue id)).locks
      call.ask.node).acquire = some (id, ⟨some id, []⟩) := by
    rw [move_locks, if_pos rfl, hfree]
    rfl
  have hgranted := hqueued.step (l := ChainLabel.grant call.ask.node) trivial
    (step_grant hwaiting rfl rfl hacquire)
  have hholding : ((s.calls.set id { call with phase := .queued }).set id
      { call with phase := .holding })[id]? = some { call with phase := .holding } :=
    Slots.getElem?_set_self hwaiting _
  have hasked := hgranted.step (l := ChainLabel.forward id) trivial
    (step_forward hholding rfl hunsent hforward)
  simpa [move] using hasked

theorem onTheWay_succ {fed : Federation} {ask next : SyncAsk} {hops : Nat} {s : ChainState}
    (h : OnTheWay fed ask hops s) (hnext : fed.visit (hops + 1) ask = some next)
    (hnew : ∀ hop < hops, ∀ passed here, fed.visit hop ask = some passed →
      fed.visit hops ask = some here → passed.node ≠ here.node) :
    ∃ s', OnTheWay fed ask (hops + 1) s' := by
  obtain ⟨call, hcall, hchain, hhop, hvisit, hunsent, harrived⟩ := h.last
  have hforward : fed.forward call.ask = some next := by
    rw [Federation.visit_succ, hvisit] at hnext
    exact hnext
  have hfree := h.free call.ask.node fun hop hlt passed hpassed =>
    hnew hop hlt passed call.ask hpassed hvisit
  have hreached := reach_asked h.reached hcall harrived hunsent hforward hfree
  have hlength : (s.calls.set hops { call with phase := .holding, sent := true }).length =
      hops + 1 := by
    rw [List.length_set, h.length]
  refine ⟨_, hreached, ?_, ?_, ?_, ?_⟩
  · rw [List.length_append, hlength, List.length_singleton]
  · intro hop hlt
    dsimp only
    rw [List.getElem?_append_left (hlength ▸ hlt)]
    rcases Nat.lt_succ_iff_lt_or_eq.mp hlt with hbefore | rfl
    · obtain ⟨passed, hpassed, hpassedChain, hpassedHop, hpassedVisit, hholder⟩ :=
        h.before hop hbefore
      have hne := hnew hop hbefore passed.ask call.ask hpassedVisit hvisit
      refine ⟨passed, ?_, hpassedChain, hpassedHop, hpassedVisit, ?_⟩
      · rw [List.getElem?_set_ne (Nat.ne_of_gt hbefore), hpassed]
      · rw [Function.update_of_ne hne, hholder]
    · refine ⟨_, List.getElem?_set_self (by rw [h.length]; exact hlt), hchain, hhop, hvisit, ?_⟩
      rw [Function.update_self]
  · refine ⟨{ chain := call.chain, hop := call.hop + 1, ask := next }, ?_, hchain, by rw [hhop],
      hnext, rfl, rfl⟩
    dsimp only
    rw [List.getElem?_append_right (le_of_eq hlength), hlength, Nat.sub_self]
    rfl
  · intro node hpast
    have hne : node ≠ call.ask.node := fun heq =>
      hpast hops (Nat.lt_succ_self hops) call.ask hvisit heq.symm
    dsimp only
    rw [Function.update_of_ne hne]
    exact h.free node fun hop hlt => hpast hop (Nat.lt_succ_of_lt hlt)

section Refresh
variable {fed : Federation} {node : SourceAt} {scope : SyncScope} {depth : UInt8}

/-- Nothing stops a refresh on the part of its way that repeats no source. -/
theorem onTheWay_refresh (htravels : fed.Travels scope) (hops : Nat)
    (hlt : hops < (fed.walk depth.toNat node).length)
    (hnodup : ((fed.walk depth.toNat node).take hops).Nodup) :
    ∃ s, OnTheWay fed ⟨node, some (.refreshingOrigin scope depth)⟩ hops s := by
  induction hops with
  | zero => exact onTheWay_zero fed node _
  | succ hops ih =>
    have hprefix : ((fed.walk depth.toNat node).take hops).Nodup :=
      hnodup.sublist (List.take_sublist_take_left (Nat.le_succ hops))
    obtain ⟨s, hs⟩ := ih (by omega) hprefix
    obtain ⟨request, hvisit⟩ := Federation.visit_refresh (hops + 1) node htravels depth
    rw [List.getElem?_eq_getElem hlt, Option.map_some] at hvisit
    refine onTheWay_succ hs hvisit fun hop hbefore passed here hpassed hhere heq => ?_
    have hat := Federation.walk_of_visit htravels hpassed
    have hat' := Federation.walk_of_visit htravels hhere
    rw [heq, ← hat', ← List.getElem?_take_of_lt (Nat.lt_succ_of_lt hbefore),
      ← List.getElem?_take_of_lt (Nat.lt_succ_self hops)] at hat
    have hsame := (List.getElem?_inj (by rw [List.length_take]; omega) hnodup).mp hat
    omega

/-- A refresh that comes back to a source waits there for itself. -/
theorem refresh_selfWaits (htravels : fed.Travels scope)
    (hrepeats : ¬ (fed.walk depth.toNat node).Nodup) :
    ∃ s, Runs.Reach (step fed) Runs.Any {} s ∧
      s.Entered 0 ⟨node, some (.refreshingOrigin scope depth)⟩ ∧ s.SelfWaits 0 := by
  obtain ⟨later, hlater, hprefix, earlier, hlt, hrepeat⟩ := Lists.exists_first_repeat hrepeats
  obtain ⟨s, hs⟩ := onTheWay_refresh htravels later hlater hprefix
  obtain ⟨call, hcall, hchain, hhop, hvisit, hunsent, harrived⟩ := hs.last
  obtain ⟨passed, hpassed, hpassedChain, hpassedHop, hpassedVisit, hholder⟩ := hs.before earlier hlt
  have hsame : passed.ask.node = call.ask.node := by
    have hat := Federation.walk_of_visit htravels hpassedVisit
    have hat' := Federation.walk_of_visit htravels hvisit
    rw [hrepeat, ← List.getElem?_eq_getElem hlater, hat'] at hat
    exact (Option.some.inj hat).symm
  -- the earlier sync went on from there, so the source is configured
  have hsource : (fed.sources call.ask.node).isSome = true := by
    obtain ⟨request, hnext⟩ := Federation.visit_refresh (earlier + 1) node htravels depth
    rw [List.getElem?_eq_getElem (by omega), Option.map_some, Federation.visit_succ, hpassedVisit,
      Option.bind_some] at hnext
    obtain ⟨_, _, hrest⟩ := Option.bind_eq_some_iff.mp hnext
    obtain ⟨source, hsource, _⟩ := Option.bind_eq_some_iff.mp hrest
    rw [← hsame, hsource]
    rfl
  have hrequest : call.ask.request.isSome = true := by
    obtain ⟨request, hasked⟩ := Federation.visit_refresh later node htravels depth
    rw [hvisit, List.getElem?_eq_getElem hlater, Option.map_some, Option.some.injEq] at hasked
    rw [hasked]
    rfl
  have hqueued := hs.reached.step (l := ChainLabel.lock later) trivial
    (step_lock hcall harrived hrequest hsource)
  have hkept : ∀ hop < later, (s.calls.set later { call with phase := .queued })[hop]? =
      s.calls[hop]? := fun hop hbefore => List.getElem?_set_ne (Nat.ne_of_gt hbefore)
  refine ⟨_, hqueued, ?_, earlier, later, passed, { call with phase := .queued }, ?_, ?_,
    hpassedChain, hchain, ?_, rfl, ?_⟩
  · obtain ⟨first, hfirst, hfirstChain, hfirstHop, hfirstVisit, _⟩ := hs.before 0 (by omega)
    exact ⟨first, (hkept 0 (by omega)).trans hfirst, hfirstChain, hfirstHop,
      (Option.some.inj hfirstVisit).symm⟩
  · exact (hkept earlier hlt).trans hpassed
  · exact Slots.getElem?_set_self hcall _
  · show passed.hop < call.hop
    omega
  · rw [move_locks, if_pos rfl, FifoLock.holder_enqueue, ← hsame]
    exact hholder

/-- **A refresh never waits for a lock that its own chain holds, and causes no
more syncs than it has hops, exactly when** no source comes twice on its way. -/
theorem chain_never_waits_iff (fed : Federation) (node : SourceAt) (scope : SyncScope)
    (depth : UInt8) (htravels : fed.Travels scope) :
    (∀ s, Runs.Reach (step fed) Runs.Any {} s → ∀ chain,
        s.Entered chain ⟨node, some (.refreshingOrigin scope depth)⟩ →
        s.further chain ≤ depth.toNat ∧ ¬ s.SelfWaits chain) ↔
      (fed.walk depth.toNat node).Nodup := by
  constructor
  · intro hnever
    by_contra hrepeats
    obtain ⟨s, hs, hentered, hwaits⟩ := refresh_selfWaits htravels hrepeats
    exact (hnever s hs 0 hentered).2 hwaits
  · intro hnodup s hs chain hentered
    have hinv := reached_inv hs
    exact ⟨refresh_further_le hinv htravels hentered,
      refresh_not_selfWaits hinv htravels hnodup hentered⟩

end Refresh

/-- A central instance with an edge behind it, which gathers for itself. -/
def centralAndEdge : Federation where
  sources node :=
    if node = ⟨"central", "src"⟩ then some { connectorType := .remote, ttlSeconds := 60 }
    else if node = ⟨"edge", "src"⟩ then some { ttlSeconds := 60 }
    else none
  origin _ := ⟨"edge", "src"⟩

theorem central_never_waits_iff :
    (∀ s, Runs.Reach (step centralAndEdge) Runs.Any {} s → ∀ chain,
        s.Entered chain ⟨⟨"central", "src"⟩, some (.refreshingOrigin (.hosts ["a"]) 3)⟩ →
        s.further chain ≤ (3 : UInt8).toNat ∧ ¬ s.SelfWaits chain) ↔
      (centralAndEdge.walk (3 : UInt8).toNat ⟨"central", "src"⟩).Nodup :=
  chain_never_waits_iff centralAndEdge ⟨"central", "src"⟩ (.hosts ["a"]) 3
    ⟨by decide, by decide, by decide⟩

/-- Two instances whose sources point at each other. -/
def facingPair : Federation where
  sources node :=
    if node.sourceId = "src" then some { connectorType := .remote, ttlSeconds := 60 } else none
  origin node := if node.url = "a" then ⟨"b", "src"⟩ else ⟨"a", "src"⟩

/-- With the default budget the refresh is back after two hops, at the lock it
holds. -/
theorem facingPair_waits_for_itself :
    facingPair.Travels (.hosts ["web"]) ∧
    ∃ s, Runs.Reach (step facingPair) Runs.Any {} s ∧
      s.Entered 0 ⟨⟨"a", "src"⟩, some (.refreshingOrigin (.hosts ["web"]) defaultRefreshDepth)⟩ ∧
      s.SelfWaits 0 := by
  have htravels : facingPair.Travels (.hosts ["web"]) := ⟨by decide, by decide, by decide⟩
  exact ⟨htravels, refresh_selfWaits htravels (by decide)⟩

end ChainState

end UnifiedApi
