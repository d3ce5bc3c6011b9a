import UnifiedApi.Application.Credentials
import UnifiedApi.Cache.MemoryCache
import UnifiedApi.Domain.SyncHealth
import UnifiedApi.Domain.Topology
import UnifiedApi.Lib.Slots

/-! # Describing the federation from here

Local facts first, then each peer asked to describe itself, with one hop less
to spend. The answers arrive in the order in which the requests complete. -/

namespace UnifiedApi

/-- The most hops an instance will pass on. -/
def maxDepth : Nat := 3

def peerTimeoutSeconds : Nat := 8

/-- Its own answer, and the time it may spend waiting on each level below. -/
def peerTimeout (depth : Nat) : Nat := peerTimeoutSeconds * (depth + 1)

structure PeerRequest where
  url : String
  apiKey : Option String
  insecureTls : Bool
  timeoutSeconds : Nat
  /-- How many further hops the peer may take. -/
  depth : Nat
  deriving DecidableEq

/-- How a request's task ends. -/
inductive PeerAnswer where
  | answered (result : Except String Topology)
  | panicked

/-- What one description reads. The cache, the health and the clock are read
source by source, the secrets peer by peer. -/
structure TopologyInputs where
  sources : StrMap Source
  cache : String → MemoryCache
  health : String → SyncHealthRegistry
  now : String → Nat
  names : SecretNames
  resolver : String → Resolver
  name : Option String
  /-- What each peer that is asked answers. -/
  answer : PeerRequest → PeerAnswer
  visible : String → Bool

/-- The order in which tasks complete: each does, once. -/
structure CompletionOrder (Task : Type) where
  completed : List Task → List Task
  perm : ∀ tasks, (completed tasks).Perm tasks

def cargoPkgVersion : String := "0.37.0"

namespace TopologyInputs
variable (inputs : TopologyInputs)

def grouped : StrMap Members := peersOf inputs.sources inputs.visible

def visibleCount : Nat := (inputs.sources.keys.filter inputs.visible).length

def peerSource (member : String × Source) : PeerSource :=
  let entry := (inputs.cache member.1).get member.1
  let health := (inputs.health member.1).get member.1 (inputs.now member.1)
  { sourceId := member.1
    remoteSource := member.2.scriptPath
    cached := entry.isSome
    hosts := entry.map (·.dataset.hostvars.size)
    groups := entry.map (·.dataset.groups.size)
    ageSeconds := entry.map (·.ageSeconds (inputs.now member.1))
    consecutiveFailures := health.elim 0 (·.consecutiveFailures)
    lastPullAgeSeconds := health.bind (·.lastSuccessAgeSeconds)
    lastError := health.bind (·.lastError) }

def tooDeep : String := "not asked: depth limit reached"

def stopped : String := "not described: an internal error stopped the request"

/-- A peer before anyone is asked. -/
def listedPeer (depth : Nat) (group : String × Members) : Peer where
  url := group.1
  sources := group.2.1.map inputs.peerSource
  error := if depth = 0 then some tooDeep else none

/-- Which peers are asked, each at its place in the list, and whose key asks. -/
def toAsk (depth : Nat) : List (Nat × String × Source) :=
  if depth = 0 then [] else
    inputs.grouped.toList.zipIdx.map fun (group, index) => (index, group.1, group.2.keySource)

/-- What the sources reading from a peer already authenticate with. -/
def peerRequest (url : String) (source : Source) (depth : Nat) : Except String PeerRequest :=
  match resolveCredentials inputs.names (inputs.resolver url) source.credentialIds with
  | .error message => .error ("not asked: " ++ message)
  | .ok credentials =>
    .ok { url
          apiKey := (credentials["token"]?.or credentials["TOKEN"]?).or credentials["api_key"]?
          insecureTls := source.config["insecure_tls"]? == some "true"
          timeoutSeconds := peerTimeout depth
          depth }

/-- The peers and the requests that are spawned. -/
structure Asked where
  peers : List Peer
  asks : List (Nat × PeerRequest) := []

def ask (depth : Nat) (asked : Asked) (peer : Nat × String × Source) : Asked :=
  match inputs.peerRequest peer.2.1 peer.2.2 (depth - 1) with
  | .error reason =>
    { asked with peers := asked.peers.modify peer.1 fun p => { p with error := some reason } }
  | .ok request => { asked with asks := asked.asks ++ [(peer.1, request)] }

/-- One task is joined; one that panicked says nothing, not even its place. -/
def join (peers : List Peer) (task : Nat × PeerRequest) : List Peer :=
  match inputs.answer task.2 with
  | .answered (.ok topology) => peers.modify task.1 fun p => { p with inst := some topology }
  | .answered (.error reason) => peers.modify task.1 fun p => { p with error := some reason }
  | .panicked => peers

/-- A peer that was asked is left with an answer or a reason. -/
def settle (p : Peer) : Peer :=
  if p.inst.isNone && p.error.isNone then { p with error := some stopped } else p

def asked (depth : Nat) : Asked :=
  (inputs.toAsk depth).foldl (inputs.ask depth)
    { peers := inputs.grouped.toList.map (inputs.listedPeer depth) }

def describe (order : CompletionOrder (Nat × PeerRequest)) (requested : Nat) : Topology :=
  let depth := min requested maxDepth
  let asked := inputs.asked depth
  let joined := (order.completed asked.asks).foldl inputs.join asked.peers
  { name := inputs.name
    version := cargoPkgVersion
    sources := some inputs.visibleCount
    peers := asked.asks.foldl (fun peers task => peers.modify task.1 settle) joined }

/-! ## What becomes of one peer -/

/-- From its own request and its own answer. -/
def settledPeer (depth : Nat) (group : String × Members) : Peer :=
  let listed : Peer := { url := group.1, sources := group.2.1.map inputs.peerSource }
  match depth with
  | 0 => { listed with error := some tooDeep }
  | hops + 1 =>
    match inputs.peerRequest group.1 group.2.keySource hops with
    | .error reason => { listed with error := some reason }
    | .ok request =>
      match inputs.answer request with
      | .answered (.ok topology) => { listed with inst := some topology }
      | .answered (.error reason) => { listed with error := some reason }
      | .panicked => { listed with error := some stopped }

/-- What its resolution writes at a peer. -/
def resolved (depth : Nat) (peer : Nat × String × Source) (p : Peer) : Peer :=
  match inputs.peerRequest peer.2.1 peer.2.2 (depth - 1) with
  | .error reason => { p with error := some reason }
  | .ok _ => p

/-- The task that it spawns. -/
def spawned (depth : Nat) (peer : Nat × String × Source) : Option (Nat × PeerRequest) :=
  (inputs.peerRequest peer.2.1 peer.2.2 (depth - 1)).toOption.map fun request => (peer.1, request)

/-- What a completed task writes. -/
def joined (task : Nat × PeerRequest) (p : Peer) : Peer :=
  match inputs.answer task.2 with
  | .answered (.ok topology) => { p with inst := some topology }
  | .answered (.error reason) => { p with error := some reason }
  | .panicked => p

theorem foldl_ask (depth : Nat) (peers : List (Nat × String × Source)) (asked : Asked) :
    peers.foldl (inputs.ask depth) asked =
      { peers := peers.foldl (fun listed peer => listed.modify peer.1 (inputs.resolved depth peer))
          asked.peers
        asks := asked.asks ++ peers.filterMap (inputs.spawned depth) } := by
  induction peers generalizing asked with
  | nil => simp
  | cons peer rest ih =>
    rw [List.foldl_cons, ih, List.foldl_cons]
    cases hrequest : inputs.peerRequest peer.2.1 peer.2.2 (depth - 1) with
    | error reason =>
      have hspawned : inputs.spawned depth peer = none := by rw [spawned, hrequest]; rfl
      have hresolved : inputs.resolved depth peer = fun p => { p with error := some reason } := by
        funext p
        rw [resolved, hrequest]
      rw [List.filterMap_cons_none hspawned, hresolved]
      simp only [ask, hrequest]
    | ok request =>
      have hspawned : inputs.spawned depth peer = some (peer.1, request) := by
        rw [spawned, hrequest]; rfl
      have hresolved : inputs.resolved depth peer = id := by
        funext p
        rw [resolved, hrequest]; rfl
      rw [List.filterMap_cons_some hspawned, hresolved, List.modify_id]
      simp only [ask, hrequest, List.append_assoc, List.singleton_append]

theorem join_eq (peers : List Peer) (task : Nat × PeerRequest) :
    inputs.join peers task = peers.modify task.1 (inputs.joined task) := by
  unfold join joined
  split
  · rfl
  · rfl
  · exact (List.modify_id _ _).symm

theorem asked_eq (depth : Nat) :
    inputs.asked depth =
      { peers := (inputs.toAsk depth).foldl
          (fun listed peer => listed.modify peer.1 (inputs.resolved depth peer))
          (inputs.grouped.toList.map (inputs.listedPeer depth))
        asks := (inputs.toAsk depth).filterMap (inputs.spawned depth) } :=
  inputs.foldl_ask depth (inputs.toAsk depth) _

/-- The one slot a peer has in what is asked. -/
theorem filter_toAsk {depth i : Nat} {group : String × Members} (hdepth : depth ≠ 0)
    (hgroup : inputs.grouped.toList[i]? = some group) :
    (inputs.toAsk depth).filter (·.1 == i) = [(i, group.1, group.2.keySource)] := by
  have htask : ∀ slot : (String × Members) × Nat,
      Option.filter (fun peer : Nat × String × Source => peer.1 == i)
        (some (slot.2, slot.1.1, slot.1.2.keySource)) =
      if slot.2 = i then some (slot.2, slot.1.1, slot.1.2.keySource) else none := by
    intro slot
    by_cases hi : slot.2 = i <;> simp [hi]
  rw [toAsk, if_neg hdepth, ← List.filterMap_eq_map, List.filter_filterMap]
  refine (congrArg (List.filterMap · _) (funext htask)).trans ?_
  refine (Slots.filterMap_zipIdx (fun (group : String × Members) place =>
    some (place, group.1, group.2.keySource)) _ i).trans ?_
  rw [hgroup]
  rfl

/-- A slot's tasks are those that its own requests spawned. -/
theorem filter_spawned (depth i : Nat) (peers : List (Nat × String × Source)) :
    (peers.filterMap (inputs.spawned depth)).filter (·.1 == i) =
      (peers.filter (·.1 == i)).filterMap (inputs.spawned depth) := by
  rw [List.filter_filterMap, List.filterMap_filter]
  congr 1
  funext peer
  unfold spawned
  cases inputs.peerRequest peer.2.1 peer.2.2 (depth - 1) with
  | error _ => simp [Except.toOption]
  | ok request => by_cases hi : peer.1 = i <;> simp [Except.toOption, hi]

/-- So there is at most one, and the order of the answers does not matter to it. -/
theorem filter_completed {depth i : Nat} {group : String × Members}
    (order : CompletionOrder (Nat × PeerRequest)) (hdepth : depth ≠ 0)
    (hgroup : inputs.grouped.toList[i]? = some group) :
    (order.completed (inputs.asked depth).asks).filter (·.1 == i) =
      (inputs.spawned depth (i, group.1, group.2.keySource)).toList ∧
    (inputs.asked depth).asks.filter (·.1 == i) =
      (inputs.spawned depth (i, group.1, group.2.keySource)).toList := by
  have hasks : (inputs.asked depth).asks.filter (·.1 == i) =
      (inputs.spawned depth (i, group.1, group.2.keySource)).toList := by
    rw [asked_eq, filter_spawned, inputs.filter_toAsk hdepth hgroup]
    cases hspawned : inputs.spawned depth (i, group.1, group.2.keySource) with
    | none => exact List.filterMap_cons_none hspawned
    | some task => exact List.filterMap_cons_some hspawned
  refine ⟨?_, hasks⟩
  have hperm := (order.perm (inputs.asked depth).asks).filter (·.1 == i)
  rw [hasks] at hperm
  cases hspawned : inputs.spawned depth (i, group.1, group.2.keySource) with
  | none => rw [hspawned] at hperm; exact List.perm_nil.mp hperm
  | some task => rw [hspawned] at hperm; exact List.perm_singleton.mp hperm

/-- With no hop to spend nobody is asked. -/
theorem asked_zero :
    inputs.asked 0 = { peers := inputs.grouped.toList.map (inputs.listedPeer 0) } := rfl

/-- Its resolution, its answer and the last check, one after another. -/
theorem settle_joined_resolved (hops i : Nat) (group : String × Members) :
    let tasks := (inputs.spawned (hops + 1) (i, group.1, group.2.keySource)).toList
    tasks.foldl (fun p _ => settle p) (tasks.foldl (fun p task => inputs.joined task p)
      (inputs.resolved (hops + 1) (i, group.1, group.2.keySource)
        (inputs.listedPeer (hops + 1) group))) =
    inputs.settledPeer (hops + 1) group := by
  unfold spawned resolved settledPeer
  simp only [Nat.add_sub_cancel]
  cases inputs.peerRequest group.1 group.2.keySource hops with
  | error reason => rfl
  | ok request =>
    simp only [Except.toOption, Option.map_some, Option.toList_some, List.foldl_cons,
      List.foldl_nil, joined]
    match inputs.answer request with
    | .answered (.ok _) => rfl
    | .answered (.error _) => rfl
    | .panicked => rfl

/-- A peer's description is its own, whatever the order of the answers. -/
theorem describe_peers (order : CompletionOrder (Nat × PeerRequest)) (requested : Nat) :
    (inputs.describe order requested).peers =
      inputs.grouped.toList.map (inputs.settledPeer (min requested maxDepth)) := by
  unfold describe
  generalize min requested maxDepth = depth
  cases depth with
  | zero =>
    have hnone : order.completed [] = [] := List.perm_nil.mp (order.perm [])
    simp only [asked_zero, hnone, List.foldl_nil]
    rfl
  | succ hops =>
    have hjoin : inputs.join = fun peers task => peers.modify task.1 (inputs.joined task) := by
      funext peers task
      exact inputs.join_eq peers task
    have hpeers : ∀ i, (inputs.asked (hops + 1)).peers[i]? =
        inputs.grouped.toList[i]?.map fun group =>
          ((inputs.toAsk (hops + 1)).filter (·.1 == i)).foldl
            (fun p peer => inputs.resolved (hops + 1) peer p)
            (inputs.listedPeer (hops + 1) group) := by
      intro i
      rw [asked_eq, Slots.getElem?_foldl_modify, List.getElem?_map, Option.map_map]
      rfl
    apply List.ext_getElem?
    intro i
    simp only [hjoin]
    rw [Slots.getElem?_foldl_modify, Slots.getElem?_foldl_modify, hpeers, List.getElem?_map]
    cases hgroup : inputs.grouped.toList[i]? with
    | none => rfl
    | some group =>
      obtain ⟨hcompleted, hasks⟩ :=
        inputs.filter_completed order (Nat.succ_ne_zero hops) hgroup
      rw [hcompleted, hasks, inputs.filter_toAsk (Nat.succ_ne_zero hops) hgroup]
      exact congrArg some (inputs.settle_joined_resolved hops i group)

end TopologyInputs

end UnifiedApi
