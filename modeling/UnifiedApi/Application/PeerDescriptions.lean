import UnifiedApi.Application.Topology

/-! # What a description says of each peer

Whatever the order of the answers and whichever of the peers fail. -/

namespace UnifiedApi
/-- One hop more than what every answer nests. -/
theorem nestsWithin_of_answers {depth : Nat} {topology : Topology}
    (h : ∀ peer ∈ topology.peers, ∀ answered, peer.inst = some answered →
      ∃ hops, hops + 1 = depth ∧ answered.NestsWithin hops) : topology.NestsWithin depth := by
  cases depth with
  | zero =>
    intro peer hpeer
    cases hinst : peer.inst with
    | none => rfl
    | some answered =>
      obtain ⟨hops, hdepth, _⟩ := h peer hpeer answered hinst
      cases hdepth
  | succ depth =>
    intro peer hpeer answered hanswered
    obtain ⟨hops, hdepth, hwithin⟩ := h peer hpeer answered hanswered
    exact Nat.succ.inj hdepth ▸ hwithin

namespace TopologyInputs
variable (inputs : TopologyInputs)

/-- What is asked and answered leaves the local facts as they are. -/
theorem settledPeer_listed (depth : Nat) (group : String × Members) :
    (inputs.settledPeer depth group).url = group.1 ∧
      (inputs.settledPeer depth group).sources = group.2.1.map inputs.peerSource := by
  unfold settledPeer
  split
  · exact ⟨rfl, rfl⟩
  · split
    · exact ⟨rfl, rfl⟩
    · split <;> exact ⟨rfl, rfl⟩

@[simp] theorem settledPeer_url (depth : Nat) (group : String × Members) :
    (inputs.settledPeer depth group).url = group.1 := (inputs.settledPeer_listed depth group).1

@[simp] theorem settledPeer_sources (depth : Nat) (group : String × Members) :
    (inputs.settledPeer depth group).sources = group.2.1.map inputs.peerSource :=
  (inputs.settledPeer_listed depth group).2

/-- An answer or a reason, never both. -/
theorem settledPeer_inst_or_error (depth : Nat) (group : String × Members) :
    (inputs.settledPeer depth group).inst.isSome ↔
      (inputs.settledPeer depth group).error = none := by
  unfold settledPeer
  split
  · simp
  · split
    · simp
    · split <;> simp

theorem settledPeer_inst {hops : Nat} {group : String × Members} {answered : Topology} :
    (inputs.settledPeer (hops + 1) group).inst = some answered ↔
      ∃ request, inputs.peerRequest group.1 group.2.keySource hops = .ok request ∧
        inputs.answer request = .answered (.ok answered) := by
  unfold settledPeer
  dsimp only
  cases inputs.peerRequest group.1 group.2.keySource hops with
  | error reason => simp
  | ok request =>
    match hanswer : inputs.answer request with
    | .answered (.ok _) => simp [hanswer]
    | .answered (.error _) => simp [hanswer]
    | .panicked => simp [hanswer]

/-- A request is for the address it was made for, with the hops it was given. -/
theorem peerRequest_ok {url : String} {source : Source} {hops : Nat} {request : PeerRequest}
    (h : inputs.peerRequest url source hops = .ok request) :
    request.url = url ∧ request.depth = hops := by
  unfold peerRequest at h
  split at h
  · cases h
  · cases h
    exact ⟨rfl, rfl⟩

/-- What is asked: the peers whose credentials resolve, each at its own place. -/
theorem mem_asks {hops : Nat} {ask : Nat × PeerRequest} :
    ask ∈ (inputs.asked (hops + 1)).asks ↔
      ∃ group, inputs.grouped.toList[ask.1]? = some group ∧
        inputs.peerRequest group.1 group.2.keySource hops = .ok ask.2 := by
  rw [asked_eq]
  simp only [List.mem_filterMap, toAsk, if_neg (Nat.succ_ne_zero hops), List.mem_map,
    List.mem_zipIdx_iff_getElem?]
  constructor
  · rintro ⟨_, ⟨⟨group, index⟩, hgroup, rfl⟩, hspawned⟩
    obtain ⟨request, hrequest, rfl⟩ := Option.map_eq_some_iff.mp hspawned
    exact ⟨group, hgroup, Results.toOption_eq_some_iff.mp hrequest⟩
  · rintro ⟨group, hgroup, hrequest⟩
    refine ⟨(ask.1, group.1, group.2.keySource), ⟨(group, ask.1), hgroup, rfl⟩, ?_⟩
    unfold spawned
    rw [Nat.add_sub_cancel, hrequest]
    rfl

/-- The addresses of a description, in order. -/
theorem map_url_describe (order : CompletionOrder (Nat × PeerRequest)) (requested : Nat) :
    (inputs.describe order requested).peers.map (·.url) = inputs.grouped.keys := by
  rw [describe_peers, List.map_map, ← Std.ExtTreeMap.map_fst_toList_eq_keys]
  exact List.map_congr_left fun group _ => inputs.settledPeer_url _ group

/-- One address is one group. -/
theorem grouped_inj {group other : String × Members} (hgroup : group ∈ inputs.grouped.toList)
    (hother : other ∈ inputs.grouped.toList) (h : group.1 = other.1) : group = other := by
  rw [Std.ExtTreeMap.mem_toList_iff_getElem?_eq_some] at hgroup hother
  rw [h, hother] at hgroup
  exact Prod.ext h (Option.some.inj hgroup).symm

/-- A peer's instance is what was answered to the request for its address. -/
theorem settledPeer_inst_iff {depth : Nat} {group : String × Members} {answered : Topology}
    (hgroup : group ∈ inputs.grouped.toList) :
    (inputs.settledPeer depth group).inst = some answered ↔
      ∃ ask ∈ (inputs.asked depth).asks, ask.2.url = group.1 ∧
        inputs.answer ask.2 = .answered (.ok answered) := by
  cases depth with
  | zero =>
    rw [asked_zero]
    simp [settledPeer]
  | succ hops =>
    rw [settledPeer_inst]
    constructor
    · rintro ⟨request, hrequest, hanswer⟩
      obtain ⟨place, hplace⟩ := List.mem_iff_getElem?.mp hgroup
      exact ⟨(place, request), inputs.mem_asks.mpr ⟨group, hplace, hrequest⟩,
        (inputs.peerRequest_ok hrequest).1, hanswer⟩
    · rintro ⟨ask, hask, hurl, hanswer⟩
      obtain ⟨other, hother, hrequest⟩ := inputs.mem_asks.mp hask
      have hsame : other = group :=
        inputs.grouped_inj (List.mem_of_getElem? hother) hgroup
          ((inputs.peerRequest_ok hrequest).1.symm.trans hurl)
      subst hsame
      exact ⟨ask.2, hrequest, hanswer⟩

/-- What is asked may spend one hop less. -/
theorem depth_of_asked {depth : Nat} {ask : Nat × PeerRequest}
    (hask : ask ∈ (inputs.asked depth).asks) : ask.2.depth + 1 = depth := by
  cases depth with
  | zero =>
    rw [asked_zero] at hask
    cases hask
  | succ hops =>
    obtain ⟨group, _, hrequest⟩ := inputs.mem_asks.mp hask
    rw [(inputs.peerRequest_ok hrequest).2]

/-- Each address that a visible remote source reads from is described once, by its own
sources and by its own answer or the reason there is none. -/
theorem describe_accounts (order : CompletionOrder (Nat × PeerRequest)) (requested : Nat) :
    let topology := inputs.describe order requested
    let depth := min requested maxDepth
    (topology.peers.map (·.url)).Nodup ∧
      (∀ url, url ∈ topology.peers.map (·.url) ↔ ∃ id source, inputs.sources[id]? = some source ∧
        inputs.visible id = true ∧ remoteUrl source = some url) ∧
      (∀ peer ∈ topology.peers,
        peer.sources =
            (readingFrom inputs.sources inputs.visible peer.url).map inputs.peerSource ∧
          (peer.inst.isSome ↔ peer.error = none) ∧
          ∀ answered, peer.inst = some answered ↔
            ∃ ask ∈ (inputs.asked depth).asks, ask.2.url = peer.url ∧
              inputs.answer ask.2 = .answered (.ok answered)) ∧
      ((∀ ask ∈ (inputs.asked depth).asks, ∀ answered,
          inputs.answer ask.2 = .answered (.ok answered) → answered.NestsWithin ask.2.depth) →
        topology.NestsWithin depth) := by
  intro topology depth
  have hurls : topology.peers.map (·.url) = inputs.grouped.keys :=
    inputs.map_url_describe order requested
  refine ⟨?_, ?_, ?_, ?_⟩
  · rw [hurls]
    exact Std.ExtTreeMap.nodup_keys
  · intro url
    rw [hurls, Std.ExtTreeMap.mem_keys]
    exact mem_peersOf
  · intro peer hpeer
    rw [describe_peers] at hpeer
    obtain ⟨group, hgroup, rfl⟩ := List.mem_map.mp hpeer
    refine ⟨?_, inputs.settledPeer_inst_or_error _ _, fun answered => ?_⟩
    · rw [settledPeer_sources, settledPeer_url,
        getElem?_peersOf.mp (Std.ExtTreeMap.mem_toList_iff_getElem?_eq_some.mp hgroup)]
    · rw [settledPeer_url]
      exact inputs.settledPeer_inst_iff hgroup
  · intro hwithin
    refine nestsWithin_of_answers fun peer hpeer answered hanswered => ?_
    rw [describe_peers] at hpeer
    obtain ⟨group, hgroup, rfl⟩ := List.mem_map.mp hpeer
    obtain ⟨ask, hask, _, hanswer⟩ := (inputs.settledPeer_inst_iff hgroup).mp hanswered
    exact ⟨ask.2.depth, inputs.depth_of_asked hask, hwithin ask hask answered hanswer⟩

/-! ## One central and three edges -/

def edgeSource (url credential : String) : Source where
  connectorType := .remote
  credentialIds := [credential]
  scriptPath := "src-fleet"
  ttlSeconds := 60
  config := ({} : StrMap String).insert "url" url

/-- An edge that reads from one more. -/
def edgeTopology : Topology where
  version := "0.36.0"
  sources := some 4
  peers := [{ url := "https://far.example", sources := [], inst := some { version := "0.32.0" } }]

/-- One edge answers, one request is stopped, one edge has no key. -/
def centralInputs : TopologyInputs where
  sources := ((({} : StrMap Source).insert
    "src-dc1" (edgeSource "https://dc1.example" "cred-dc1")).insert
    "src-dc2" (edgeSource "https://dc2.example/" "cred-dc2")).insert
    "src-dc3" (edgeSource "https://dc3.example" "cred-dc3")
  cache := fun _ => {}
  health := fun _ => {}
  now := fun _ => 0
  names := ⟨id, id, id⟩
  resolver := fun _ id =>
    if id = "cred-dc3" then .error "Env var 'DC3_TOKEN' not set" else .ok [("token", "t")]
  name := some "central"
  answer := fun request =>
    if request.url = "https://dc1.example" then .answered (.ok edgeTopology) else .panicked
  visible := fun _ => true

def lastFirst (Task : Type) : CompletionOrder Task where
  completed := List.reverse
  perm := List.reverse_perm

theorem describe_accounts_central :
    (centralInputs.describe (lastFirst _) 2).NestsWithin 2 := by
  refine (centralInputs.describe_accounts (lastFirst _) 2).2.2.2 fun ask hask answered hanswer => ?_
  have hdepth : ask.2.depth = 1 := Nat.succ.inj (centralInputs.depth_of_asked hask)
  simp only [centralInputs] at hanswer
  split at hanswer
  · cases hanswer
    rw [hdepth]
    simp [edgeTopology, Topology.NestsWithin]
  · cases hanswer

example : (centralInputs.describe (lastFirst _) 2).peers.map (fun peer => (peer.url, peer.error)) =
    [("https://dc1.example", none), ("https://dc2.example", some stopped),
      ("https://dc3.example",
        some "not asked: credential 'cred-dc3': Env var 'DC3_TOKEN' not set")] := by
  decide +kernel

end TopologyInputs
end UnifiedApi
