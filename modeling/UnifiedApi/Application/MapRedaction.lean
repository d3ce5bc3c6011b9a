import Mathlib.Data.List.Forall2
import UnifiedApi.Application.PeerDescriptions
import UnifiedApi.Lib.Lists

/-! # What a redacted map still tells

Errors of several origins share one field and are told apart by their text. Two
descriptions that differ only in why peers could not be resolved are compared
as an outsider reads them. -/

namespace UnifiedApi

/-- The words by which a depth error is told. -/
def depthLimit : List Char := "depth limit".toList

/-- One description, with the depth that was requested. -/
structure TopologyRun where
  inputs : TopologyInputs
  order : CompletionOrder (Nat × PeerRequest)
  requested : Nat

namespace TopologyRun

def topology (run : TopologyRun) : Topology := run.inputs.describe run.order run.requested

/-- Why the peer at an address could not be resolved, when that is what went wrong. -/
def unresolved (run : TopologyRun) (url : String) : Option String :=
  if min run.requested maxDepth = 0 then none
  else
    match run.inputs.grouped[url]? with
    | none => none
    | some members =>
      match resolveCredentials run.inputs.names (run.inputs.resolver url)
          members.keySource.credentialIds with
      | .error message => some message
      | .ok _ => none

/-- The two maps are one but for the texts of resolution failures, and for what
`sameSource` leaves open of the sources. -/
structure SameButTexts (sameSource : PeerSource → PeerSource → Prop) (run other : TopologyRun) :
    Prop where
  name : run.topology.name = other.topology.name
  sources : run.topology.sources = other.topology.sources
  peers : List.Forall₂ (fun peer peer' : Peer =>
    peer.url = peer'.url ∧ List.Forall₂ sameSource peer.sources peer'.sources ∧
      peer.inst = peer'.inst ∧
      (peer.error = peer'.error ∨
        (run.unresolved peer.url).isSome ∧ (other.unresolved peer'.url).isSome))
    run.topology.peers other.topology.peers

/-- Where both failed to resolve a peer, they say the same, or neither speaks of a limit. -/
def MessagesAgree (run other : TopologyRun) : Prop :=
  ∀ url message message', run.unresolved url = some message → other.unresolved url = some message' →
    message = message' ∨ ¬ depthLimit <:+: message.toList ∧ ¬ depthLimit <:+: message'.toList

end TopologyRun

/-- The same source but for the text of its last error. -/
def PeerSource.SameButError (source other : PeerSource) : Prop :=
  { source with lastError := none } = { other with lastError := none } ∧
    source.lastError.isSome = other.lastError.isSome

theorem PeerSource.forPush_eq {source other : PeerSource} (h : source.SameButError other) :
    source.forPush = other.forPush := by
  obtain ⟨hrest, herror⟩ := h
  have htext : source.lastError.map (fun _ => pullFailed) =
      other.lastError.map fun _ => pullFailed := by
    cases hsource : source.lastError <;> cases hother : other.lastError <;> simp_all
  have hsource : source.forPush = { { source with lastError := none } with
      lastError := source.lastError.map fun _ => pullFailed } := rfl
  rw [hsource, hrest, htext]
  rfl

/-! ## One error, as it is shown -/

def shownError (error : String) : String := if namesSecret error then notAsked else error

/-- What precedes the message does not speak of a limit, nor does it start to. -/
theorem depthLimit_infix_notAsked (message : String) :
    depthLimit <:+: ("not asked: " ++ message).toList ↔ depthLimit <:+: message.toList := by
  have hprefix : "not asked: ".toList =
      ['n', 'o', 't', ' ', 'a', 's', 'k', 'e', 'd', ':', ' '] := by decide
  have hlimit : depthLimit = ['d', 'e', 'p', 't', 'h', ' ', 'l', 'i', 'm', 'i', 't'] := by decide
  rw [String.toList_append, hprefix, hlimit]
  simp only [List.cons_append, List.nil_append, List.infix_cons_iff, List.cons_prefix_cons,
    Char.reduceEq, false_and, false_or, and_false, true_and]

theorem namesSecret_eq (error : String) : namesSecret error =
    ("not asked:".toList.isPrefixOf error.toList && !decide (depthLimit <:+: error.toList)) := rfl

theorem notAsked_isPrefixOf (message : String) :
    "not asked:".toList.isPrefixOf ("not asked: " ++ message).toList = true := by
  have hprefix : "not asked: ".toList = "not asked:".toList ++ [' '] := by decide
  rw [List.isPrefixOf_iff_prefix, String.toList_append, hprefix, List.append_assoc]
  exact List.prefix_append _ _

/-- A resolution failure is replaced unless it speaks of a limit. -/
theorem shownError_notAsked (message : String) :
    shownError ("not asked: " ++ message) =
      if depthLimit <:+: message.toList then "not asked: " ++ message else notAsked := by
  unfold shownError
  rw [namesSecret_eq, notAsked_isPrefixOf, Bool.true_and,
    decide_eq_decide.mpr (depthLimit_infix_notAsked message)]
  by_cases hlimit : depthLimit <:+: message.toList
  · rw [if_pos hlimit, decide_eq_true hlimit]
    rfl
  · rw [if_neg hlimit, decide_eq_false hlimit]
    rfl

theorem shownError_notAsked_eq_iff (message message' : String) :
    shownError ("not asked: " ++ message) = shownError ("not asked: " ++ message') ↔
      message = message' ∨
        ¬ depthLimit <:+: message.toList ∧ ¬ depthLimit <:+: message'.toList := by
  have hnotAsked : ¬ depthLimit <:+: notAsked.toList := by decide +kernel
  have hne : ∀ text : String, depthLimit <:+: text.toList → "not asked: " ++ text ≠ notAsked :=
    fun text htext heq => hnotAsked (heq ▸ (depthLimit_infix_notAsked text).mpr htext)
  rw [shownError_notAsked, shownError_notAsked]
  by_cases hmessage : depthLimit <:+: message.toList
  · by_cases hmessage' : depthLimit <:+: message'.toList
    · simp [hmessage, hmessage']
    · rw [if_pos hmessage, if_neg hmessage']
      have : message ≠ message' := fun heq => hmessage' (heq ▸ hmessage)
      simp [hne message hmessage, hmessage, this]
  · by_cases hmessage' : depthLimit <:+: message'.toList
    · rw [if_neg hmessage, if_pos hmessage']
      have : message ≠ message' := fun heq => hmessage (heq ▸ hmessage')
      simp [(hne message' hmessage').symm, hmessage', this]
    · simp [hmessage, hmessage']

/-! ## Two runs -/

namespace TopologyRun

/-- Its error is the failure's message. -/
theorem error_of_unresolved {run : TopologyRun} {peer : Peer} (hpeer : peer ∈ run.topology.peers)
    {message : String} (h : run.unresolved peer.url = some message) :
    peer.error = some ("not asked: " ++ message) := by
  rw [topology, TopologyInputs.describe_peers] at hpeer
  obtain ⟨group, hgroup, rfl⟩ := List.mem_map.mp hpeer
  rw [Std.ExtTreeMap.mem_toList_iff_getElem?_eq_some] at hgroup
  rw [TopologyInputs.settledPeer_url, unresolved, hgroup] at h
  cases hdepth : min run.requested maxDepth with
  | zero => simp [hdepth] at h
  | succ hops =>
    rw [if_neg (by omega)] at h
    unfold TopologyInputs.settledPeer TopologyInputs.peerRequest
    dsimp only at h ⊢
    split at h
    · cases h
      simp [*]
    · cases h

theorem unresolved_of_error {run : TopologyRun} {url message : String} {members : Members}
    (hdepth : min run.requested maxDepth ≠ 0) (hgroup : run.inputs.grouped[url]? = some members)
    (hfailed : resolveCredentials run.inputs.names (run.inputs.resolver url)
      members.keySource.credentialIds = .error message) : run.unresolved url = some message := by
  unfold unresolved
  rw [if_neg hdepth, hgroup]
  dsimp only
  rw [hfailed]

/-- The address of an unresolved peer is described. -/
theorem exists_peer_of_unresolved {run : TopologyRun} {url message : String}
    (h : run.unresolved url = some message) : ∃ peer ∈ run.topology.peers, peer.url = url := by
  have hurl : url ∈ run.topology.peers.map (·.url) := by
    rw [topology, TopologyInputs.map_url_describe, Std.ExtTreeMap.mem_keys, StrMap.mem_iff]
    intro hnone
    rw [unresolved, hnone] at h
    split at h <;> cases h
  exact List.mem_map.mp hurl

/-- What agrees with the other map but for texts is shown alike when its error is. -/
theorem PeerOf.redacted_eq_iff {peer peer' : Peer} (hurl : peer.url = peer'.url)
    (hsources : peer.sources = peer'.sources) (hinst : peer.inst = peer'.inst) :
    peer.redacted = peer'.redacted ↔ peer.error.map shownError = peer'.error.map shownError := by
  constructor
  · exact fun heq => congrArg PeerOf.error heq
  · intro herror
    unfold PeerOf.redacted
    rw [hurl, hsources, hinst]
    exact congrArg (PeerOf.mk _ _ _) herror

theorem PeerOf.forPush_redacted_eq_iff {peer peer' : Peer} (hurl : peer.url = peer'.url)
    (hsources : List.Forall₂ PeerSource.SameButError peer.sources peer'.sources)
    (hinst : peer.inst = peer'.inst) :
    peer.redacted.forPush = peer'.redacted.forPush ↔
      peer.error.map shownError = peer'.error.map shownError := by
  have hpush : peer.sources.map PeerSource.forPush = peer'.sources.map PeerSource.forPush := by
    rw [← List.forall₂_eq_eq_eq, List.forall₂_map_left_iff, List.forall₂_map_right_iff]
    exact hsources.imp fun _ _ => PeerSource.forPush_eq
  constructor
  · exact fun heq => congrArg PeerOf.error heq
  · intro herror
    unfold PeerOf.forPush PeerOf.redacted
    dsimp only
    rw [hurl, hpush, hinst]
    exact congrArg (PeerOf.mk _ _ _) herror

/-- A view of the peers that tells no more than their shown errors is the same for
both runs when their messages agree, and only then. -/
theorem map_peers_eq_iff {sameSource : PeerSource → PeerSource → Prop} {run other : TopologyRun}
    (h : SameButTexts sameSource run other) {view : Peer → Peer}
    (hview : ∀ {peer peer' : Peer}, peer.url = peer'.url →
      List.Forall₂ sameSource peer.sources peer'.sources → peer.inst = peer'.inst →
      (view peer = view peer' ↔ peer.error.map shownError = peer'.error.map shownError)) :
    run.topology.peers.map view = other.topology.peers.map view ↔ run.MessagesAgree other := by
  rw [← List.forall₂_eq_eq_eq, List.forall₂_map_left_iff, List.forall₂_map_right_iff,
    List.forall₂_iff_zip]
  obtain ⟨hlength, hpairs⟩ := List.forall₂_iff_zip.mp h.peers
  constructor
  · rintro ⟨_, hviews⟩ url message message' hmessage hmessage'
    obtain ⟨peer, hpeer, rfl⟩ := exists_peer_of_unresolved hmessage
    obtain ⟨peer', hpair⟩ := Lists.exists_mem_zip hlength hpeer
    obtain ⟨hurl, hsources, hinst, _⟩ := hpairs hpair
    have herror := (hview hurl hsources hinst).mp (hviews hpair)
    rw [error_of_unresolved hpeer hmessage,
      error_of_unresolved (List.of_mem_zip hpair).2 (hurl ▸ hmessage')] at herror
    exact (shownError_notAsked_eq_iff _ _).mp (Option.some.inj herror)
  · intro hagree
    refine ⟨hlength, fun {peer peer'} hpair => ?_⟩
    obtain ⟨hurl, hsources, hinst, herror | ⟨hmessage, hmessage'⟩⟩ := hpairs hpair
    · exact (hview hurl hsources hinst).mpr (congrArg _ herror)
    · obtain ⟨message, hmessage⟩ := Option.isSome_iff_exists.mp hmessage
      obtain ⟨message', hmessage'⟩ := Option.isSome_iff_exists.mp hmessage'
      refine (hview hurl hsources hinst).mpr ?_
      rw [error_of_unresolved (List.of_mem_zip hpair).1 hmessage,
        error_of_unresolved (List.of_mem_zip hpair).2 hmessage']
      exact congrArg some ((shownError_notAsked_eq_iff _ _).mpr
        (hagree _ _ _ hmessage (hurl ▸ hmessage')))

/-! ## A resolver in other words -/

/-- The same description, with another resolver. -/
def withResolver (run : TopologyRun) (resolver : String → Resolver) : TopologyRun :=
  { run with inputs := { run.inputs with resolver } }

/-- A peer is described as before, or could not be resolved before and after. -/
theorem settledPeer_withResolver {run : TopologyRun} {resolver : String → Resolver}
    (h : ∀ url, (run.inputs.resolver url).SameButMessages (resolver url))
    {group : String × Members} (hgroup : run.inputs.grouped[group.1]? = some group.2) :
    let depth := min run.requested maxDepth
    run.inputs.settledPeer depth group =
        (run.withResolver resolver).inputs.settledPeer depth group ∨
      (run.inputs.settledPeer depth group).inst =
          ((run.withResolver resolver).inputs.settledPeer depth group).inst ∧
        (run.unresolved group.1).isSome ∧
          ((run.withResolver resolver).unresolved group.1).isSome := by
  intro depth
  have hgroup' : (run.withResolver resolver).inputs.grouped[group.1]? = some group.2 := hgroup
  cases hdepth : depth with
  | zero => exact .inl rfl
  | succ hops =>
    obtain ⟨credentials, hfound, hfound'⟩ | ⟨message, message', hfailed, hfailed'⟩ :=
      Results.cases_of_toOption_eq (resolveCredentials_sameButMessages run.inputs.names
        (h group.1) group.2.keySource.credentialIds)
    · left
      have hrequest : run.inputs.peerRequest group.1 group.2.keySource hops =
          (run.withResolver resolver).inputs.peerRequest group.1 group.2.keySource hops := by
        unfold TopologyInputs.peerRequest withResolver
        rw [hfound, hfound']
      unfold TopologyInputs.settledPeer
      dsimp only
      rw [hrequest]
      rfl
    · have hne : min run.requested maxDepth ≠ 0 := by
        rw [show min run.requested maxDepth = hops + 1 from hdepth]
        exact Nat.succ_ne_zero hops
      refine .inr ⟨?_, ?_, ?_⟩
      · unfold TopologyInputs.settledPeer TopologyInputs.peerRequest withResolver
        dsimp only
        rw [hfailed, hfailed']
      · rw [unresolved_of_error hne hgroup hfailed]
        rfl
      · rw [@unresolved_of_error (run.withResolver resolver) _ _ _ hne hgroup' hfailed']
        rfl

/-- A resolver that only words its failures differently leaves the same map but for texts. -/
theorem sameButTexts_withResolver {sameSource : PeerSource → PeerSource → Prop}
    (hsame : ∀ source, sameSource source source) {run : TopologyRun} {resolver : String → Resolver}
    (h : ∀ url, (run.inputs.resolver url).SameButMessages (resolver url)) :
    SameButTexts sameSource run (run.withResolver resolver) := by
  refine ⟨rfl, rfl, ?_⟩
  have hgrouped : (run.withResolver resolver).inputs.grouped = run.inputs.grouped := rfl
  unfold topology
  rw [TopologyInputs.describe_peers, TopologyInputs.describe_peers, hgrouped,
    List.forall₂_map_left_iff, List.forall₂_map_right_iff, List.forall₂_same]
  intro group hgroup
  have hmembers := Std.ExtTreeMap.mem_toList_iff_getElem?_eq_some.mp hgroup
  refine ⟨by simp, ?_, ?_⟩
  · rw [TopologyInputs.settledPeer_sources, TopologyInputs.settledPeer_sources]
    exact List.forall₂_same.mpr fun source _ => hsame source
  · rw [TopologyInputs.settledPeer_url, TopologyInputs.settledPeer_url]
    obtain hpeer | ⟨hinst, hmessage⟩ := settledPeer_withResolver h hmembers
    · exact ⟨congrArg PeerOf.inst hpeer, .inl (congrArg PeerOf.error hpeer)⟩
    · exact ⟨hinst, .inr hmessage⟩

/-- Maps that differ in the texts of resolution failures, and for a push in the
texts of last errors, are shown alike exactly when their messages agree. -/
theorem redaction_agrees_iff (run other : TopologyRun) :
    (SameButTexts (· = ·) run other →
      (run.topology.redacted = other.topology.redacted ↔ run.MessagesAgree other)) ∧
    (SameButTexts PeerSource.SameButError run other →
      (run.topology.forPush = other.topology.forPush ↔ run.MessagesAgree other)) := by
  constructor
  · intro h
    rw [← map_peers_eq_iff h fun hurl hsources hinst =>
      PeerOf.redacted_eq_iff hurl (by rwa [List.forall₂_eq_eq_eq] at hsources) hinst]
    constructor
    · exact fun heq => congrArg Topology.peers heq
    · intro hpeers
      unfold Topology.redacted
      rw [hpeers, h.name, h.sources]
      rfl
  · intro h
    rw [← @map_peers_eq_iff _ _ _ h (fun peer => peer.redacted.forPush)
      PeerOf.forPush_redacted_eq_iff]
    unfold Topology.forPush Topology.redacted
    simp only [List.map_map]
    constructor
    · exact fun heq => congrArg Topology.peers heq
    · intro hpeers
      rw [h.name, h.sources]
      exact congrArg (Topology.mk _ _ _) hpeers

/-! ## One edge whose credential does not resolve -/

def failingRun (message : String) : TopologyRun where
  inputs :=
    { TopologyInputs.centralInputs with
      sources := (∅ : StrMap Source).insert "src-dc1"
        (TopologyInputs.edgeSource "https://dc1.example" "cred-dc1")
      resolver := fun _ _ => .error message }
  order := TopologyInputs.lastFirst _
  requested := 2

theorem sameButTexts_failingRun {sameSource : PeerSource → PeerSource → Prop}
    (hsame : ∀ source, sameSource source source) (message message' : String) :
    SameButTexts sameSource (failingRun message) (failingRun message') :=
  @sameButTexts_withResolver sameSource hsame (failingRun message)
    (fun _ _ => .error message') fun _ _ => rfl

/-- Two maps none of whose errors speaks of a limit. -/
theorem messagesAgree_of_errors {run other : TopologyRun}
    (h : ∀ either ∈ [run, other], ∀ error ∈ either.topology.peers.filterMap (·.error),
      ¬ depthLimit <:+: error.toList) : run.MessagesAgree other := by
  have hmessage : ∀ either ∈ [run, other], ∀ url message, either.unresolved url = some message →
      ¬ depthLimit <:+: message.toList := by
    intro either heither url message hunresolved hlimit
    obtain ⟨peer, hpeer, rfl⟩ := exists_peer_of_unresolved hunresolved
    have herror := error_of_unresolved hpeer hunresolved
    exact h either heither _ (List.mem_filterMap.mpr ⟨peer, hpeer, herror⟩)
      ((depthLimit_infix_notAsked message).mpr hlimit)
  exact fun url message message' hfirst hsecond =>
    .inr ⟨hmessage run (by simp) url message hfirst, hmessage other (by simp) url message' hsecond⟩

theorem redaction_agrees_env :
    let unset := failingRun "Env var 'DC1_TOKEN' not set"
    let denied := failingRun "Vault path 'kv/central/dc1' denied"
    unset.topology.redacted = denied.topology.redacted ∧
      unset.topology.forPush = denied.topology.forPush := by
  intro unset denied
  have hagree : unset.MessagesAgree denied := messagesAgree_of_errors (by decide +kernel)
  exact ⟨((redaction_agrees_iff unset denied).1
      (sameButTexts_failingRun (fun _ => rfl) _ _)).mpr hagree,
    ((redaction_agrees_iff unset denied).2
      (sameButTexts_failingRun (fun _ => ⟨rfl, rfl⟩) _ _)).mpr hagree⟩

theorem map_error_forPush (topology : Topology) :
    topology.forPush.peers.map (·.error) = topology.redacted.peers.map (·.error) := by
  simp [Topology.forPush, PeerOf.forPush]

/-- A path that speaks of a limit is shown to everyone. -/
theorem redacted_tells_path :
    let denied := failingRun "Vault path 'kv/depth limit/dc1' denied"
    let missing := failingRun "Vault path 'kv/depth limit/dc1' not found"
    SameButTexts (· = ·) denied missing ∧ SameButTexts PeerSource.SameButError denied missing ∧
      denied.topology.redacted ≠ missing.topology.redacted ∧
        denied.topology.forPush ≠ missing.topology.forPush := by
  intro denied missing
  have hne : denied.topology.redacted.peers.map (·.error) ≠
      missing.topology.redacted.peers.map (·.error) := by decide +kernel
  refine ⟨sameButTexts_failingRun (fun _ => rfl) _ _,
    sameButTexts_failingRun (fun _ => ⟨rfl, rfl⟩) _ _, fun heq => ?_, fun heq => ?_⟩
  · exact hne (by rw [heq])
  · exact hne (by rw [← map_error_forPush, heq, map_error_forPush])

end TopologyRun

end UnifiedApi
