import UnifiedApi.Application.FederationStore
import UnifiedApi.Application.PeerDescriptions
import UnifiedApi.Lib.Sorted

/-! # Telling every peer where it sits

The federation is mapped from here and the map is sent to each peer that
answered, as its admins may see it. -/

namespace UnifiedApi

inductive PushError where
  /-- The peer is older than the route. -/
  | unsupported
  | failed (reason : String)
  deriving DecidableEq

inductive PushAnswer where
  | answered (result : Except PushError Unit)
  | panicked

structure PushTask where
  url : String
  request : PeerRequest
  body : FederationPush

def pushDepth : Nat := 2

/-- One push of the map. What describing reads is in `inputs`; the instance's own
card is read first, the secrets are asked again for each push. -/
structure PushRun where
  inputs : TopologyInputs
  cardCache : String → MemoryCache
  cardNow : String → Nat
  laterResolver : String → Resolver
  senderUrl : Option String
  endpoints : Nat
  send : PeerRequest → FederationPush → PushAnswer
  describeOrder : CompletionOrder (Nat × PeerRequest)
  pushOrder : CompletionOrder PushTask

namespace PushRun
variable (run : PushRun)

/-- Every source counts, whoever may see it. -/
def everything : TopologyInputs := { run.inputs with visible := fun _ => true }

/-- This instance's own card. -/
def summarize : InstanceSummary :=
  let entries := run.inputs.sources.keys.filterMap fun id =>
    ((run.cardCache id).get id).map fun entry => (entry, entry.ageSeconds (run.cardNow id))
  { sources := run.inputs.sources.keys
    hosts := (entries.map (·.1.dataset.hostvars.size)).sum
    groups := (entries.map (·.1.dataset.groups.size)).sum
    endpoints := run.endpoints
    oldestAgeSeconds := (entries.map (·.2)).max? }

def topology : Topology := run.everything.describe run.describeOrder pushDepth

/-- The peers that said who they are. -/
def answered : List String := (run.topology.peers.filter (·.inst.isSome)).map (·.url)

structure Plan where
  tasks : List PushTask := []
  outcomes : List (String × Except PushError Unit) := []

def body (url : String) : FederationPush where
  url
  senderUrl := run.senderUrl
  sender := run.summarize
  topology := run.topology.forPush

def request (url : String) (members : Members) : Except String PeerRequest :=
  TopologyInputs.peerRequest { run.everything with resolver := run.laterResolver } url
    members.keySource 0

def planPush (plan : Plan) (url : String) : Plan :=
  match run.everything.grouped[url]? with
  | none => plan
  | some members => match run.request url members with
    | .ok request => { plan with tasks := plan.tasks ++ [⟨url, request, run.body url⟩] }
    | .error reason => { plan with outcomes := plan.outcomes ++ [(url, .error (.failed reason))] }

def plan : Plan := run.answered.foldl run.planPush {}

/-- A task that panicked has no outcome. -/
def joined (task : PushTask) : Option (String × Except PushError Unit) :=
  match run.send task.request task.body with
  | .answered result => some (task.url, result)
  | .panicked => none

/-- Each push's outcome, by address. -/
def outcomes : List (String × Except PushError Unit) :=
  (run.plan.outcomes ++ (run.pushOrder.completed run.plan.tasks).filterMap run.joined).mergeSort
    fun a b => decide (a.1 ≤ b.1)

/-! ## Who is told -/

/-- The task for one address. -/
def taskFor (url : String) : Option PushTask :=
  (run.everything.grouped[url]?).bind fun members =>
    (run.request url members).toOption.map fun request => ⟨url, request, run.body url⟩

/-- What is told at once of an address whose credentials do not resolve. -/
def refusal (url : String) : Option (String × Except PushError Unit) :=
  (run.everything.grouped[url]?).bind fun members => match run.request url members with
    | .ok _ => none
    | .error reason => some (url, .error (.failed reason))

theorem planPush_eq (plan : Plan) (url : String) : run.planPush plan url =
    { tasks := plan.tasks ++ (run.taskFor url).toList
      outcomes := plan.outcomes ++ (run.refusal url).toList } := by
  unfold planPush taskFor refusal
  cases run.everything.grouped[url]? with
  | none => simp
  | some members => cases hrequest : run.request url members <;> simp [hrequest, Except.toOption]

theorem plan_eq : run.plan =
    { tasks := run.answered.filterMap run.taskFor
      outcomes := run.answered.filterMap run.refusal } := by
  suffices hfold : ∀ (urls : List String) (start : Plan), urls.foldl run.planPush start =
      { tasks := start.tasks ++ urls.filterMap run.taskFor
        outcomes := start.outcomes ++ urls.filterMap run.refusal } from hfold run.answered {}
  intro urls
  induction urls with
  | nil => simp
  | cons url rest ih =>
    intro start
    rw [List.foldl_cons, ih, planPush_eq]
    cases htask : run.taskFor url <;> cases hrefusal : run.refusal url <;> simp [htask, hrefusal]

/-! ## One outcome for each -/

/-- What comes of an address: its refusal, or what its task was answered. -/
def outcome (url : String) : Option (String × Except PushError Unit) :=
  (run.refusal url).or ((run.taskFor url).bind run.joined)

variable {run} {url : String}

theorem taskFor_url {task : PushTask} (h : run.taskFor url = some task) :
    task.url = url ∧ task.body = run.body url ∧ task.request.url = url ∧
      task.request.depth = 0 := by
  obtain ⟨members, _, hrequest⟩ := Option.bind_eq_some_iff.mp h
  obtain ⟨request, hsome, rfl⟩ := Option.map_eq_some_iff.mp hrequest
  obtain ⟨hurl, hdepth⟩ := TopologyInputs.peerRequest_ok _ (Results.toOption_eq_some_iff.mp hsome)
  exact ⟨rfl, rfl, hurl, hdepth⟩

theorem refusal_url {refused : String × Except PushError Unit}
    (h : run.refusal url = some refused) : refused.1 = url ∧ run.taskFor url = none := by
  obtain ⟨members, hmembers, hrefused⟩ := Option.bind_eq_some_iff.mp h
  split at hrefused
  · cases hrefused
  · rename_i reason hrequest
    obtain rfl := Option.some.inj hrefused
    refine ⟨rfl, ?_⟩
    rw [taskFor, hmembers, Option.bind_some, hrequest]
    rfl

theorem joined_url {task : PushTask} {told : String × Except PushError Unit}
    (h : run.joined task = some told) : told.1 = task.url := by
  unfold joined at h
  split at h
  · obtain rfl := Option.some.inj h
    rfl
  · cases h

/-- Whatever order the pushes complete in. -/
theorem outcomes_perm : run.outcomes.Perm (run.answered.filterMap run.outcome) := by
  refine (List.mergeSort_perm _ _).trans ?_
  rw [plan_eq]
  have htasks := (run.pushOrder.perm (run.answered.filterMap run.taskFor)).filterMap run.joined
  refine (htasks.append_left _).trans ?_
  rw [List.filterMap_filterMap]
  generalize run.answered = urls
  induction urls with
  | nil => exact .nil
  | cons url rest ih =>
    simp only [List.filterMap_cons]
    cases hrefusal : run.refusal url with
    | some refused =>
      have hnone : (run.taskFor url).bind run.joined = none := by
        rw [(refusal_url hrefusal).2, Option.bind_none]
      simp only [hnone, outcome, hrefusal, Option.some_or, List.cons_append]
      exact ih.cons _
    | none =>
      cases hjoined : (run.taskFor url).bind run.joined with
      | none => simpa only [outcome, hrefusal, hjoined, Option.none_or] using ih
      | some told =>
        simp only [outcome, hrefusal, hjoined, Option.none_or]
        exact List.perm_middle.trans (ih.cons _)

theorem outcome_url {told : String × Except PushError Unit} (h : run.outcome url = some told) :
    told.1 = url := by
  rcases Option.or_eq_some_iff.mp h with hrefused | ⟨_, htask⟩
  · exact (refusal_url hrefused).1
  · obtain ⟨task, hsome, hjoined⟩ := Option.bind_eq_some_iff.mp htask
    exact (joined_url hjoined).trans (taskFor_url hsome).1

theorem mem_answered : url ∈ run.answered ↔
    ∃ peer ∈ run.topology.peers, peer.url = url ∧ peer.inst.isSome = true := by
  unfold answered
  simp only [List.mem_map, List.mem_filter]
  exact ⟨fun ⟨peer, ⟨hpeer, hinst⟩, hurl⟩ => ⟨peer, hpeer, hurl, hinst⟩,
    fun ⟨peer, hpeer, hurl, hinst⟩ => ⟨peer, ⟨hpeer, hinst⟩, hurl⟩⟩

theorem nodup_answered (run : PushRun) : run.answered.Nodup :=
  (run.everything.describe_accounts run.describeOrder pushDepth).1.sublist
    (List.filter_sublist.map _)

/-- Who answered was asked: the address is one the sources read from. -/
theorem grouped_of_answered (h : url ∈ run.answered) :
    ∃ members, run.everything.grouped[url]? = some members := by
  obtain ⟨peer, hpeer, rfl, _⟩ := mem_answered.mp h
  have hkeys := run.everything.map_url_describe run.describeOrder pushDepth
  have hmem : peer.url ∈ run.everything.grouped.keys := hkeys ▸ List.mem_map_of_mem hpeer
  exact (StrMap.mem_iff_exists _ _).mp (Std.ExtTreeMap.mem_keys.mp hmem)

/-- It answered, and when it is to be told its credentials do not resolve any more. -/
def Refused (run : PushRun) (url reason : String) : Prop :=
  url ∈ run.answered ∧ ∃ members,
    run.everything.grouped[url]? = some members ∧ run.request url members = .error reason

theorem mem_tasks {task : PushTask} : task ∈ run.plan.tasks ↔
    task.url ∈ run.answered ∧ run.taskFor task.url = some task := by
  rw [plan_eq, List.mem_filterMap]
  constructor
  · rintro ⟨url, hurl, htask⟩
    rw [(taskFor_url htask).1]
    exact ⟨hurl, htask⟩
  · exact fun ⟨hurl, htask⟩ => ⟨task.url, hurl, htask⟩

theorem refusal_eq_some {refused : String × Except PushError Unit} :
    run.refusal url = some refused ↔ ∃ members reason, run.everything.grouped[url]? = some members ∧
      run.request url members = .error reason ∧ (url, .error (.failed reason)) = refused := by
  unfold refusal
  cases run.everything.grouped[url]? with
  | none => simp
  | some members => cases hrequest : run.request url members <;> simp [hrequest]

/-- What a task was answered, or why there was none. -/
theorem mem_outcomes {result : Except PushError Unit} : (url, result) ∈ run.outcomes ↔
    (∃ task ∈ run.plan.tasks, run.joined task = some (url, result)) ∨
      ∃ reason, run.Refused url reason ∧ result = .error (.failed reason) := by
  rw [outcomes_perm.mem_iff, List.mem_filterMap]
  constructor
  · rintro ⟨asked, hasked, htold⟩
    obtain rfl := outcome_url htold
    rcases Option.or_eq_some_iff.mp htold with hrefused | ⟨_, htask⟩
    · obtain ⟨members, reason, hmembers, hrequest, heq⟩ := refusal_eq_some.mp hrefused
      exact .inr ⟨reason, ⟨hasked, members, hmembers, hrequest⟩, (Prod.mk.inj heq).2.symm⟩
    · obtain ⟨task, hsome, hjoined⟩ := Option.bind_eq_some_iff.mp htask
      have hown := (taskFor_url hsome).1
      exact .inl ⟨task, mem_tasks.mpr ⟨hown.symm ▸ hasked, hown.symm ▸ hsome⟩, hjoined⟩
  · rintro (⟨task, htask, hjoined⟩ | ⟨reason, ⟨hurl, members, hmembers, hrequest⟩, rfl⟩)
    · obtain ⟨hurl, hsome⟩ := mem_tasks.mp htask
      have hrefusal : run.refusal task.url = none := by
        refine Option.eq_none_iff_forall_ne_some.mpr fun refused hrefused => ?_
        rw [(refusal_url hrefused).2] at hsome
        cases hsome
      exact ⟨task.url, hurl, by rw [outcome, hrefusal, Option.none_or, hsome]; exact hjoined⟩
    · refine ⟨url, hurl, ?_⟩
      rw [outcome, refusal_eq_some.mpr ⟨members, reason, hmembers, hrequest, rfl⟩, Option.some_or]

/-- Whoever is to be told has a task, or is refused. -/
theorem refused_iff (h : url ∈ run.answered) :
    (∃ reason, run.Refused url reason) ↔ ∀ task ∈ run.plan.tasks, task.url ≠ url := by
  obtain ⟨members, hmembers⟩ := grouped_of_answered h
  constructor
  · rintro ⟨reason, _, members, hmembers, hrequest⟩ task htask rfl
    obtain ⟨_, hsome⟩ := mem_tasks.mp htask
    rw [(refusal_url (refusal_eq_some.mpr ⟨members, reason, hmembers, hrequest, rfl⟩)).2] at hsome
    cases hsome
  · intro hnone
    cases hrequest : run.request url members with
    | error reason => exact ⟨reason, h, members, hmembers, hrequest⟩
    | ok request =>
      have htask : run.taskFor url = some ⟨url, request, run.body url⟩ := by
        rw [taskFor, hmembers, Option.bind_some, hrequest]
        rfl
      exact absurd rfl (hnone ⟨url, request, run.body url⟩ (mem_tasks.mpr ⟨h, htask⟩))

/-! ## What they are told -/

/-- How an error of a peer is shown: why one was not asked stays generic, unless
it is for the depth. -/
def ErrorShown (error shown : String) : Prop :=
  if "not asked:".toList <+: error.toList ∧ ¬ "depth limit".toList <:+: error.toList then
    shown = notAsked
  else shown = error

/-- What a peer's admins may see of one peer: of its own answer the name and the
version, of a failing link that it fails. -/
structure ToldAs (peer told : Peer) : Prop where
  url : told.url = peer.url
  inst : Option.Rel (fun answered shown : Topology =>
    shown = { name := answered.name, version := answered.version }) peer.inst told.inst
  sources : List.Forall₂ (fun own shown : PeerSource =>
    shown = { own with lastError := own.lastError.map fun _ => pullFailed })
    peer.sources told.sources
  error : Option.Rel ErrorShown peer.error told.error

theorem errorShown_redacted (error : String) :
    ErrorShown error (if namesSecret error then notAsked else error) := by
  unfold ErrorShown
  have hsecret : namesSecret error = true ↔
      "not asked:".toList <+: error.toList ∧ ¬ "depth limit".toList <:+: error.toList := by
    rw [namesSecret, Bool.and_eq_true, List.isPrefixOf_iff_prefix, Bool.not_eq_true',
      decide_eq_false_iff_not]
  by_cases h : namesSecret error = true
  · rw [if_pos h, if_pos (hsecret.mp h)]
  · rw [if_neg h, if_neg fun hboth => h (hsecret.mpr hboth)]

theorem toldAs_forPush (peer : Peer) : ToldAs peer peer.redacted.forPush where
  url := rfl
  inst := by
    show Option.Rel _ peer.inst (peer.inst.map _)
    cases peer.inst with
    | none => exact .none
    | some answered => exact .some rfl
  sources := by
    show List.Forall₂ _ peer.sources (peer.sources.map _)
    refine List.forall₂_map_right_iff.mpr (List.forall₂_same.mpr fun own _ => ?_)
    rfl
  error := by
    show Option.Rel _ peer.error (peer.error.map _)
    cases peer.error with
    | none => exact .none
    | some error => exact .some (errorShown_redacted error)

theorem peers_forPush (topology : Topology) : topology.forPush.peers =
    topology.peers.map fun peer => peer.redacted.forPush := by
  simp only [Topology.forPush, Topology.redacted, List.map_map, Function.comp_def]

/-- **Every peer that answered is told once, unless its credentials do not
resolve any more. What each push was answered is listed by address, and who could
not be authenticated to, but not a push that panicked. All are told the same map
under their own address, with themselves on it; of every peer on it they read
what its admins may.** -/
theorem push_accounts (run : PushRun) :
    (run.outcomes.map Prod.fst).Pairwise (· < ·) ∧
    (∀ url result, (url, result) ∈ run.outcomes ↔
      (∃ task ∈ run.plan.tasks, run.joined task = some (url, result)) ∨
        ∃ reason, run.Refused url reason ∧ result = .error (.failed reason)) ∧
    (∀ peer ∈ run.topology.peers, peer.inst.isSome = true →
      ((∃ reason, run.Refused peer.url reason) ↔
        ∀ task ∈ run.plan.tasks, task.url ≠ peer.url)) ∧
    (run.plan.tasks.map (·.url)).Nodup ∧
    ∀ task ∈ run.plan.tasks,
      (∃ peer ∈ run.topology.peers, peer.url = task.url ∧ peer.inst.isSome = true) ∧
        task.request.url = task.url ∧ task.request.depth = 0 ∧ task.body.url = task.url ∧
        task.url ∈ task.body.topology.peers.map (·.url) ∧
        List.Forall₂ ToldAs run.topology.peers task.body.topology.peers := by
  have hurls : (run.outcomes.map Prod.fst).Perm
      (run.answered.filter fun url => (run.outcome url).isSome) := by
    refine (outcomes_perm.map Prod.fst).trans (List.Perm.of_eq ?_)
    generalize run.answered = urls
    induction urls with
    | nil => rfl
    | cons url rest ih =>
      cases houtcome : run.outcome url with
      | none => simpa [houtcome] using ih
      | some told => simp [houtcome, outcome_url houtcome, ih]
  refine ⟨?_, fun url result => mem_outcomes, fun peer hpeer hinst => ?_, ?_, fun task htask => ?_⟩
  · have hsorted : (run.outcomes.map Prod.fst).Pairwise (· ≤ ·) :=
      List.pairwise_map.mpr (Sorted.pairwise_mergeSort Prod.fst _)
    have hnodup : (run.outcomes.map Prod.fst).Nodup :=
      hurls.nodup_iff.mpr ((nodup_answered run).filter _)
    exact (List.pairwise_and_iff.mpr ⟨hsorted, hnodup⟩).imp fun h => lt_of_le_of_ne h.1 h.2
  · exact refused_iff (mem_answered.mpr ⟨peer, hpeer, rfl, hinst⟩)
  · have hsub : (run.plan.tasks).map (·.url) =
        run.answered.filter fun url => (run.taskFor url).isSome := by
      rw [plan_eq]
      dsimp only
      generalize run.answered = urls
      induction urls with
      | nil => rfl
      | cons url rest ih =>
        cases htask : run.taskFor url with
        | none => simpa [htask] using ih
        | some task => simp [htask, (taskFor_url htask).1, ih]
    rw [hsub]
    exact (nodup_answered run).filter _
  · obtain ⟨hurl, hfor⟩ := mem_tasks.mp htask
    obtain ⟨_, hbody, hrequest, hdepth⟩ := taskFor_url hfor
    have hpeer := mem_answered.mp hurl
    have hpeers : task.body.topology.peers =
        run.topology.peers.map fun peer => peer.redacted.forPush := by
      rw [hbody]
      exact peers_forPush run.topology
    refine ⟨hpeer, hrequest, hdepth, by rw [hbody]; rfl, ?_, ?_⟩
    · obtain ⟨peer, hlisted, heq, _⟩ := hpeer
      rw [hpeers, List.map_map]
      exact List.mem_map.mpr ⟨peer, hlisted, heq⟩
    · rw [hpeers]
      exact List.forall₂_map_right_iff.mpr (List.forall₂_same.mpr fun peer _ => toldAs_forPush peer)

end PushRun

end UnifiedApi
