import UnifiedApi.Adapters.Http.Hosts
import UnifiedApi.Adapters.Http.Status
import UnifiedApi.Adapters.Http.Sync
import UnifiedApi.Application.Tasks

/-! # Who may change what

The routes that change what a source has: host writes, evictions, syncs, runs of
enrichers, and reads that refresh first. A caller is held to the ids it is
allowed, a view's members being reached through the view by reads alone. -/

namespace UnifiedApi

namespace ApiError

def refreshNeedsHosts : ApiError :=
  badRequest ("refresh=true requires ?host=: a refresh of a whole source on a read " ++
    "would gather the entire inventory, so the hosts have to be named. " ++
    "POST the source's /sync endpoint for a full refresh.")

def refreshNotAllowed (id : String) : ApiError :=
  forbidden ("source '" ++ id ++ "' does not allow on-demand refresh — set " ++
    "allow_on_demand_refresh: true on it to let a read trigger a gather")

end ApiError

namespace Tasks
open Interleaving

def LiveConfig.toConfig (config : LiveConfig) : Config :=
  { sources := config.sources.map fun _ source => source.toSource, views := config.views }

inductive Call where
  | putHost (id hostname : String) (vars : HostVars)
  | deleteHost (id hostname : String)
  | evict (id : String)
  | sync (id : String) (params : SyncParams) (onRead : Bool) (requestId : Option String)
  | runEnricher (id : String)
  | dataset (id : String) (params : DatasetParams)

structure Request where
  permissions : Permissions
  keyName : Option String := none
  call : Call

inductive Reply where
  | written
  | evicted (hostsDropped : Nat)
  | synced (outcome : SyncOutcome)
  | enriched (outcome : EnrichOutcome)
  | dataset (refresh : Option RefreshOutcome) (body : DatasetBody)

abbrev Handler := Prog World (Except ApiError Reply)

/-! ## Writes -/

def putHostRoute (permissions : Permissions) (id hostname : String) (vars : HostVars) :
    Handler := do
  let config ← .read (·.config.toConfig)
  let now ← .ask Nat
  .atomic (fun w => match putHost config permissions id hostname vars now w.cache with
    | .ok cache => ({ w with cache }, .ok .written)
    | .error e => (w, .error e)) .pure

def deleteHostRoute (permissions : Permissions) (id hostname : String) : Handler := do
  let config ← .read (·.config.toConfig)
  .atomic (fun w =>
    let (result, cache) := deleteHost config permissions id hostname w.cache
    ({ w with cache }, result.map fun _ => .written)) .pure

def evictSource (permissions : Permissions) (id : String) : Handler := do
  if !permissions.allowsSource id then return .error (.sourceForbidden id)
  else
    match ← .read (·.config.views[id]?) with
    | some view => return .error (.writeRefused id view "be evicted")
    | none => match ← .read (·.cache.get id) with
      | none => return .error (.sourceNotCached id)
      | some entry =>
        act (.write (.remove id))
        return .ok (.evicted entry.dataset.hostvars.size)

section
variable (specsToString : List HostSpec → Except String String) (projectsDir : String)

def syncRoute (request : Request) (id : String) (params : SyncParams) (onRead : Bool)
    (requestId : Option String) : Handler := do
  if !request.permissions.allowsSource id then return .error (.sourceForbidden id)
  else
    let config ← .read (·.config)
    match config.views[id]? with
    | some view => return .error (.writeRefused id view "be synced")
    | none => match ← .read (·.config.sources[id]?) with
      | none => return .error (.sourceNotConfigured id)
      | some source =>
        let disk ← .ask Disk
        let call : SyncCall :=
          { params.request with
            trigger := requestId
            runTrigger := if params.refreshOrigin.getD false && onRead then .refresh else .manual
            requestedBy := some (request.keyName.getD "open") }
        let outcome ← syncSource specsToString id (source.forSync disk projectsDir) call
          config.enrichers.toList
        return .ok (.synced outcome)

end

def runEnricherRoute (permissions : Permissions) (id : String) : Handler := do
  match ← .read (·.config.enrichers[id]?) with
  | none => return .error (.notFound ("enricher '" ++ id ++ "' is not configured"))
  | some enricher =>
    if !permissions.allowsSource enricher.targetId then
      return .error (.forbidden ("this API key is not allowed to write source '" ++
        enricher.targetId ++ "', the target of enricher '" ++ id ++ "'"))
    else
      match ← runEnricher id enricher with
      | none => return .error (.notFound ("target '" ++ enricher.targetId ++ "' of enricher '" ++
          id ++ "' is not in the cache — sync it first"))
      | some outcome => return .ok (.enriched outcome)

/-! ## Reads that refresh first -/

section
variable (ops : TextOps) (specsToString : List HostSpec → Except String String)
  (projectsDir : String)

/-- The hosts that `host=` names. -/
def namedHosts (params : DatasetParams) : List String := params.host.elim [] Text.commaNames

def refreshBeforeReading (id : String) (params : DatasetParams) :
    Prog World (Except ApiError RefreshOutcome) := do
  match ← .read (·.config.sources[id]?) with
  | none => return .error (.sourceNotConfigured id)
  | some source =>
    if !source.allowOnDemandRefresh then return .error (.refreshNotAllowed id)
    else if (namedHosts params).isEmpty then return .error .refreshNeedsHosts
    else
      let disk ← .ask Disk
      let config ← .read (·.config)
      let outcome ← refreshHosts specsToString id (source.forSync disk projectsDir)
        (namedHosts params) none config.enrichers.toList
      return .ok outcome

/-- The members one after another, each with its own lookups. -/
def lookUp (sources : StrMap Source) : List ViewMember → Prog World (List MemberSnapshot)
  | [] => return []
  | member :: rest => do
    let (owns, ownershipMode) ← .read fun w =>
      effectiveOwnership member sources[member.source]? w.scopes
    let entry ← .read (·.cache.get member.source)
    let ownership ← .read (·.cache.get member.owns.source)
    let members ← lookUp sources rest
    return { sourceId := member.source, source := sources[member.source]?, entry, ownership, owns
             ownershipMode } :: members

/-- The first of the routed members that may not be refreshed. -/
def refusal (config : LiveConfig) (viewId : String) (hosts : List String)
    (routed : List (MemberSnapshot × List String)) : Option ApiError :=
  routed.findSome? fun (member, _) => match config.sources[member.sourceId]? with
    | none => some (.sourceNotConfigured member.sourceId)
    | some source =>
      if source.allowOnDemandRefresh then none
      else some (.forbidden ("view '" ++ viewId ++ "' routes " ++ ", ".intercalate hosts ++
        " to source '" ++ member.sourceId ++ "', which does not allow on-demand refresh — set " ++
        "allow_on_demand_refresh: true on it to let a read trigger a gather"))

/-- What the members' refreshes come to, and their errors, so far. -/
structure MergedRefresh where
  refreshed : List String := []
  alreadyFresh : Nat := 0
  errors : List String := []

def MergedRefresh.add (merged : MergedRefresh) (sourceId : String) (outcome : RefreshOutcome) :
    MergedRefresh :=
  { refreshed := merged.refreshed ++ outcome.refreshed
    alreadyFresh := merged.alreadyFresh + outcome.alreadyFresh
    errors := merged.errors ++ (outcome.error.map fun error => sourceId ++ ": " ++ error).toList }

def MergedRefresh.outcome (merged : MergedRefresh) : RefreshOutcome :=
  { refreshed := merged.refreshed, alreadyFresh := merged.alreadyFresh
    error := if merged.errors.isEmpty then none else some ("; ".intercalate merged.errors) }

/-- A member is looked up again when its turn comes. One that a reload has taken
away meanwhile ends the request: the source says that members are always
configured. -/
def refreshMembers (ttlSeconds : Option Nat) (enrichers : List (String × Enricher)) :
    List (MemberSnapshot × List String) → MergedRefresh → Prog World RefreshOutcome
  | [], merged => return merged.outcome
  | (member, hosts) :: rest, merged => do
    match ← .read (·.config.sources[member.sourceId]?) with
    | none => .fail
    | some source =>
      let disk ← .ask Disk
      let outcome ← refreshHosts specsToString member.sourceId (source.forSync disk projectsDir)
        hosts ttlSeconds enrichers
      refreshMembers ttlSeconds enrichers rest (merged.add member.sourceId outcome)

/-- Every member is asked whether it allows a refresh before any is refreshed. -/
def refreshViewBeforeReading (id : String) (view : View) (params : DatasetParams) :
    Prog World (Except ApiError RefreshOutcome) := do
  let hosts := namedHosts params
  if hosts.isEmpty then return .error .refreshNeedsHosts
  else
    let config ← .read (·.config)
    let members ← lookUp config.toConfig.sources view.members
    match ({ members } : ViewSnapshot).route hosts with
    | .error unclaimed => return .error (.unclaimed id view unclaimed)
    | .ok routed => match refusal config id hosts routed with
      | some e => return .error e
      | none =>
        let outcome ← refreshMembers specsToString projectsDir view.ttlSeconds
          config.enrichers.toList routed {}
        return .ok outcome

/-- The read itself. -/
def answerSource (id : String) (params : DatasetParams) (hostFilter : HostFilter)
    (refresh : Option RefreshOutcome) : Handler := do
  match ← .read (·.cache.get id) with
  | none => return .error (.sourceNotCached id)
  | some entry =>
    let body : DatasetBody := if params.isPlain then .raw entry.dataset
      else .page (sourcePage ops id params hostFilter entry.dataset)
    return .ok (.dataset refresh body)

def answerView (id : String) (view : View) (params : DatasetParams) (hostFilter : HostFilter)
    (refresh : Option RefreshOutcome) : Handler := do
  let config ← .read (·.config)
  let members ← lookUp config.toConfig.sources view.members
  match viewBody ops id params hostFilter { members } with
  | .error unclaimed => return .error (.unclaimed id view unclaimed)
  | .ok body => return .ok (.dataset refresh body)

/-- A refresh if one is asked for, and the read, which a refusal ends. -/
def refreshedFirst (params : DatasetParams) (refresh : Prog World (Except ApiError RefreshOutcome))
    (read : HostFilter → Option RefreshOutcome → Handler) : Handler :=
  match params.hostFilter ops with
  | .error e => return .error e
  | .ok hostFilter =>
    if params.refresh.getD false then do
      match ← refresh with
      | .error e => return .error e
      | .ok outcome => read hostFilter (some outcome)
    else read hostFilter none

def getSourceDataset (permissions : Permissions) (id : String) (params : DatasetParams) :
    Handler := do
  if !permissions.allowsSource id then return .error (.sourceForbidden id)
  else
    match ← .read (·.config.views[id]?) with
    | some view =>
      refreshedFirst ops params (refreshViewBeforeReading specsToString projectsDir id view params)
        (answerView ops id view params)
    | none =>
      refreshedFirst ops params (refreshBeforeReading specsToString projectsDir id params)
        (answerSource ops id params)

def handle (request : Request) : Handler :=
  match request.call with
  | .putHost id hostname vars => putHostRoute request.permissions id hostname vars
  | .deleteHost id hostname => deleteHostRoute request.permissions id hostname
  | .evict id => evictSource request.permissions id
  | .sync id params onRead requestId =>
    syncRoute specsToString projectsDir request id params onRead requestId
  | .runEnricher id => runEnricherRoute request.permissions id
  | .dataset id params =>
    getSourceDataset ops specsToString projectsDir request.permissions id params

end

/-! ## What a request may do -/

/-- A member as some lookups found it. -/
def LookedUp (live : World → Prop) (sources : StrMap Source) (members : List ViewMember)
    (snap : MemberSnapshot) : Prop :=
  ∃ member ∈ members, snap.sourceId = member.source ∧
    (∃ w, live w ∧ snap.owns = (effectiveOwnership member sources[member.source]? w.scopes).1) ∧
    ∃ w, live w ∧ snap.ownership = w.cache.get member.owns.source

/-- A source that a read of the id may refresh, and the hosts that it may
refresh there: those it names, and through a view those that the source claims. -/
inductive Refreshes (live : World → Prop) (id : String) (params : DatasetParams) :
    String → List String → Prop
  | source {w : World} {source : ResolvedSource} (hw : live w)
      (hsource : w.config.sources[id]? = some source)
      (hallows : source.allowOnDemandRefresh = true) :
      Refreshes live id params id (namedHosts params)
  | member {w w' : World} {view : View} {snap : MemberSnapshot} {source : ResolvedSource}
      {hosts : List String} (hw : live w) (hview : w.config.views[id]? = some view) (hw' : live w')
      (hsource : w'.config.sources[snap.sourceId]? = some source)
      (hallows : source.allowOnDemandRefresh = true)
      (hsnap : LookedUp live w'.config.toConfig.sources view.members snap)
      (hhosts : ∀ host ∈ hosts, host ∈ namedHosts params ∧ snap.claims host = true) :
      Refreshes live id params snap.sourceId hosts

/-- What a request may do, as far as the worlds it has seen allow it. -/
inductive Permitted (request : Request) (live : World → Prop) : Act → Prop
  | putHost {id hostname : String} {vars : HostVars}
      (hcall : request.call = .putHost id hostname vars)
      (hallowed : request.permissions.allowsSource id = true) (now : Nat) :
      Permitted request live (.write (.update id fun entry => entry.updateHost hostname vars now))
  | deleteHost {id hostname : String} (hcall : request.call = .deleteHost id hostname)
      (hallowed : request.permissions.allowsSource id = true) :
      Permitted request live (.write (.update id (removeHostIfPresent hostname)))
  | evict {id : String} (hcall : request.call = .evict id)
      (hallowed : request.permissions.allowsSource id = true) :
      Permitted request live (.write (.remove id))
  | sync {id : String} {params : SyncParams} {onRead : Bool} {requestId : Option String} {a : Act}
      (hcall : request.call = .sync id params onRead requestId)
      (hallowed : request.permissions.allowsSource id = true)
      (ha : SyncActs id (· = params.scope) a) : Permitted request live a
  | enrich {id : String} {w : World} {enricher : Enricher} {a : Act}
      (hcall : request.call = .runEnricher id) (hw : live w)
      (henricher : w.config.enrichers[id]? = some enricher)
      (hallowed : request.permissions.allowsSource enricher.targetId = true)
      (ha : EnricherActs id enricher a) : Permitted request live a
  | refresh {id sourceId : String} {params : DatasetParams} {hosts : List String} {a : Act}
      (hcall : request.call = .dataset id params) (hasked : params.refresh = some true)
      (hallowed : request.permissions.allowsSource id = true)
      (hrefreshes : Refreshes live id params sourceId hosts)
      (ha : SyncActs sourceId (SomeOf hosts) a) : Permitted request live a

/-- A source that the request is allowed, or that allows refreshes and is a
member of a view that it is allowed. -/
def Reaches (request : Request) (live : World → Prop) (sourceId : String) : Prop :=
  request.permissions.allowsSource sourceId = true ∨
    (∃ w, live w ∧ ∃ id view, request.permissions.allowsSource id = true ∧
      w.config.views[id]? = some view ∧ sourceId ∈ view.memberIds) ∧
    ∃ w, live w ∧ ∃ source, w.config.sources[sourceId]? = some source ∧
      source.allowOnDemandRefresh = true

theorem EnricherActs.sourceId {id : String} {enricher : Enricher} {a : Act}
    (h : EnricherActs id enricher a) {sourceId : String} (hsource : a.sourceId = some sourceId) :
    sourceId = enricher.targetId := by
  cases h with
  | merged part => exact (Option.some.inj hsource).symm
  | answered answer now => exact (Option.some.inj hsource).symm
  | succeeded now => cases hsource
  | failed error now => cases hsource

theorem syncWrites_key {sourceId : String} {source : Source} {scope : SyncScope}
    {output : ConnectorOutput} {now : Nat} {occupied : Bool} :
    ∀ op ∈ syncWrites sourceId source scope output now occupied, op.key = sourceId := by
  unfold syncWrites
  cases scope with
  | hosts hosts =>
    dsimp only
    split
    · simp
    · cases occupied <;> simp [CacheWrite.key]
  | group group => cases occupied <;> simp [CacheWrite.key]
  | full =>
    cases source.syncMode with
    | replace =>
      dsimp only
      split <;> simp [CacheWrite.key]
    | merge => simp [CacheWrite.key]

theorem SyncActs.sourceId {key : String} {scopes : SyncScope → Prop} {a : Act}
    (h : SyncActs key scopes a) {sourceId : String} (hsource : a.sourceId = some sourceId) :
    sourceId = key := by
  cases h with
  | wrote hscope source output now occupied hop =>
    exact (Option.some.inj hsource).symm.trans (syncWrites_key _ hop)
  | claimed claim => exact (Option.some.inj hsource).symm
  | succeeded now => exact (Option.some.inj hsource).symm
  | failed error now => exact (Option.some.inj hsource).symm
  | ran hscope row hrow => exact (Option.some.inj hsource).symm
  | counted hfull => exact (Option.some.inj hsource).symm
  | enriched htarget ha => exact (ha.sourceId hsource).trans htarget

theorem Refreshes.reaches {live : World → Prop} {id sourceId : String} {params : DatasetParams}
    {hosts : List String} (h : Refreshes live id params sourceId hosts) {request : Request}
    (hallowed : request.permissions.allowsSource id = true) : Reaches request live sourceId := by
  cases h with
  | source => exact .inl hallowed
  | @member w w' view snap source hosts hw hview hw' hsource hallows hsnap hhosts =>
    obtain ⟨member, hmember, hid, _⟩ := hsnap
    have hmem : snap.sourceId ∈ view.memberIds := List.mem_map.mpr ⟨member, hmember, hid.symm⟩
    exact .inr ⟨⟨w, hw, id, view, hallowed, hview, hmem⟩, w', hw', source, hsource, hallows⟩

/-- Whatever a request may do, it is about a source that it reaches. -/
theorem Permitted.reaches {request : Request} {live : World → Prop} {a : Act}
    (h : Permitted request live a) {sourceId : String} (hsource : a.sourceId = some sourceId) :
    Reaches request live sourceId := by
  cases h with
  | putHost hcall hallowed now => exact .inl (Option.some.inj hsource ▸ hallowed)
  | deleteHost hcall hallowed => exact .inl (Option.some.inj hsource ▸ hallowed)
  | evict hcall hallowed => exact .inl (Option.some.inj hsource ▸ hallowed)
  | sync hcall hallowed ha => exact .inl (ha.sourceId hsource ▸ hallowed)
  | enrich hcall hw henricher hallowed ha => exact .inl (ha.sourceId hsource ▸ hallowed)
  | refresh hcall hasked hallowed hrefreshes ha =>
    exact ha.sourceId hsource ▸ hrefreshes.reaches hallowed

/-! ## What the routes guarantee -/

/-- Where anything has been changed, the answer is no 400 and no 403. -/
def Settled (changed : Prop) (answer : Except ApiError Reply) : Prop :=
  changed → ∀ e, answer = .error e → e.status ≠ 400 ∧ e.status ≠ 403

theorem Settled.unchanged {answer : Except ApiError Reply} : Settled False answer :=
  fun h => h.elim

theorem Settled.ok {changed : Prop} {reply : Reply} : Settled changed (.ok reply) :=
  fun _ _ h => nomatch h

theorem Settled.notFound {changed : Prop} {message : String} :
    Settled changed (.error (.notFound message)) := by
  rintro _ e h
  cases h
  exact ⟨show 404 ≠ 400 by decide, show 404 ≠ 403 by decide⟩

theorem putHost_allowed {config : Config} {permissions : Permissions} {id hostname : String}
    {vars : HostVars} {now : Nat} {cache cache' : MemoryCache}
    (h : putHost config permissions id hostname vars now cache = .ok cache') :
    permissions.allowsSource id = true := by
  unfold putHost at h
  split at h
  · cases h
  · rename_i hallowed
    simpa using hallowed

theorem deleteHost_cases {config : Config} {permissions : Permissions} {id hostname : String}
    {cache : MemoryCache} {result : Except ApiError Unit} {cache' : MemoryCache}
    (h : deleteHost config permissions id hostname cache = (result, cache')) :
    cache' = cache ∨ permissions.allowsSource id = true ∧
      cache' = (cache.update id (removeHostIfPresent hostname)).2 ∧
      (result = .ok () ∨ ∃ message, result = .error (.notFound message)) := by
  unfold deleteHost at h
  split at h
  · cases h
    exact .inl rfl
  · rename_i hallowed
    refine or_iff_not_imp_left.mpr fun hchanged => ⟨by simpa using hallowed, ?_⟩
    split at h
    · cases h
      exact absurd rfl hchanged
    · dsimp only at h
      split at h
      · cases h
        exact ⟨rfl, .inr ⟨_, rfl⟩⟩
      · split at h
        · split at h
          · cases h
            exact ⟨rfl, .inr ⟨_, rfl⟩⟩
          · cases h
            exact ⟨rfl, .inl rfl⟩
        · cases h
          exact ⟨rfl, .inr ⟨_, rfl⟩⟩

section
variable {request : Request} {live : World → Prop}

theorem putHostRoute_guarantees {id hostname : String} {vars : HostVars}
    (hcall : request.call = .putHost id hostname vars) :
    (putHostRoute request.permissions id hostname vars).Guarantees live
      (Doing (Permitted request live)) Settled False := by
  refine .read Doing.refl fun w _ => .ask fun now => fun s _ => ?_
  dsimp only
  cases hput : putHost w.config.toConfig request.permissions id hostname vars now s.cache with
  | error e =>
    exact ⟨.inl rfl, fun hchanged => absurd rfl (hchanged.resolve_left not_false)⟩
  | ok cache =>
    have hcache := putHost_ok hput
    exact ⟨.inr ⟨_, .putHost hcall (putHost_allowed hput) now, by rw [hcache]; rfl⟩, .ok⟩

theorem deleteHostRoute_guarantees {id hostname : String}
    (hcall : request.call = .deleteHost id hostname) :
    (deleteHostRoute request.permissions id hostname).Guarantees live
      (Doing (Permitted request live)) Settled False := by
  refine .read Doing.refl fun w _ => fun s _ => ?_
  dsimp only
  cases hdelete : deleteHost w.config.toConfig request.permissions id hostname s.cache with
  | mk result cache =>
    rcases deleteHost_cases hdelete with rfl | ⟨hallowed, rfl, hresult⟩
    · exact ⟨.inl rfl, fun hchanged => absurd rfl (hchanged.resolve_left not_false)⟩
    · refine ⟨.inr ⟨_, .deleteHost hcall hallowed, rfl⟩, ?_⟩
      rcases hresult with rfl | ⟨message, rfl⟩
      · exact .ok
      · exact .notFound

theorem evictSource_guarantees {id : String} (hcall : request.call = .evict id) :
    (evictSource request.permissions id).Guarantees live (Doing (Permitted request live)) Settled
      False := by
  unfold evictSource
  split
  · exact .unchanged
  · rename_i hallowed
    refine .read Doing.refl fun w _ => ?_
    split
    · exact .unchanged
    · refine .read Doing.refl fun w' _ => ?_
      split
      · exact .unchanged
      · exact act_guarantees (.evict hcall (by simpa using hallowed)) fun _ => .ok

section
variable (specsToString : List HostSpec → Except String String) (projectsDir : String)

theorem syncRoute_guarantees {id : String} {params : SyncParams} {onRead : Bool}
    {requestId : Option String} (hcall : request.call = .sync id params onRead requestId) :
    (syncRoute specsToString projectsDir request id params onRead requestId).Guarantees live
      (Doing (Permitted request live)) Settled False := by
  unfold syncRoute
  split
  · exact .unchanged
  · rename_i hallowed
    refine .read Doing.refl fun w _ => ?_
    dsimp only
    split
    · exact .unchanged
    · refine .read Doing.refl fun w' _ => ?_
      split
      · exact .unchanged
      · rename_i source _
        refine .ask fun disk => ?_
        have hscope : params.request.scope = params.scope := by
          unfold SyncParams.request
          split <;> rfl
        have hmay : ∀ a, SyncActs id (· = params.scope) a → Permitted request live a :=
          fun a ha => .sync hcall (by simpa using hallowed) ha
        refine Prog.Guarantees.bind (syncSource_guarantees specsToString ?_ hmay) fun _ _ _ => .ok
        exact hscope

theorem runEnricherRoute_guarantees {id : String} (hcall : request.call = .runEnricher id) :
    (runEnricherRoute request.permissions id).Guarantees live (Doing (Permitted request live))
      Settled False := by
  refine .read Doing.refl fun w hw => ?_
  split
  · exact .unchanged
  · rename_i enricher henricher
    split
    · exact .unchanged
    · rename_i hallowed
      refine Prog.Guarantees.bind (runEnricher_guarantees fun a ha =>
        .enrich hcall hw henricher (by simpa using hallowed) ha) fun _ outcome _ => ?_
      cases outcome with
      | none => exact .notFound
      | some outcome => exact .ok

/-! ## Refreshes -/

/-- Lookups change nothing, and each finds what some world had. -/
theorem lookUp_guarantees {sources : StrMap Source} {may : Act → Prop} {changed : Prop}
    (members : List ViewMember) :
    (lookUp sources members).Guarantees live (Doing may) (fun changed' found =>
      changed' = changed ∧ ∀ snap ∈ found, LookedUp live sources members snap) changed := by
  induction members with
  | nil => exact ⟨rfl, fun _ h => nomatch h⟩
  | cons member rest ih =>
    refine .read Doing.refl fun w hw => .read Doing.refl fun _ _ => ?_
    refine .read Doing.refl fun w' hw' => ?_
    refine ih.bind fun changed' found ⟨hchanged, hfound⟩ => ⟨hchanged, fun snap hsnap => ?_⟩
    rcases List.mem_cons.mp hsnap with rfl | hrest
    · exact ⟨member, List.mem_cons_self, rfl, ⟨w, hw, rfl⟩, w', hw', rfl⟩
    · obtain ⟨other, hother, hsame⟩ := hfound snap hrest
      exact ⟨other, List.mem_cons_of_mem _ hother, hsame⟩

theorem mem_route {snap : ViewSnapshot} {hosts : List String}
    {routed : List (MemberSnapshot × List String)} (h : snap.route hosts = .ok routed)
    {member : MemberSnapshot} {part : List String} (hpart : (member, part) ∈ routed) :
    member ∈ snap.members ∧ ∀ host ∈ part, host ∈ hosts ∧ member.claims host = true := by
  rw [ViewSnapshot.route_eq] at h
  dsimp only at h
  split at h
  · obtain rfl := Except.ok.inj h
    obtain ⟨index, _, hindex⟩ := List.mem_filterMap.mp hpart
    dsimp only at hindex
    split at hindex
    · cases hindex
    · obtain ⟨owner, howner, heq⟩ := Option.map_eq_some_iff.mp hindex
      obtain ⟨rfl, rfl⟩ := Prod.mk.inj heq
      refine ⟨List.mem_of_getElem? howner, fun host hhost => ?_⟩
      obtain ⟨hnamed, howns⟩ := List.mem_filter.mp hhost
      have hclaims := of_decide_eq_true howns
      rw [ViewSnapshot.ownerIndex_eq, List.findIdx?_eq_some_iff_getElem] at hclaims
      obtain ⟨hlt, hclaims, _⟩ := hclaims
      rw [List.getElem?_eq_getElem hlt] at howner
      exact ⟨hnamed, Option.some.inj howner ▸ hclaims⟩
  · cases h

theorem allows_of_refusal {config : LiveConfig} {viewId : String} {hosts : List String}
    {routed : List (MemberSnapshot × List String)} (h : refusal config viewId hosts routed = none)
    {member : MemberSnapshot} {part : List String} (hpart : (member, part) ∈ routed) :
    ∃ source, config.sources[member.sourceId]? = some source ∧
      source.allowOnDemandRefresh = true := by
  have hnone := List.findSome?_eq_none_iff.mp h _ hpart
  dsimp only at hnone
  split at hnone
  · cases hnone
  · rename_i source hsource
    refine ⟨source, hsource, ?_⟩
    split at hnone
    · assumption
    · cases hnone

theorem refreshMembers_guarantees {ttlSeconds : Option Nat} {enrichers : List (String × Enricher)}
    {may : Act → Prop} {changed : Prop} (routed : List (MemberSnapshot × List String))
    (h : ∀ member part, (member, part) ∈ routed →
      ∀ a, SyncActs member.sourceId (SomeOf part) a → may a) (merged : MergedRefresh) :
    (refreshMembers specsToString projectsDir ttlSeconds enrichers routed merged).Guarantees live
      (Doing may) (fun _ _ => True) changed := by
  induction routed generalizing changed merged with
  | nil => trivial
  | cons first rest ih =>
    refine .read Doing.refl fun w _ => ?_
    split
    · trivial
    · refine .ask fun disk => ?_
      refine (refreshHosts_guarantees specsToString (h _ _ List.mem_cons_self)).bind fun _ _ _ => ?_
      exact ih (fun member part hpart => h member part (List.mem_cons_of_mem _ hpart)) _

/-- A refusal of a refresh comes before anything is changed. -/
def Answered (changed : Prop) (answer : Except ApiError RefreshOutcome) : Prop :=
  ∀ e, answer = .error e → ¬ changed

theorem refreshBeforeReading_guarantees {id : String} {params : DatasetParams} {may : Act → Prop}
    (h : ∀ w source, live w → w.config.sources[id]? = some source →
      source.allowOnDemandRefresh = true →
      ∀ a, SyncActs id (SomeOf (namedHosts params)) a → may a) :
    (refreshBeforeReading specsToString projectsDir id params).Guarantees live (Doing may)
      Answered False := by
  refine .read Doing.refl fun w hw => ?_
  split
  · exact fun _ _ => not_false
  · rename_i source hsource
    split
    · exact fun _ _ => not_false
    · rename_i hallows
      split
      · exact fun _ _ => not_false
      · refine .ask fun disk => .read Doing.refl fun w' _ => ?_
        have hmay := h w source hw hsource (by simpa using hallows)
        exact (refreshHosts_guarantees specsToString hmay).bind fun _ _ _ _ h => nomatch h

theorem refreshViewBeforeReading_guarantees {id : String} {view : View} {params : DatasetParams}
    {may : Act → Prop}
    (h : ∀ w source snap part, live w → w.config.sources[snap.sourceId]? = some source →
      source.allowOnDemandRefresh = true →
      LookedUp live w.config.toConfig.sources view.members snap →
      (∀ host ∈ part, host ∈ namedHosts params ∧ snap.claims host = true) →
      ∀ a, SyncActs snap.sourceId (SomeOf part) a → may a) :
    (refreshViewBeforeReading specsToString projectsDir id view params).Guarantees live (Doing may)
      Answered False := by
  unfold refreshViewBeforeReading
  dsimp only
  split
  · exact fun _ _ => not_false
  · refine .read Doing.refl fun w hw => ?_
    refine (lookUp_guarantees view.members).bind fun changed members ⟨hchanged, hfound⟩ => ?_
    subst hchanged
    split
    · exact fun _ _ => not_false
    · rename_i routed hroute
      split
      · exact fun _ _ => not_false
      · rename_i hrefusal
        refine Prog.Guarantees.bind
          (refreshMembers_guarantees specsToString projectsDir routed ?_ {})
          fun _ _ _ _ h => nomatch h
        intro member part hpart
        obtain ⟨hmember, hhosts⟩ := mem_route hroute hpart
        obtain ⟨source, hsource, hallows⟩ := allows_of_refusal hrefusal hpart
        exact h w source member part hw hsource hallows (hfound member hmember) hhosts

variable (ops : TextOps)

theorem refreshedFirst_guarantees {params : DatasetParams} {may : Act → Prop}
    {refresh : Prog World (Except ApiError RefreshOutcome)}
    {read : HostFilter → Option RefreshOutcome → Handler}
    (hrefresh : params.refresh = some true →
      refresh.Guarantees live (Doing may) Answered False)
    (hread : ∀ hostFilter outcome changed,
      (read hostFilter outcome).Guarantees live (Doing may) Settled changed) :
    (refreshedFirst ops params refresh read).Guarantees live (Doing may) Settled False := by
  unfold refreshedFirst
  split
  · exact .unchanged
  · split
    · rename_i hasked
      have hasked : params.refresh = some true := by
        cases hrefresh' : params.refresh with
        | none => simp [hrefresh'] at hasked
        | some asked => simpa [hrefresh'] using hasked
      refine (hrefresh hasked).bind fun changed answer hanswered => ?_
      cases answer with
      | error e => exact fun hchanged => absurd hchanged (hanswered e rfl)
      | ok outcome => exact hread _ _ _
    · exact hread _ _ _

theorem answerSource_guarantees {id : String} {params : DatasetParams} {hostFilter : HostFilter}
    {refresh : Option RefreshOutcome} {may : Act → Prop} {changed : Prop} :
    (answerSource ops id params hostFilter refresh).Guarantees live (Doing may) Settled
      changed := by
  refine .read Doing.refl fun w _ => ?_
  split
  · exact .notFound
  · exact .ok

theorem answerView_guarantees {id : String} {view : View} {params : DatasetParams}
    {hostFilter : HostFilter} {refresh : Option RefreshOutcome} {may : Act → Prop}
    {changed : Prop} : (answerView ops id view params hostFilter refresh).Guarantees live
      (Doing may) Settled changed := by
  refine .read Doing.refl fun w _ => (lookUp_guarantees view.members).bind fun _ members _ => ?_
  split
  · exact .notFound
  · exact .ok

theorem getSourceDataset_guarantees {id : String} {params : DatasetParams}
    (hcall : request.call = .dataset id params) :
    (getSourceDataset ops specsToString projectsDir request.permissions id params).Guarantees live
      (Doing (Permitted request live)) Settled False := by
  unfold getSourceDataset
  split
  · exact .unchanged
  · rename_i hallowed
    have hallowed : request.permissions.allowsSource id = true := by simpa using hallowed
    refine .read Doing.refl fun w hw => ?_
    split
    · rename_i view hview
      refine refreshedFirst_guarantees ops (fun hasked => ?_) fun _ _ _ => answerView_guarantees ops
      refine refreshViewBeforeReading_guarantees specsToString projectsDir ?_
      intro w' source snap part hw' hsource hallows hsnap hhosts a ha
      exact .refresh hcall hasked hallowed
        (.member hw hview hw' hsource hallows hsnap hhosts) ha
    · refine refreshedFirst_guarantees ops (fun hasked => ?_)
        fun _ _ _ => answerSource_guarantees ops
      refine refreshBeforeReading_guarantees specsToString projectsDir ?_
      intro w' source hw' hsource hallows a ha
      exact .refresh hcall hasked hallowed (.source hw' hsource hallows) ha

theorem handle_guarantees (request : Request) (live : World → Prop) :
    (handle ops specsToString projectsDir request).Guarantees live
      (Doing (Permitted request live)) Settled False := by
  unfold handle
  split
  · exact putHostRoute_guarantees ‹_›
  · exact deleteHostRoute_guarantees ‹_›
  · exact evictSource_guarantees ‹_›
  · exact syncRoute_guarantees specsToString projectsDir ‹_›
  · exact runEnricherRoute_guarantees ‹_›
  · exact getSourceDataset_guarantees specsToString projectsDir ops ‹_›

end

end

/-! ## All of them at once -/

theorem LookedUp.mono {live live' : World → Prop} {sources : StrMap Source}
    {members : List ViewMember} {snap : MemberSnapshot} (hlive : ∀ w, live w → live' w)
    (h : LookedUp live sources members snap) : LookedUp live' sources members snap := by
  obtain ⟨member, hmember, hid, ⟨w, hw, howns⟩, w', hw', hownership⟩ := h
  exact ⟨member, hmember, hid, ⟨w, hlive w hw, howns⟩, w', hlive w' hw', hownership⟩

theorem Refreshes.mono {live live' : World → Prop} {id sourceId : String} {params : DatasetParams}
    {hosts : List String} (hlive : ∀ w, live w → live' w)
    (h : Refreshes live id params sourceId hosts) : Refreshes live' id params sourceId hosts := by
  cases h with
  | source hw hsource hallows => exact .source (hlive _ hw) hsource hallows
  | member hw hview hw' hsource hallows hsnap hhosts =>
    exact .member (hlive _ hw) hview (hlive _ hw') hsource hallows (hsnap.mono hlive) hhosts

theorem Permitted.mono {request : Request} {live live' : World → Prop} {a : Act}
    (hlive : ∀ w, live w → live' w) (h : Permitted request live a) : Permitted request live' a := by
  cases h with
  | putHost hcall hallowed now => exact .putHost hcall hallowed now
  | deleteHost hcall hallowed => exact .deleteHost hcall hallowed
  | evict hcall hallowed => exact .evict hcall hallowed
  | sync hcall hallowed ha => exact .sync hcall hallowed ha
  | enrich hcall hw henricher hallowed ha =>
    exact .enrich hcall (hlive _ hw) henricher hallowed ha
  | refresh hcall hasked hallowed hrefreshes ha =>
    exact .refresh hcall hasked hallowed (hrefreshes.mono hlive) ha

/-- A request makes permitted steps only. -/
def permittedSteps : Guarantee World Request where
  allows request live := Doing (Permitted request live)
  refl _ _ _ := .inl rfl
  mono _ _ _ _ _ hlive h := h.imp_right fun ⟨a, ha, heq⟩ => ⟨a, ha.mono hlive, heq⟩

/-- **Who may change what.** In every interleaving of any number of requests
with whatever else changes the world, reloads of the configuration among it:
every step of a request is a permitted act or changes nothing; what the world
has for a source that the request does not reach stands; and a request that is
answered with a 400 or a 403 has changed nothing at all. -/
theorem requests_confined (ops : TextOps) (specsToString : List HostSpec → Except String String)
    (projectsDir : String) {start : World} {pool : Pool World Request (Except ApiError Reply)}
    (h : Pool.Reach (handle ops specsToString projectsDir) start pool) :
    ∀ thread ∈ pool.threads,
      (∀ step ∈ thread.made,
        Doing (Permitted thread.request (· ∈ thread.lived)) step.1 step.2) ∧
      (∀ sourceId, ¬ Reaches thread.request (· ∈ thread.lived) sourceId →
        ∀ step ∈ thread.made, step.2.held sourceId = step.1.held sourceId) ∧
      ∀ e, thread.prog = .pure (.error e) → e.status = 400 ∨ e.status = 403 →
        ∀ step ∈ thread.made, step.2 = step.1 := by
  intro thread hthread
  have hkept := permittedSteps.kept_of_reach (Q := fun _ => Settled)
    (fun request live => handle_guarantees specsToString projectsDir ops request live) h thread
    hthread
  refine ⟨hkept.made, fun sourceId hreaches step hstep => ?_, fun e hprog hstatus step hstep => ?_⟩
  · rcases hkept.made step hstep with heq | ⟨a, ha, heq⟩
    · rw [heq]
    · rw [heq, Act.held_of_ne fun hsource => hreaches (ha.reaches hsource)]
  · have hrest := hkept.rest (fun _ => True) fun _ _ => trivial
    rw [hprog] at hrest
    by_contra hne
    obtain ⟨h400, h403⟩ := hrest ⟨step, hstep, hne⟩ e rfl
    exact hstatus.elim h400 h403

/-! A read refreshes through a view, and loses the member's entry to an eviction
between its lookups and its refresh. -/

def webSource : ResolvedSource where
  name := "web"
  connector := "web"
  sshLocation := none
  projectId := none
  scriptArgs := []
  hostArgs := []
  timeoutSeconds := 300
  schedule := none
  syncIntervalSeconds := none
  allowOnDemandRefresh := true
  ttlSeconds := 60

def dcView : View where
  members := [{ source := "web", owns := { source := "web", hosts := ["a"] } }]

def webEntry : CacheEntry := .new { hostvars := (∅ : StrMap HostVars).insert "a" ∅ } 60 0

def cachedWeb : World where
  config :=
    { sources := (∅ : StrMap ResolvedSource).insert "web" webSource
      views := (∅ : StrMap View).insert "dc" dcView }
  cache := ({} : MemoryCache).set "web" webEntry

def evictedWeb : World := (Act.write (.remove "web")).run cachedWeb

def evictWeb : Request := { permissions := .scoped {"web"} ∅, call := .evict "web" }

def readDc : DatasetParams := { host := some "a", refresh := some true }

def refreshDc : Request := { permissions := .scoped {"dc"} ∅, call := .dataset "dc" readDc }

def webMember : MemberSnapshot where
  sourceId := "web"
  source := some webSource.toSource
  entry := some webEntry
  ownership := some webEntry
  owns := some { source := "web", hosts := ["a"] }
  ownershipMode := .declared

def webAnswer : ConnectorOutput := { dataset := webEntry.dataset }

abbrev handleSome : Request → Handler :=
  handle ⟨id, fun _ => none, fun _ => []⟩ (fun _ => .error "") "projects"

theorem get_cachedWeb : cachedWeb.cache.get "web" = some webEntry :=
  (MemoryCache.get_set _ _ _ _).trans (if_pos rfl)

theorem get_evictedWeb : evictedWeb.cache.get "web" = none :=
  (MemoryCache.get_remove _ _ _).trans (if_pos rfl)

theorem evictWeb_steps : (handleSome evictWeb).Steps cachedWeb
    (.pure (.ok (.evicted webEntry.dataset.hostvars.size))) evictedWeb := by
  have hallowed : Permissions.allowsSource (.scoped {"web"} ∅) "web" = true := by decide
  have hviews : cachedWeb.config.views["web"]? = none := by simp [cachedWeb]
  show (evictSource (.scoped {"web"} ∅) "web").Steps cachedWeb _ evictedWeb
  rw [evictSource, hallowed]
  refine .read ?_
  rw [hviews]
  refine .read ?_
  rw [get_cachedWeb]
  exact .modify (.refl _ _)

theorem lookUp_dcView : (lookUp cachedWeb.config.toConfig.sources dcView.members).Steps cachedWeb
    (.pure [webMember]) cachedWeb := by
  have hsource : cachedWeb.config.toConfig.sources["web"]? = some webSource.toSource := by
    simp [cachedWeb, LiveConfig.toConfig]
  refine .read (.read (.read ?_))
  rw [get_cachedWeb, hsource]
  exact .refl _ _

/-- The member as it is before the eviction. -/
theorem readDc_routes :
    (refreshViewBeforeReading (fun _ => .error "") "projects" "dc" dcView readDc).Steps cachedWeb
      (refreshMembers (fun _ => .error "") "projects" none [] [(webMember, ["a"])] {} >>=
        fun outcome => .pure (.ok outcome)) cachedWeb := by
  have hhosts : namedHosts readDc = ["a"] := by decide
  have hroute : ({ members := [webMember] } : ViewSnapshot).route ["a"] =
      .ok [(webMember, ["a"])] := by decide
  have hrefusal : refusal cachedWeb.config "dc" ["a"] [(webMember, ["a"])] = none := by
    simp [refusal, cachedWeb, webMember, webSource]
  have henrichers : cachedWeb.config.enrichers.toList = [] := by simp [cachedWeb]
  unfold refreshViewBeforeReading
  simp only [hhosts]
  refine .read (.andThen lookUp_dcView ?_)
  simp only [hroute, hrefusal, henrichers]
  exact .refl _ _

theorem refreshDc_steps : ∃ next : Except ApiError RefreshOutcome → Handler,
    (handleSome refreshDc).Steps cachedWeb
      ((refreshMembers (fun _ => .error "") "projects" none [] [(webMember, ["a"])] {} >>=
        fun outcome => .pure (.ok outcome)) >>= next) cachedWeb := by
  have hallowed : Permissions.allowsSource (.scoped {"dc"} ∅) "dc" = true := by decide
  have hview : cachedWeb.config.views["dc"]? = some dcView := by simp [cachedWeb]
  apply Exists.intro
  show (getSourceDataset _ _ "projects" (.scoped {"dc"} ∅) "dc" readDc).Steps _ _ _
  rw [getSourceDataset, hallowed]
  refine .read ?_
  rw [hview]
  exact readDc_routes.bind _

theorem webAnswer_applied : ∃ s ≠ evictedWeb,
    (applyToCache "web" webSource.toSource (.hosts ["a"]) webAnswer).Comes evictedWeb s := by
  have hwrites : ∃ f rest, syncWrites "web" webSource.toSource (.hosts ["a"]) webAnswer 0 false =
      .mergeOrInsert "web" webAnswer.dataset 60 0 f :: rest := by
    have hupdates : (scopedUpdates ["a"] webAnswer).isEmpty = false := by decide
    unfold syncWrites
    simp only [hupdates]
    exact ⟨_, _, rfl⟩
  obtain ⟨f, rest, hwrites⟩ := hwrites
  let written := (Act.write (.mergeOrInsert "web" webAnswer.dataset 60 0 f)).run evictedWeb
  have hcached : written.cache.get "web" = some (.new webAnswer.dataset 60 0) := by
    refine (MemoryCache.get_mergeOrInsert _ _ _ _ _ _ _).trans ?_
    rw [get_evictedWeb]
    rfl
  refine ⟨written, fun hsame => ?_, .ask 0 (.atomic ?_)⟩
  · rw [hsame, get_evictedWeb] at hcached
    cases hcached
  · rw [get_evictedWeb]
    simp only [Option.isSome_none, hwrites]
    exact ⟨_, .refl _ _⟩

/-- A host that was fresh when the request came is gathered. -/
theorem webMember_refreshed : ∃ s ≠ evictedWeb,
    (refreshMembers (fun _ => .error "") "projects" none [] [(webMember, ["a"])] {}).Comes
      evictedWeb s := by
  obtain ⟨s, hne, happlied⟩ := webAnswer_applied
  have hsource : evictedWeb.config.sources["web"]? = some webSource := by
    simp [evictedWeb, Act.run, cachedWeb]
  have hstale (now : Nat) :
      staleHosts evictedWeb.cache webSource.toSource "web" ["a"] none now = ["a"] := by
    rw [staleHosts, get_evictedWeb]
  refine ⟨s, hne, .read ?_⟩
  rw [show webMember.sourceId = "web" from rfl, hsource]
  refine .ask ⟨fun _ => false, fun _ => false, fun _ => .error ""⟩ (.bind ?_ _)
  show (refreshHosts _ "web" webSource ["a"] none []).Comes _ _
  unfold refreshHosts
  refine .ask 0 (.read ?_)
  rw [hstale]
  refine .after (.each fun _ _ => .ask () (.refl _ _)) (.ask 0 (.read ?_))
  rw [hstale]
  refine .ask true ?_
  unfold syncStale
  refine .ask 5 (.ask 0 (.read (.bind (.within ?_) _)))
  unfold syncSource
  refine .read (.ask () (.read (.ask 0 (.bind ?_ _))))
  unfold runSync
  refine .read (.ask (.ok ()) (.ask (some (.ok webAnswer)) (.ask 0 ?_)))
  exact .after (.refl _ _) (happlied.bind _)

/-- The refresh beside the eviction: both change the world. -/
theorem refreshBesideEviction_confined : ∃ pool : Pool World Request (Except ApiError Reply),
    (∃ thread ∈ pool.threads, thread.request = refreshDc ∧ thread.Changed) ∧
    (∃ thread ∈ pool.threads, thread.request = evictWeb ∧ thread.Changed) ∧
    ∀ thread ∈ pool.threads,
      (∀ step ∈ thread.made,
        Doing (Permitted thread.request (· ∈ thread.lived)) step.1 step.2) ∧
      (∀ sourceId, ¬ Reaches thread.request (· ∈ thread.lived) sourceId →
        ∀ step ∈ thread.made, step.2.held sourceId = step.1.held sourceId) ∧
      ∀ e, thread.prog = .pure (.error e) → e.status = 400 ∨ e.status = 403 →
        ∀ step ∈ thread.made, step.2 = step.1 := by
  obtain ⟨next, hlooked⟩ := refreshDc_steps
  obtain ⟨s, hne, q, hrefreshed⟩ := webMember_refreshed
  have hgone : evictedWeb ≠ cachedWeb := fun hsame => by
    have hnone := get_evictedWeb
    rw [hsame, get_cachedWeb] at hnone
    cases hnone
  have harrived : Pool.Reach handleSome cachedWeb _ := .single (.arrive _ refreshDc)
  obtain ⟨looked, hlooking, hshared, ⟨reading, hreading, hreads, hreadsOn, _⟩, _⟩ :=
    harrived.move (i := 0) rfl hlooked
  have hpos : 0 < looked.threads.length := (List.getElem?_eq_some_iff.mp hreading).1
  have hbeside : Pool.Reach handleSome cachedWeb _ := hlooking.tail (.arrive _ evictWeb)
  obtain ⟨evicted, hevicting, hshared', ⟨evicting, hevicts, hasks, _, hchanged⟩, hothers⟩ :=
    hbeside.move (i := looked.threads.length) List.getElem?_concat_length
      (hshared ▸ evictWeb_steps)
  obtain ⟨waiting, hwaiting, hwaits, hwaitsOn, _⟩ := hothers 0 hpos.ne reading
    ((List.getElem?_append_left hpos).trans hreading)
  obtain ⟨pool, hdone, _, ⟨refreshing, hrefreshing, hrefreshes, _, hchanged'⟩, hothers'⟩ :=
    hevicting.move hwaiting (hwaitsOn ▸ hreadsOn ▸ hshared' ▸ (hrefreshed.bind _).bind next)
  obtain ⟨ended, hended, hends, _, hmade⟩ :=
    hothers' looked.threads.length hpos.ne' evicting hevicts
  refine ⟨pool, ⟨refreshing, List.mem_of_getElem? hrefreshing, ?_, hchanged' (.inr ?_)⟩,
    ⟨ended, List.mem_of_getElem? hended, hends.trans hasks, ?_⟩,
    requests_confined _ _ _ hdone⟩
  · exact (hrefreshes.trans hwaits).trans hreads
  · exact hshared' ▸ hne
  · rw [Thread.Changed, hmade]
    exact hchanged (.inr (hshared ▸ hgone))

end Tasks
end UnifiedApi
