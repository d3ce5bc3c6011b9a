import UnifiedApi.Adapters.Http.ViewSelection
import UnifiedApi.Application.Refresh
import UnifiedApi.Domain.SyncHealth
import UnifiedApi.Lib.Results

/-! # GET /sources/{id}/status, and the refresh of the same route

Two readings of how fresh a host is: what the status reports, and what a read
that refreshes first finds stale. -/

namespace UnifiedApi
open Clock

structure HostStatus where
  hostname : String
  ageSeconds : Nat
  isFresh : Bool
  ttlSeconds : Nat
  deriving DecidableEq

structure ViewMemberStatus where
  sourceId : String
  cached : Bool
  ownershipCached : Bool
  ownershipMode : OwnershipMode
  ageSeconds : Option Nat
  isFresh : Bool
  ttlSeconds : Nat
  totalHosts : Nat
  syncHealth : Option SyncHealth
  deriving DecidableEq

structure SourceStatus where
  sourceId : String
  datasetAgeSeconds : Nat
  datasetIsFresh : Bool
  ttlSeconds : Nat
  totalHosts : Nat
  returned : Nat
  syncHealth : Option SyncHealth
  hosts : List HostStatus
  members : Option (List ViewMemberStatus)
  deriving DecidableEq

/-- `host=` and `group=`. -/
structure StatusParams where
  host : Option String := none
  group : Option String := none
  deriving DecidableEq

def ApiError.unclaimed (id : String) (view : View) (unclaimed : UnclaimedHosts) : ApiError :=
  .notFound ("no member of view '" ++ id ++ "' claims " ++ ", ".intercalate unclaimed.hosts ++
    ". Members are " ++ ", ".intercalate view.memberIds ++
    "; a host is routed by the ownership declared in the view, so either its group is not " ++
    "listed or the inventory source that ownership resolves against has not synced yet.")

/-- What the routes read. -/
structure StatusState where
  cache : MemoryCache := {}
  config : Config := {}
  advertisedScopes : AdvertisedScopeRegistry := ∅
  syncHealth : SyncHealthRegistry := {}
  now : Nat

/-- `none` for a host the entry has no timestamp of. -/
def hostStatus (entry : CacheEntry) (now : Nat) (hostname : String) (ttl : Nat) :
    Option HostStatus :=
  (entry.hostAgeSeconds hostname now).map fun age =>
    ⟨hostname, age, entry.isHostFresh hostname (some ttl) now, ttl⟩

namespace StatusState
variable (s : StatusState)

/-! ## A source -/

def sourceHosts (id : String) (entry : CacheEntry) (params : StatusParams) : List HostStatus :=
  let source := s.config.sources[id]?
  let groupTtls := source.elim ∅ (·.groupTtlByHost entry.dataset)
  (resolveHostnames entry.dataset params.host params.group).filterMap fun hostname =>
    hostStatus entry s.now hostname (source.elim (asSecs entry.ttl) fun source =>
      source.effectiveTtl hostname groupTtls (asSecs entry.ttl))

def sourceStatus (id : String) (params : StatusParams) : Except ApiError SourceStatus :=
  match s.cache.get id with
  | none => .error (.sourceNotCached id)
  | some entry =>
    let hosts := s.sourceHosts id entry params
    .ok {
      sourceId := id
      datasetAgeSeconds := entry.ageSeconds s.now
      datasetIsFresh := entry.isFresh s.now
      ttlSeconds := asSecs entry.ttl
      totalHosts := entry.dataset.hostvars.size
      returned := hosts.length
      syncHealth := s.syncHealth.get id s.now
      hosts
      members := none }

/-- What a refresh before a read of the source finds stale of the named hosts. -/
def sourceStale (id : String) (hosts : List String) : Except ApiError (List String) :=
  match s.config.sources[id]? with
  | none => .error (.sourceNotConfigured id)
  | some source => .ok (staleHosts s.cache source id hosts none s.now)

/-! ## A view -/

def snapshotOf (view : View) : ViewSnapshot :=
  { members := snapshot s.cache s.config.sources s.advertisedScopes view }

def memberStatuses (view : View) (snap : ViewSnapshot) : List ViewMemberStatus :=
  snap.members.map fun member => {
    sourceId := member.sourceId
    cached := member.entry.isSome
    ownershipCached := member.ownership.isSome
    ownershipMode := member.ownershipMode
    ageSeconds := member.entry.map (·.ageSeconds s.now)
    isFresh := member.entry.any (·.isFresh s.now)
    ttlSeconds := member.defaultTtl view
    totalHosts := member.entry.elim 0 (·.dataset.hostvars.size)
    syncHealth := s.syncHealth.get member.sourceId s.now }

/-- Each host by the age its owner has and the TTL its owner sets. -/
def viewHosts (view : View) (snap : ViewSnapshot) (selection : List String) : List HostStatus :=
  selection.filterMap fun hostname =>
    (snap.ownerIndex hostname).bind fun index => snap.members[index]?.bind fun owner =>
      owner.entry.bind fun entry =>
        hostStatus entry s.now hostname (owner.effectiveTtl view hostname owner.groupTtls)

def viewStatus (id : String) (view : View) (params : StatusParams) :
    Except ApiError SourceStatus :=
  let snap := s.snapshotOf view
  match selectMembers snap params.host params.group with
  | .error unclaimed => .error (.unclaimed id view unclaimed)
  | .ok selection =>
    -- a selection of the whole view has built the routing table
    let snap := { snap with built := params.host.isNone && params.group.isNone }
    let hosts := s.viewHosts view snap selection
    .ok {
      sourceId := id
      datasetAgeSeconds := snap.ageSeconds s.now
      datasetIsFresh := snap.isFresh s.now
      ttlSeconds := snap.ttlSeconds view
      totalHosts := snap.hosts.length
      returned := hosts.length
      syncHealth := none
      hosts
      members := some (s.memberStatuses view snap) }

/-- What a refresh before a read of the view finds stale of the named hosts, for
each member that owns some of them. -/
def viewStale (id : String) (view : View) (hosts : List String) :
    Except ApiError (List (String × List String)) :=
  match (s.snapshotOf view).route hosts with
  | .error unclaimed => .error (.unclaimed id view unclaimed)
  | .ok routed => match routed.find? fun part => part.1.source.isNone with
    | some part => .error (.sourceNotConfigured part.1.sourceId)
    | none => .ok (routed.filterMap fun part => part.1.source.map fun source => (part.1.sourceId,
        staleHosts s.cache source part.1.sourceId part.2 view.ttlSeconds s.now))

/-! ## Both readings -/

variable {s}

/-- A host that the status reports, by its own TTL. -/
theorem hostStatus_eq_some {entry : CacheEntry} {now ttl : Nat} {hostname : String}
    {status : HostStatus} (h : hostStatus entry now hostname ttl = some status) :
    status.hostname = hostname ∧ status.isFresh = entry.isHostFresh hostname (some ttl) now := by
  obtain ⟨age, _, rfl⟩ := Option.map_eq_some_iff.mp h
  exact ⟨rfl, rfl⟩

/-- A source's status and its refresh agree on every host. -/
theorem sourceStatus_agrees {id : String} {params : StatusParams} {status : SourceStatus}
    {host : HostStatus} {hosts stale : List String}
    (hstatus : s.sourceStatus id params = .ok status)
    (hhost : host ∈ status.hosts) (hstale : s.sourceStale id hosts = .ok stale)
    (hnamed : host.hostname ∈ hosts) : host.isFresh = true ↔ host.hostname ∉ stale := by
  unfold sourceStatus at hstatus
  unfold sourceStale at hstale
  cases hentry : s.cache.get id with
  | none => simp [hentry] at hstatus
  | some entry =>
    cases hsource : s.config.sources[id]? with
    | none => simp [hsource] at hstale
    | some source =>
      rw [hentry] at hstatus
      rw [hsource] at hstale
      obtain rfl := Except.ok.inj hstatus
      obtain rfl := Except.ok.inj hstale
      obtain ⟨hostname, _, hreported⟩ := List.mem_filterMap.mp hhost
      obtain ⟨rfl, hfresh⟩ := hostStatus_eq_some hreported
      rw [hfresh, mem_staleHosts_of_cached hentry, hsource]
      simp [hnamed]

/-- What a snapshot knows of a member is what the cache and the configuration
say of it. -/
theorem snapshotOf_member {view : View} {member : MemberSnapshot}
    (h : member ∈ (s.snapshotOf view).members) :
    member.entry = s.cache.get member.sourceId ∧
      member.source = s.config.sources[member.sourceId]? := by
  obtain ⟨declared, _, rfl⟩ := List.mem_map.mp h
  exact ⟨rfl, rfl⟩

theorem effectiveTtl_of_cached {member : MemberSnapshot} {source : Source} {entry : CacheEntry}
    (hsource : member.source = some source) (hentry : member.entry = some entry) (view : View)
    (hostname : String) : member.effectiveTtl view hostname member.groupTtls =
      source.effectiveTtl hostname (source.groupTtlByHost entry.dataset)
        (view.ttlSeconds.getD (asSecs entry.ttl)) := by
  unfold MemberSnapshot.effectiveTtl MemberSnapshot.defaultTtl MemberSnapshot.groupTtls
  rw [hsource, hentry]
  cases view.ttlSeconds <;> rfl

/-- A part of a routed list is what one member owns of it. -/
theorem mem_parts {snap : ViewSnapshot} {hosts part : List String} {member : MemberSnapshot} :
    (member, part) ∈ snap.parts hosts ↔ ∃ index, snap.members[(index : Nat)]? = some member ∧
      part = (hosts.filter fun hostname => snap.ownerIndex hostname = some index) ∧ part ≠ [] := by
  unfold ViewSnapshot.parts
  simp only [List.mem_filterMap, List.mem_range]
  constructor
  · intro h
    obtain ⟨index, _, h⟩ := h
    split at h
    · cases h
    · rename_i hsome
      obtain ⟨other, hother, heq⟩ := Option.map_eq_some_iff.mp h
      obtain ⟨rfl, rfl⟩ := Prod.mk.inj heq
      exact ⟨index, hother, rfl, fun hnil => hsome (List.isEmpty_iff.mpr hnil)⟩
  · intro h
    obtain ⟨index, hmember, rfl, hsome⟩ := h
    refine ⟨index, (List.getElem?_eq_some_iff.mp hmember).1, ?_⟩
    rw [if_neg fun hnil => hsome (List.isEmpty_iff.mp hnil), hmember, Option.map_some]

/-- A reported host has an owner that is cached, and is fresh by its TTL. -/
theorem mem_viewHosts {view : View} {snap : ViewSnapshot} {selection : List String}
    {host : HostStatus} (h : host ∈ s.viewHosts view snap selection) :
    ∃ index owner entry, snap.ownerIndex host.hostname = some index ∧
      snap.members[index]? = some owner ∧ owner.entry = some entry ∧
      host.isFresh = entry.isHostFresh host.hostname
        (some (owner.effectiveTtl view host.hostname owner.groupTtls)) s.now := by
  obtain ⟨hostname, _, h⟩ := List.mem_filterMap.mp h
  obtain ⟨index, hindex, h⟩ := Option.bind_eq_some_iff.mp h
  obtain ⟨owner, howner, h⟩ := Option.bind_eq_some_iff.mp h
  obtain ⟨entry, hentry, h⟩ := Option.bind_eq_some_iff.mp h
  obtain ⟨rfl, hfresh⟩ := hostStatus_eq_some h
  exact ⟨index, owner, entry, hindex, howner, hentry, hfresh⟩

/-- A refresh looks at a host that it was asked for where its owner is. -/
theorem viewStale_lists_iff {id : String} {view : View} {hosts : List String}
    {stale : List (String × List String)} (h : s.viewStale id view hosts = .ok stale)
    {hostname : String} {index : Nat} {owner : MemberSnapshot} (hnamed : hostname ∈ hosts)
    (hindex : (s.snapshotOf view).ownerIndex hostname = some index)
    (howner : (s.snapshotOf view).members[index]? = some owner) :
    ∃ source part, owner.source = some source ∧ hostname ∈ part ∧
      ((∃ listed ∈ stale, hostname ∈ listed.2) ↔
        hostname ∈ staleHosts s.cache source owner.sourceId part view.ttlSeconds s.now) := by
  unfold viewStale at h
  rw [ViewSnapshot.route_eq] at h
  dsimp only at h
  split at h
  · cases h
  · rename_i routed hrouted
    split at hrouted
    · obtain rfl := Except.ok.inj hrouted
      split at h
      · cases h
      · rename_i hconfigured
        obtain rfl := Except.ok.inj h
        generalize hpart : (hosts.filter fun hostname =>
          (s.snapshotOf view).ownerIndex hostname = some index) = part
        have hin : hostname ∈ part := by
          rw [← hpart]
          exact List.mem_filter.mpr ⟨hnamed, by simpa using hindex⟩
        have hmem : (owner, part) ∈ (s.snapshotOf view).parts hosts :=
          mem_parts.mpr ⟨index, howner, hpart.symm, List.ne_nil_of_mem hin⟩
        obtain ⟨source, hsource⟩ : ∃ source, owner.source = some source := by
          have hsome := List.find?_eq_none.mp hconfigured _ hmem
          exact Option.ne_none_iff_exists'.mp (by simpa using hsome)
        refine ⟨source, part, hsource, hin, ?_, ?_⟩
        · intro hlisted
          obtain ⟨listed, hlisted, hstale⟩ := hlisted
          obtain ⟨⟨member, other⟩, hother, heq⟩ := List.mem_filterMap.mp hlisted
          obtain ⟨source', hsource', rfl⟩ := Option.map_eq_some_iff.mp heq
          obtain ⟨index', hmember, rfl, _⟩ := mem_parts.mp hother
          -- only its owner's part has the host
          have hsame := (List.mem_filter.mp (mem_of_mem_staleHosts hstale)).2
          rw [hindex, decide_eq_true_eq, Option.some.injEq] at hsame
          subst hsame
          obtain rfl := Option.some.inj (howner.symm.trans hmember)
          obtain rfl := Option.some.inj (hsource.symm.trans hsource')
          exact hpart ▸ hstale
        · intro hstale
          exact ⟨_, List.mem_filterMap.mpr ⟨_, hmem, by rw [hsource]; rfl⟩, hstale⟩
    · cases hrouted

/-- A view's status and its refresh agree on every host. -/
theorem viewStatus_agrees {id : String} {view : View} {params : StatusParams}
    {status : SourceStatus} {host : HostStatus} {hosts : List String}
    {stale : List (String × List String)} (hstatus : s.viewStatus id view params = .ok status)
    (hhost : host ∈ status.hosts) (hstale : s.viewStale id view hosts = .ok stale)
    (hnamed : host.hostname ∈ hosts) :
    host.isFresh = true ↔ ∀ part ∈ stale, host.hostname ∉ part.2 := by
  unfold viewStatus at hstatus
  dsimp only at hstatus
  split at hstatus
  · cases hstatus
  · obtain rfl := Except.ok.inj hstatus
    obtain ⟨index, owner, entry, hindex, howner, hentry, hfresh⟩ := mem_viewHosts hhost
    have hindex' : (s.snapshotOf view).ownerIndex host.hostname = some index := by
      rw [ViewSnapshot.ownerIndex_eq] at hindex ⊢
      exact hindex
    obtain ⟨source, part, hsource, hin, hlists⟩ :=
      viewStale_lists_iff hstale hnamed hindex' howner
    have hcached := (snapshotOf_member (List.mem_of_getElem? howner)).1.symm.trans hentry
    rw [hfresh, effectiveTtl_of_cached hsource hentry]
    rw [mem_staleHosts_of_cached hcached] at hlists
    constructor
    · intro hyes listed hmem hmember
      have hno := (hlists.mp ⟨listed, hmem, hmember⟩).2
      rw [hyes] at hno
      cases hno
    · intro hnone
      by_contra hno
      obtain ⟨listed, hmem, hmember⟩ := hlists.mpr ⟨hin, Bool.eq_false_iff.mpr hno⟩
      exact hnone listed hmem hmember

end StatusState

/-- **Two readings of freshness agree.** At one instant, on the route of a
source and on that of a view, a host that the status reports is fresh exactly
when a refresh that names it does not find it stale; and the order of a map of
group overrides does not matter. -/
theorem freshness_agrees (s : StatusState) (id : String) (params : StatusParams)
    (hosts : List String) :
    (∀ status stale, s.sourceStatus id params = .ok status → s.sourceStale id hosts = .ok stale →
      ∀ host ∈ status.hosts, host.hostname ∈ hosts →
        (host.isFresh = true ↔ host.hostname ∉ stale)) ∧
    (∀ view status stale, s.viewStatus id view params = .ok status →
      s.viewStale id view hosts = .ok stale → ∀ host ∈ status.hosts, host.hostname ∈ hosts →
        (host.isFresh = true ↔ ∀ part ∈ stale, host.hostname ∉ part.2)) ∧
    ∀ (source : Source) (dataset : Dataset) (overrides : List (String × Nat)),
      overrides.Perm source.ttlOverrides.groups.toList →
        Source.groupTtlsInOrder dataset overrides = source.groupTtlByHost dataset :=
  ⟨fun _ _ hstatus hstale _ hhost hnamed =>
      StatusState.sourceStatus_agrees hstatus hhost hstale hnamed,
    fun _ _ _ hstatus hstale _ hhost hnamed =>
      StatusState.viewStatus_agrees hstatus hhost hstale hnamed,
    fun _ _ _ horder => Source.groupTtlsInOrder_eq horder⟩

/-- A source whose host has a TTL of its own. -/
def overriddenSource : Source where
  ttlSeconds := 60
  ttlOverrides := { hosts := (∅ : StrMap Nat).insert "a" 300 }

/-- The host is past the source's TTL and within its own. -/
def overriddenHost : StatusState where
  cache := ({} : MemoryCache).set "src"
    (.new { hostvars := (∅ : StrMap HostVars).insert "a" ∅ } 60 0)
  config := { sources := (∅ : StrMap Source).insert "src" overriddenSource }
  now := fromSecs 100

/-- The view sets a TTL too. -/
def overridingView : View where
  members := [{ source := "src", owns := { source := "src" } }]
  ttlSeconds := some 30

theorem overriddenHost_agrees : ∃ status,
    overriddenHost.viewStatus "view" overridingView {} = .ok status ∧
    overriddenHost.viewStale "view" overridingView ["a"] = .ok [("src", [])] ∧
    status.hosts.map (·.hostname) = ["a"] ∧ ∀ host ∈ status.hosts, host.isFresh = true := by
  have hstale : overriddenHost.viewStale "view" overridingView ["a"] = .ok [("src", [])] := by
    decide
  have hnames : (overriddenHost.viewStatus "view" overridingView {}).toOption.map
      (·.hosts.map (·.hostname)) = some ["a"] := by decide
  obtain ⟨status, hstatus, hlisted⟩ := Results.ok_of_toOption_map hnames
  refine ⟨status, hstatus, hstale, hlisted, fun host hhost => ?_⟩
  have hname : host.hostname ∈ ["a"] := hlisted ▸ List.mem_map_of_mem hhost
  have hiff := (freshness_agrees overriddenHost "view" {} ["a"]).2.1 overridingView status
    [("src", [])] hstatus hstale host hhost hname
  exact hiff.mpr (by simp)

end UnifiedApi
