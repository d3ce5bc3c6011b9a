import UnifiedApi.Cache.MemoryCache
import UnifiedApi.Ports.Connector

/-! # How a sync lands in the cache

`applyToCache` is the write half of a sync: what each scope and sync mode
does with the connector's output, in cache operations. `syncedEntry` says
what that leaves at the source's key (`get_applyToCache`), which is what
every later result is proved about. -/

namespace UnifiedApi

/-- The slice of a source a sync covers. -/
inductive SyncScope where
  | full
  | hosts (hosts : List String)
  | group (group : String)
  deriving DecidableEq

/-- A host's age as the connector reports it; a gather that reports none
happened now. -/
def ConnectorOutput.ageOf (output : ConnectorOutput) (host : String) : Nat :=
  (output.ages.bind (·.hostAges[host]?)).getD 0

/-- The requested hosts the connector actually returned, with their ages. -/
def scopedUpdates (hosts : List String) (output : ConnectorOutput) :
    List (String × HostVars × Nat) :=
  hosts.filterMap fun host => output.dataset.hostvars[host]?.map fun vars =>
    (host, vars, output.ageOf host)

/-- Where the connector places each of them; silence about groups is left out. -/
def scopedMemberships (updates : List (String × HostVars × Nat)) (dataset : Dataset) :
    List (String × List String) :=
  updates.filterMap fun update =>
    let groups := dataset.groupsOf update.1
    if groups.isEmpty then none else some (update.1, groups)

/-- The vars, and only the vars, of the groups those hosts landed in. -/
def scopedGroupVars (memberships : List (String × List String)) (dataset : Dataset) : Dataset :=
  { groups := (dataset.groups.filter fun name group =>
      memberships.any (·.2.contains name) && group.vars.isSome).map fun _ group =>
        { children := group.children, vars := group.vars } }

def updateHosts (updates : List (String × HostVars × Nat)) (now : Nat) (entry : CacheEntry) :
    CacheEntry :=
  updates.foldl (fun entry update =>
    entry.updateHostAged update.1 update.2.1 update.2.2 now) entry

/-- A host-scoped sync of an entry that was there. -/
def patchHosts (source : Source) (hosts : List String) (output : ConnectorOutput) (now : Nat)
    (entry : CacheEntry) : CacheEntry :=
  let updates := scopedUpdates hosts output
  let memberships := scopedMemberships updates output.dataset
  let entry := updateHosts updates now entry
  let entry := memberships.foldl (fun entry membership =>
    entry.setHostGroups membership.1 membership.2) entry
  if source.hostSyncUpdatesGroupVars then
    entry.mergeGroupVarFields (scopedGroupVars memberships output.dataset)
  else entry

/-- The requested hosts' variables as the entry has them, aged as reported. -/
def correctAges (updates : List (String × HostVars × Nat)) (now : Nat) (entry : CacheEntry) :
    CacheEntry :=
  updates.foldl (fun entry update =>
    match entry.dataset.hostvars[update.1]? with
    | some vars => entry.updateHostAged update.1 vars update.2.2 now
    | none => entry) entry

/-- What corrects the entry a host-scoped sync had to create: the ages the
connector reported, and the mark that this is not the whole source. -/
def correctCreated (hosts : List String) (output : ConnectorOutput) (now : Nat)
    (entry : CacheEntry) : CacheEntry :=
  (correctAges (scopedUpdates hosts output) now entry).markPartial

/-- The entry a full gather stands for on its own. -/
def gatheredEntry (ttlSeconds : Nat) (dataset : Dataset) (ages : Option DatasetAges) (now : Nat) :
    CacheEntry :=
  match ages with
  | some ages => .restore dataset ttlSeconds ages.datasetAgeSeconds ages.hostAges now
  | none => .new dataset ttlSeconds now

/-- The hosts a replace could not reach and the new dataset lacks, as the old
entry has them. -/
def retainedHosts (unreachable : List String) (dataset : Dataset) (now : Nat)
    (entry : CacheEntry) : List RetainedHost :=
  (unreachable.filter fun host => !dataset.hostvars.contains host).filterMap
    (entry.captureHost · now)

/-- A full replace that keeps what it could not reach. -/
def replaceKeeping (ttlSeconds : Nat) (output : ConnectorOutput) (now : Nat)
    (entry : CacheEntry) (dataset : Dataset) : CacheEntry :=
  (retainedHosts output.unreachable dataset now entry).foldl (fun entry host =>
    entry.restoreHost host now) (gatheredEntry ttlSeconds dataset output.ages now)

def applyToCache (cache : MemoryCache) (sourceId : String) (source : Source) (scope : SyncScope)
    (output : ConnectorOutput) (now : Nat) : MemoryCache :=
  let ttl := source.ttlSeconds
  let occupied := (cache.get sourceId).isSome
  match scope with
  | .hosts hosts =>
    if (scopedUpdates hosts output).isEmpty then cache
    else
      let merged := cache.mergeOrInsert sourceId output.dataset ttl now fun entry _ =>
        patchHosts source hosts output now entry
      if occupied then merged
      else (merged.update sourceId (correctCreated hosts output now)).2
  | .group group =>
    let merged := cache.mergeOrInsert sourceId output.dataset ttl now fun entry new =>
      entry.updateGroup group new now
    if occupied then merged
    else (merged.update sourceId CacheEntry.markPartial).2
  | .full => match source.syncMode with
    | .replace =>
      if output.unreachable.isEmpty then
        cache.set sourceId (gatheredEntry ttl output.dataset output.ages now)
      else
        cache.mergeOrInsert sourceId output.dataset ttl now (replaceKeeping ttl output now)
    | .merge =>
      cache.mergeOrInsert sourceId output.dataset ttl now fun entry new =>
        (entry.mergeDataset new now).markGathered now

/-- What a sync leaves at the source's key. -/
def syncedEntry (source : Source) (scope : SyncScope) (output : ConnectorOutput) (now : Nat)
    (old : Option CacheEntry) : Option CacheEntry :=
  let ttl := source.ttlSeconds
  match scope, old with
  | .hosts hosts, some entry =>
    if (scopedUpdates hosts output).isEmpty then some entry
    else some (patchHosts source hosts output now (entry.setTtl ttl))
  | .hosts hosts, none =>
    if (scopedUpdates hosts output).isEmpty then none
    else some (correctCreated hosts output now (.new output.dataset ttl now))
  | .group group, some entry => some ((entry.setTtl ttl).updateGroup group output.dataset now)
  | .group _, none => some (CacheEntry.new output.dataset ttl now).markPartial
  | .full, old => match source.syncMode, old with
    | .replace, some entry =>
      if output.unreachable.isEmpty then some (gatheredEntry ttl output.dataset output.ages now)
      else some (replaceKeeping ttl output now (entry.setTtl ttl) output.dataset)
    | .replace, none =>
      if output.unreachable.isEmpty then some (gatheredEntry ttl output.dataset output.ages now)
      else some (.new output.dataset ttl now)
    | .merge, some entry =>
      some (((entry.setTtl ttl).mergeDataset output.dataset now).markGathered now)
    | .merge, none => some (.new output.dataset ttl now)

/-- A sync writes its own source's entry and no other. -/
theorem get_applyToCache (cache : MemoryCache) (sourceId : String) (source : Source)
    (scope : SyncScope) (output : ConnectorOutput) (now : Nat) (other : String) :
    (applyToCache cache sourceId source scope output now).get other =
      if sourceId = other then syncedEntry source scope output now (cache.get sourceId)
      else cache.get other := by
  by_cases hk : sourceId = other
  · subst hk
    rw [if_pos rfl]
    unfold applyToCache syncedEntry
    cases scope with
    | hosts hosts =>
      cases hold : cache.get sourceId <;>
        by_cases hu : (scopedUpdates hosts output).isEmpty <;>
        simp [hu, hold, MemoryCache.get_update, MemoryCache.get_mergeOrInsert]
    | group group =>
      cases hold : cache.get sourceId <;>
        simp [hold, MemoryCache.get_update, MemoryCache.get_mergeOrInsert]
    | full =>
      cases hm : source.syncMode <;> cases hold : cache.get sourceId <;>
        by_cases hu : output.unreachable.isEmpty <;>
        simp [hu, hold, MemoryCache.get_set, MemoryCache.get_mergeOrInsert]
  · rw [if_neg hk]
    unfold applyToCache
    cases scope with
    | hosts hosts =>
      dsimp only
      split_ifs <;> simp [hk, MemoryCache.get_update, MemoryCache.get_mergeOrInsert]
    | group group =>
      dsimp only
      split_ifs <;> simp [hk, MemoryCache.get_update, MemoryCache.get_mergeOrInsert]
    | full =>
      dsimp only
      cases source.syncMode with
      | replace =>
        dsimp only
        split_ifs <;> simp [hk, MemoryCache.get_set, MemoryCache.get_mergeOrInsert]
      | merge => simp [hk, MemoryCache.get_mergeOrInsert]

/-! ## The ways an entry gets there -/

section Ways
variable (source : Source) (output : ConnectorOutput) (now : Nat)

/-- Each way a sync leaves an entry at the source's key, with what it takes. -/
inductive Synced : SyncScope → Option CacheEntry → CacheEntry → Prop
  | kept {hosts : List String} {previous : CacheEntry}
      (hempty : (scopedUpdates hosts output).isEmpty = true) :
      Synced (.hosts hosts) (some previous) previous
  | patched {hosts : List String} {previous : CacheEntry}
      (hempty : (scopedUpdates hosts output).isEmpty = false) :
      Synced (.hosts hosts) (some previous)
        (patchHosts source hosts output now (previous.setTtl source.ttlSeconds))
  | created {hosts : List String} (hempty : (scopedUpdates hosts output).isEmpty = false) :
      Synced (.hosts hosts) none
        (correctCreated hosts output now (.new output.dataset source.ttlSeconds now))
  | groupUpdated {group : String} {previous : CacheEntry} :
      Synced (.group group) (some previous)
        ((previous.setTtl source.ttlSeconds).updateGroup group output.dataset now)
  | groupCreated {group : String} :
      Synced (.group group) none (CacheEntry.new output.dataset source.ttlSeconds now).markPartial
  | replaced {old : Option CacheEntry} (hmode : source.syncMode = .replace)
      (hempty : output.unreachable.isEmpty = true) :
      Synced .full old (gatheredEntry source.ttlSeconds output.dataset output.ages now)
  | keeping {previous : CacheEntry} (hmode : source.syncMode = .replace) :
      Synced .full (some previous) (replaceKeeping source.ttlSeconds output now
        (previous.setTtl source.ttlSeconds) output.dataset)
  | merged {previous : CacheEntry} (hmode : source.syncMode = .merge) :
      Synced .full (some previous)
        (((previous.setTtl source.ttlSeconds).mergeDataset output.dataset now).markGathered now)
  | inserted : Synced .full none (.new output.dataset source.ttlSeconds now)

end Ways

theorem syncedEntry_ways {source : Source} {scope : SyncScope} {output : ConnectorOutput}
    {now : Nat} {old : Option CacheEntry} {entry : CacheEntry}
    (h : syncedEntry source scope output now old = some entry) :
    Synced source output now scope old entry := by
  cases scope with
  | hosts hosts =>
    cases hempty : (scopedUpdates hosts output).isEmpty with
    | true =>
      cases old with
      | none => simp [syncedEntry, hempty] at h
      | some previous =>
        simp only [syncedEntry, hempty, if_true, Option.some.injEq] at h
        exact h ▸ .kept hempty
    | false =>
      cases old with
      | none =>
        simp only [syncedEntry, hempty, Bool.false_eq_true, if_false, Option.some.injEq] at h
        exact h ▸ .created hempty
      | some previous =>
        simp only [syncedEntry, hempty, Bool.false_eq_true, if_false, Option.some.injEq] at h
        exact h ▸ .patched hempty
  | group group =>
    cases old with
    | none => exact Option.some.inj h ▸ .groupCreated
    | some previous => exact Option.some.inj h ▸ .groupUpdated
  | full =>
    cases hmode : source.syncMode with
    | replace =>
      cases old with
      | none =>
        simp only [syncedEntry, hmode] at h
        split at h <;> obtain rfl := Option.some.inj h
        · exact .replaced hmode ‹_›
        · exact .inserted
      | some previous =>
        simp only [syncedEntry, hmode] at h
        split at h <;> obtain rfl := Option.some.inj h
        · exact .replaced hmode ‹_›
        · exact .keeping hmode
    | merge =>
      cases old with
      | none =>
        simp only [syncedEntry, hmode] at h
        exact Option.some.inj h ▸ .inserted
      | some previous =>
        simp only [syncedEntry, hmode] at h
        exact Option.some.inj h ▸ .merged hmode

end UnifiedApi
