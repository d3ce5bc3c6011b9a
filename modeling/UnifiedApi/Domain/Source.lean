import UnifiedApi.Domain.Dataset

/-! # Sources: what is gathered, how it lands, how long it stays fresh

Only the settings some modelled function reads are kept. -/

namespace UnifiedApi

inductive ConnectorType where
  | script | ssh | staticInventory | remote
  deriving DecidableEq

/-- How a full sync's data is applied to the cache. -/
inductive SyncMode where
  | replace | merge
  deriving DecidableEq

structure TtlOverrides where
  groups : StrMap Nat := ∅
  hosts : StrMap Nat := ∅
  deriving DecidableEq

/-- An explicit ownership claim written in the configuration. -/
structure AdvertisedScope where
  groups : List String := []
  hosts : List String := []
  deriving DecidableEq

/-- What a source or view answers when asked what it owns. -/
structure ScopeClaim where
  groups : List String
  hosts : List String
  catchAll : Bool
  deriving DecidableEq

structure MatchPattern where
  groups : List String := []
  hosts : List String := []
  deriving DecidableEq

def MatchPattern.isEmpty (pattern : MatchPattern) : Bool :=
  pattern.groups.isEmpty && pattern.hosts.isEmpty

/-- Which address is dialled for a host; the second of two is a fallback. -/
inductive ConnectVia where
  | hostname | ansibleHost | ansibleHostThenHostname | hostnameThenAnsibleHost
  deriving DecidableEq

structure HostsFromSource where
  source : String
  matchPattern : MatchPattern := {}
  connectVia : ConnectVia := .hostname
  deriving DecidableEq

structure Source where
  connectorType : ConnectorType := .script
  /-- The credentials passed to its connector. -/
  credentialIds : List String := []
  scriptPath : String := ""
  hostSyncUpdatesGroupVars : Bool := false
  syncMode : SyncMode := .replace
  ttlSeconds : Nat
  ttlOverrides : TtlOverrides := {}
  hostsFromSource : Option HostsFromSource := none
  advertiseScope : Option AdvertisedScope := none
  config : StrMap String := ∅
  deriving DecidableEq

namespace Source

/-- The explicit block first, else the pattern the source gathers by, else
no claim at all. -/
def advertisedScope (source : Source) : Option ScopeClaim :=
  match source.advertiseScope with
  | some explicit => some ⟨explicit.groups, explicit.hosts, false⟩
  | none => source.hostsFromSource.map fun hfs =>
    ⟨hfs.matchPattern.groups, hfs.matchPattern.hosts, hfs.matchPattern.isEmpty⟩

/-- One group's override, for each of its hosts. -/
def addGroupTtl (dataset : Dataset) (byHost : StrMap Nat) (override : String × Nat) :
    StrMap Nat :=
  match dataset.groups[override.1]? with
  | some group => group.hosts.foldl (fun byHost hostname =>
      byHost.alter hostname fun
        | some current => some (min current override.2)
        | none => some override.2) byHost
  | none => byHost

/-- The group overrides resolved per host; in several such groups the
shortest wins. -/
def groupTtlByHost (source : Source) (dataset : Dataset) : StrMap Nat :=
  source.ttlOverrides.groups.foldl (fun byHost groupName ttl =>
    addGroupTtl dataset byHost (groupName, ttl)) ∅

/-- The same, with the overrides in the order in which some map lists them. -/
def groupTtlsInOrder (dataset : Dataset) (overrides : List (String × Nat)) : StrMap Nat :=
  overrides.foldl (addGroupTtl dataset) ∅

/-- What one override leaves at a host. -/
theorem getElem?_addGroupTtl (dataset : Dataset) (byHost : StrMap Nat)
    (override : String × Nat) (hostname : String) :
    (addGroupTtl dataset byHost override)[hostname]? =
      if hostname ∈ (dataset.groups[override.1]?.elim [] (·.hosts)) then
        some ((byHost[hostname]?.map (min · override.2)).getD override.2)
      else byHost[hostname]? := by
  unfold addGroupTtl
  cases dataset.groups[override.1]? with
  | none => simp
  | some group =>
    have hstep : StrMap.KeyOnly (fun (byHost : StrMap Nat) hostname =>
        byHost.alter hostname fun
          | some current => some (min current override.2)
          | none => some override.2) fun _ old =>
        some ((old.map (min · override.2)).getD override.2) := by
      intro m k a
      rw [StrMap.getElem?_alter]
      cases m[a]? <;> rfl
    exact StrMap.getElem?_foldl_keys hstep (fun k old => by cases old <;> simp)
      group.hosts byHost hostname

/-- The shortest wins, whatever the order of the map. -/
theorem groupTtlsInOrder_eq {source : Source} {dataset : Dataset} {overrides : List (String × Nat)}
    (h : overrides.Perm source.ttlOverrides.groups.toList) :
    groupTtlsInOrder dataset overrides = source.groupTtlByHost dataset := by
  have hmap : source.groupTtlByHost dataset =
      groupTtlsInOrder dataset source.ttlOverrides.groups.toList :=
    Std.ExtTreeMap.foldl_eq_foldl_toList
  rw [hmap]
  refine h.foldl_eq' (fun first _ second _ byHost => ?_) ∅
  apply Std.ExtTreeMap.ext_getElem?
  intro hostname
  simp only [getElem?_addGroupTtl]
  split <;> split <;> cases byHost[hostname]? <;> simp [Nat.min_comm, Nat.min_left_comm]

/-- A host's own override, then a group's, then the fallback. -/
def effectiveTtl (source : Source) (hostname : String) (groupTtls : StrMap Nat)
    (fallback : Nat) : Nat :=
  (source.ttlOverrides.hosts[hostname]?.or groupTtls[hostname]?).getD fallback

end Source

/-- Last-known advertised scopes of remote sources, by local source id. -/
abbrev AdvertisedScopeRegistry := StrMap ScopeClaim

namespace AdvertisedScopeRegistry

def record (registry : AdvertisedScopeRegistry) (sourceId : String) (claim : ScopeClaim) :
    AdvertisedScopeRegistry :=
  registry.insert sourceId claim

def get (registry : AdvertisedScopeRegistry) (sourceId : String) : Option ScopeClaim :=
  registry[sourceId]?

theorem get_record (registry : AdvertisedScopeRegistry) (sourceId other : String)
    (claim : ScopeClaim) : (registry.record sourceId claim).get other =
      if sourceId = other then some claim else registry.get other :=
  StrMap.getElem?_insert registry sourceId other claim

end AdvertisedScopeRegistry

end UnifiedApi
