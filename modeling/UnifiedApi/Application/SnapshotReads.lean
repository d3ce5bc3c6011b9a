import UnifiedApi.Application.Views

/-! # Taking a view snapshot, lookup by lookup

The snapshot of a view looks up, for one member after the other, the claim it
routes by, its data and what its ownership resolves against. Nothing holds the
cache between two lookups. -/

namespace UnifiedApi

/-- Which of a member's lookups is next, with what the earlier ones found. -/
inductive LookupStage where
  | scope
  | entry (owns : Option Ownership) (mode : OwnershipMode)
  | ownership (owns : Option Ownership) (mode : OwnershipMode) (entry : Option CacheEntry)
  deriving DecidableEq

/-- A snapshot in the making: the configuration it started with, the members
still to look up and those that are done. -/
structure SnapshotLookup where
  sources : StrMap Source
  rest : List ViewMember
  stage : LookupStage := .scope
  members : List MemberSnapshot := []
  deriving DecidableEq

namespace SnapshotLookup

/-- The id that the next lookup asks the cache for. -/
def asks (lookup : SnapshotLookup) : Option String :=
  lookup.rest.head?.bind fun member => match lookup.stage with
    | .scope => none
    | .entry .. => some member.source
    | .ownership .. => some member.owns.source

/-- The next lookup. -/
def next (cache : MemoryCache) (scopes : AdvertisedScopeRegistry) (lookup : SnapshotLookup) :
    SnapshotLookup :=
  match lookup.rest with
  | [] => lookup
  | member :: rest => match lookup.stage with
    | .scope =>
      let (owns, mode) := effectiveOwnership member lookup.sources[member.source]? scopes
      { lookup with stage := .entry owns mode }
    | .entry owns mode =>
      { lookup with stage := .ownership owns mode (cache.get member.source) }
    | .ownership owns mode entry =>
      { lookup with
        rest
        stage := .scope
        members := lookup.members ++
          [{ sourceId := member.source
             source := lookup.sources[member.source]?
             entry
             ownership := cache.get member.owns.source
             owns
             ownershipMode := mode }] }

end SnapshotLookup

end UnifiedApi
