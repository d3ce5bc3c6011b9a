import UnifiedApi.Application.EndpointCall
import UnifiedApi.Application.ViewSnapshot

/-! # Where a host is

Across every source at once: who holds it, how old each one's data is, and which
endpoints it reaches, from the cache alone. -/

namespace UnifiedApi

/-- A shorter query matches too much to be useful. -/
def minQuery : Nat := 2

structure HostSource where
  sourceId : String
  ageSeconds : Nat
  deriving DecidableEq

structure HostMatch where
  host : String
  sources : List HostSource
  endpoints : List String
  deriving DecidableEq

structure SearchResult where
  hosts : List HostMatch := []
  /-- How many matched in all, before the limit. -/
  total : Nat := 0
  deriving DecidableEq

/-- What a search reads; the clock is read once for each id. -/
structure Catalog where
  sources : StrMap Source := ∅
  views : StrMap View := ∅
  endpoints : StrMap OutputEndpoint := ∅
  cache : MemoryCache := {}
  scopes : AdvertisedScopeRegistry := ∅
  now : String → Nat

/-- A lower-cased name's place: the whole name, its start, or anywhere. -/
def rank (name needle : List Char) : Nat :=
  if name = needle then 0 else if needle.isPrefixOf name then 1 else 2

section
variable (ops : TextOps)

def needleOf (query : String) : List Char := ops.toLowercase (Text.trim query.toList)

def nameMatches (needle : List Char) (host : String) : Bool :=
  HostFilter.containsText (ops.toLowercase host.toList) needle

/-- Best match first; of names that are equal but for case, the one as typed. -/
def listedBefore (query : String) (host other : String) : Bool :=
  let needle := needleOf ops query
  let typed := Text.trim query.toList
  let lower := ops.toLowercase host.toList
  let lower' := ops.toLowercase other.toList
  ((compare (rank lower needle) (rank lower' needle)).then
    ((compare (host.toList != typed) (other.toList != typed)).then
      ((compare (String.ofList lower) (String.ofList lower')).then (compare host other)))).isLE

end

abbrev Found := StrMap (List HostSource)

/-- One more place that lists the hosts. -/
def listAt (found : Found) (listing : HostSource) (hosts : List String) : Found :=
  hosts.foldl (fun found host => found.alter host fun old => some (old.getD [] ++ [listing])) found

namespace Catalog
variable (ops : TextOps) (catalog : Catalog) (mayRead mayRun : String → Bool) (needle : List Char)

/-- The matching hosts of a cached source. -/
def matchingHosts (entry : CacheEntry) : List String :=
  entry.dataset.hostvars.keys.filter (nameMatches ops needle)

def searchSource (found : Found) (id : String) : Found :=
  match catalog.cache.get id with
  | none => found
  | some entry =>
    if mayRead id then
      listAt found ⟨id, entry.ageSeconds (catalog.now id)⟩ (matchingHosts ops needle entry)
    else found

/-- The matching hosts of every source, readable or not. -/
def held : StrMap (List String) :=
  catalog.sources.filterMap fun id _ => (catalog.cache.get id).map (matchingHosts ops needle)

def viewSnapshot (view : View) : ViewSnapshot :=
  ⟨snapshot catalog.cache catalog.sources catalog.scopes view, false⟩

/-- A view is searched by the hosts that it serves. -/
def searchView (found : Found) (id : String) : Found :=
  match catalog.views[id]? with
  | none => found
  | some view =>
    let snap := catalog.viewSnapshot view
    listAt found ⟨id, snap.ageSeconds (catalog.now id)⟩
      (snap.hosts.filter (nameMatches ops needle))

/-- Everywhere the caller may read, in the order of the ids. -/
def found : Found :=
  let found := catalog.sources.keys.foldl (catalog.searchSource ops mayRead needle) ∅
  (catalog.views.keys.filter mayRead).foldl (catalog.searchView ops needle) found

def holds (sourceId host : String) : Bool :=
  (catalog.held ops needle)[sourceId]?.any (·.contains host)

/-- The endpoints that the caller may run and that miss no data. -/
def endpointIds : List String :=
  (catalog.endpoints.keys.filter mayRun).filter fun id =>
    catalog.endpoints[id]?.any (·.ready catalog.cache)

/-- What a builtin with settings of its own keeps, worked out the way a call does. -/
def filtered (endpoint : OutputEndpoint) : Option (List String) :=
  if endpoint.output.isNone || endpoint.config.isEmpty then none
  else some (Output.mergeAndFilter ops (endpoint.limited catalog.cache) endpoint.config
    Output.noParams).hostvars.keys

/-- In an endpoint's output when one of its sources holds the host; under a limit,
when the limiting source does; under its own settings, when they keep it. -/
def reaches (endpoint : OutputEndpoint) (host : String) : Bool :=
  match catalog.filtered ops endpoint with
  | some kept => kept.contains host
  | none =>
    match endpoint.limit.bind (·.byHostsFromInventory) with
    | some limiting => catalog.holds ops needle limiting host
    | none => endpoint.sourceIds.any fun sourceId => catalog.holds ops needle sourceId host

def search (query : String) (limit : Nat) : SearchResult :=
  let needle := needleOf ops query
  if needle.length < minQuery then {}
  else
    let found := catalog.found ops mayRead needle
    let hosts := (found.toList.insertionSort fun a b => listedBefore ops query a.1 b.1).take limit
    { total := found.size
      hosts := hosts.map fun (host, sources) =>
        { host, sources
          endpoints := (catalog.endpointIds mayRun).filter fun id =>
            catalog.endpoints[id]?.any fun endpoint => catalog.reaches ops needle endpoint host } }

end Catalog

end UnifiedApi
