import UnifiedApi.Application.SearchReach

/-! # A search tells nothing of what its caller cannot read

Two catalogs that agree on the readable sources and views give the same hosts in
the same places. Data of other sources shows only in the endpoints listed, and
those are endpoints the caller may run. -/

namespace UnifiedApi

/-! ## What a view shows of its members -/

namespace MemberSnapshot

/-- What is read of a member: its data, and what it owns. -/
def seen (member : MemberSnapshot) : Option CacheEntry × Option CacheEntry × Option Ownership :=
  (member.entry, member.ownership, member.owns)

/-- A member of which nothing else is known. -/
def bare (member : MemberSnapshot) : MemberSnapshot :=
  { sourceId := "", source := none, entry := member.seen.1, ownership := member.seen.2.1
    owns := member.seen.2.2, ownershipMode := .declared }

theorem map_bare_of_seen {members members' : List MemberSnapshot}
    (h : members.map seen = members'.map seen) : members.map bare = members'.map bare := by
  have hbare : bare = (fun shown => { sourceId := "", source := none, entry := shown.1
                                      ownership := shown.2.1, owns := shown.2.2
                                      ownershipMode := .declared }) ∘ seen := rfl
  rw [hbare, ← List.map_map, ← List.map_map, h]

end MemberSnapshot

namespace ViewSnapshot

/-- The snapshot with nothing else known of the members. -/
def bare (snap : ViewSnapshot) : ViewSnapshot :=
  { snap with members := snap.members.map MemberSnapshot.bare }

theorem routing_bare (snap : ViewSnapshot) : snap.bare.routing = snap.routing := by
  unfold routing bare
  rw [List.zipIdx_map, List.foldl_map]
  rfl

theorem ownerIndex_bare (snap : ViewSnapshot) (hostname : String) :
    { snap with built := true }.bare.ownerIndex hostname =
      { snap with built := true }.ownerIndex hostname := by
  unfold ownerIndex
  rw [routing_bare]
  rfl

theorem serves_bare (snap : ViewSnapshot) (hostname : String) :
    { snap with built := true }.bare.serves hostname =
      { snap with built := true }.serves hostname := by
  unfold serves ownerOf
  rw [ownerIndex_bare]
  cases { snap with built := true }.ownerIndex hostname with
  | none => rfl
  | some index =>
    simp only [bare, Option.bind_some, List.getElem?_map]
    cases snap.members[index]? <;> rfl

theorem hosts_bare (snap : ViewSnapshot) : snap.bare.hosts = snap.hosts := by
  unfold hosts
  rw [routing_bare]
  exact List.filter_congr fun hostname _ => snap.serves_bare hostname

theorem ageSeconds_bare (snap : ViewSnapshot) (now : Nat) :
    snap.bare.ageSeconds now = snap.ageSeconds now := by
  unfold ageSeconds bare
  rw [List.filterMap_map]
  rfl

/-- The hosts and the age are read off what is seen of the members. -/
theorem read_of_seen {members members' : List MemberSnapshot}
    (h : members.map MemberSnapshot.seen = members'.map MemberSnapshot.seen) :
    hosts ⟨members, false⟩ = hosts ⟨members', false⟩ ∧
      ∀ now, ageSeconds ⟨members, false⟩ now = ageSeconds ⟨members', false⟩ now := by
  have hbare : bare ⟨members, false⟩ = bare ⟨members', false⟩ :=
    congrArg (ViewSnapshot.mk · false) (MemberSnapshot.map_bare_of_seen h)
  constructor
  · rw [← hosts_bare, hbare, hosts_bare]
  · intro now
    rw [← ageSeconds_bare, hbare, ageSeconds_bare]

end ViewSnapshot

namespace Catalog

def memberSeen (catalog : Catalog) (member : ViewMember) :
    Option CacheEntry × Option CacheEntry × Option Ownership :=
  (memberSnapshot catalog.cache catalog.sources catalog.scopes member).seen

/-- One for a caller: the readable sources with their data, the readable views
with their members' data and ownership. -/
structure AgreeFor (mayRead : String → Bool) (catalog other : Catalog) : Prop where
  configured : ∀ id, mayRead id = true → (id ∈ catalog.sources ↔ id ∈ other.sources)
  data : ∀ id, mayRead id = true → id ∈ catalog.sources →
    catalog.cache.get id = other.cache.get id
  views : ∀ id, mayRead id = true → catalog.views[id]? = other.views[id]?
  members : ∀ id, mayRead id = true → ∀ view, catalog.views[id]? = some view →
    ∀ member ∈ view.members, catalog.memberSeen member = other.memberSeen member
  clock : ∀ id, mayRead id = true → catalog.now id = other.now id

variable {ops : TextOps} {catalog other : Catalog} {mayRead mayRun : String → Bool}
  {needle : List Char}

theorem AgreeFor.searchSource (h : AgreeFor mayRead catalog other) (found : Found) {id : String}
    (hread : mayRead id = true) (hsource : id ∈ catalog.sources) :
    catalog.searchSource ops mayRead needle found id =
      other.searchSource ops mayRead needle found id := by
  unfold Catalog.searchSource
  rw [h.data id hread hsource, h.clock id hread]

theorem AgreeFor.searchView (h : AgreeFor mayRead catalog other) (found : Found) {id : String}
    (hread : mayRead id = true) :
    catalog.searchView ops needle found id = other.searchView ops needle found id := by
  unfold Catalog.searchView
  rw [← h.views id hread, h.clock id hread]
  cases hview : catalog.views[id]? with
  | none => rfl
  | some view =>
    have hseen : (catalog.viewSnapshot view).members.map MemberSnapshot.seen =
        (other.viewSnapshot view).members.map MemberSnapshot.seen := by
      unfold viewSnapshot snapshot
      rw [List.map_map, List.map_map]
      exact List.map_congr_left (h.members id hread view hview)
    have hhosts : (catalog.viewSnapshot view).hosts = (other.viewSnapshot view).hosts :=
      (ViewSnapshot.read_of_seen hseen).1
    have hage : (catalog.viewSnapshot view).ageSeconds (other.now id) =
        (other.viewSnapshot view).ageSeconds (other.now id) :=
      (ViewSnapshot.read_of_seen hseen).2 (other.now id)
    dsimp only
    rw [hhosts, hage]

/-- A source that may not be read is passed over. -/
theorem foldl_searchSource (catalog : Catalog) (found : Found) :
    catalog.sources.keys.foldl (catalog.searchSource ops mayRead needle) found =
      (catalog.sources.keys.filter mayRead).foldl (catalog.searchSource ops mayRead needle)
        found := by
  rw [List.foldl_filter]
  refine List.foldl_ext _ _ _ fun found id _ => ?_
  cases hread : mayRead id with
  | true => rfl
  | false =>
    unfold searchSource
    rw [hread]
    cases catalog.cache.get id <;> rfl

/-- What is found is the same for both. -/
theorem AgreeFor.found (h : AgreeFor mayRead catalog other) :
    catalog.found ops mayRead needle = other.found ops mayRead needle := by
  have hsources : catalog.sources.keys.filter mayRead = other.sources.keys.filter mayRead :=
    StrMap.filter_keys_congr h.configured
  have hviews : catalog.views.keys.filter mayRead = other.views.keys.filter mayRead := by
    refine StrMap.filter_keys_congr fun id hread => ?_
    rw [StrMap.mem_iff, StrMap.mem_iff, h.views id hread]
  unfold Catalog.found
  rw [foldl_searchSource, foldl_searchSource, ← hsources, ← hviews]
  have hread : ∀ id ∈ catalog.sources.keys.filter mayRead,
      mayRead id = true ∧ id ∈ catalog.sources := by
    intro id hid
    obtain ⟨hmem, hread⟩ := List.mem_filter.mp hid
    exact ⟨hread, Std.ExtTreeMap.mem_keys.mp hmem⟩
  rw [List.foldl_ext _ _ _ fun found id hid =>
    h.searchSource found (hread id hid).1 (hread id hid).2]
  exact List.foldl_ext _ _ _ fun found id hid => h.searchView found (List.mem_filter.mp hid).2

/-- The hosts, their places and the total are the same for both, and every endpoint
that is listed is one the caller may run. -/
theorem search_isolated (h : AgreeFor mayRead catalog other) (query : String) (limit : Nat) :
    let result := catalog.search ops mayRead mayRun query limit
    let result' := other.search ops mayRead mayRun query limit
    result.total = result'.total ∧
      result.hosts.map (fun reported => (reported.host, reported.sources)) =
        result'.hosts.map (fun reported => (reported.host, reported.sources)) ∧
      ∀ reported ∈ result.hosts, ∀ id ∈ reported.endpoints,
        mayRun id = true ∧ id ∈ catalog.endpoints := by
  refine ⟨?_, ?_, fun reported hreported id hid => ?_⟩
  · unfold search
    dsimp only
    rw [h.found]
    split <;> rfl
  · unfold search
    dsimp only
    rw [h.found]
    split
    · rfl
    · rw [List.map_map, List.map_map]
      rfl
  · rw [(mem_search hreported).2, List.mem_filter, mem_endpointIds] at hid
    obtain ⟨⟨hrun, endpoint, hendpoint, _⟩, _⟩ := hid
    exact ⟨hrun, StrMap.mem_of_some hendpoint⟩

/-! ## A caller that reads one source and a view of it -/

def fleetView : View where
  members := [{ source := "src-cmdb", owns := { source := "src-cmdb", groups := ["web"] } }]

/-- The other source has these hosts; an endpoint renders them. -/
def fleetCatalog (vmware : List String) : Catalog where
  sources := builtCatalog.sources
  views := (∅ : StrMap View).insert "fleet" fleetView
  endpoints := (∅ : StrMap OutputEndpoint).insert "ep-vmware"
    { sourceIds := ["src-vmware"], output := some .json }
  cache := (({} : MemoryCache).set "src-cmdb" (.new (webServers ["web1", "db1"]) 60 0)).set
    "src-vmware" (.new (webServers vmware) 60 0)
  now := fun _ => 0

def fleetReader (id : String) : Bool := ["src-cmdb", "fleet"].contains id

theorem fleetCatalog_agree : AgreeFor fleetReader (fleetCatalog ["web1", "web2"])
    (fleetCatalog ["db1"]) where
  configured _ _ := Iff.rfl
  data id hread _ := by
    obtain rfl | rfl : id = "src-cmdb" ∨ id = "fleet" := by simpa [fleetReader] using hread
    · decide +kernel
    · decide +kernel
  views _ _ := rfl
  members id _ view hview member hmember := by
    have hfleet : view = fleetView := by
      rw [show (fleetCatalog ["web1", "web2"]).views = (∅ : StrMap View).insert "fleet" fleetView
        from rfl, StrMap.getElem?_insert] at hview
      split at hview
      · exact (Option.some.inj hview).symm
      · simp at hview
    subst hfleet
    obtain rfl := List.mem_singleton.mp hmember
    decide +kernel
  clock _ _ := rfl

def fleetSearch (vmware : List String) : SearchResult :=
  (fleetCatalog vmware).search lowerText fleetReader (fun _ => true) "web" 20

theorem search_isolated_fleet :
    let result := fleetSearch ["web1", "web2"]
    let result' := fleetSearch ["db1"]
    result.total = result'.total ∧
      result.hosts.map (fun reported => (reported.host, reported.sources)) =
        result'.hosts.map (fun reported => (reported.host, reported.sources)) :=
  have hisolated := search_isolated fleetCatalog_agree "web" 20
  ⟨hisolated.1, hisolated.2.1⟩

example : (fleetSearch ["web1", "web2"]).hosts =
      [⟨"web1", [⟨"src-cmdb", 0⟩, ⟨"fleet", 0⟩], ["ep-vmware"]⟩] ∧
    (fleetSearch ["db1"]).hosts = [⟨"web1", [⟨"src-cmdb", 0⟩, ⟨"fleet", 0⟩], []⟩] := by
  decide +kernel

end Catalog

end UnifiedApi
