import UnifiedApi.Application.HostSearch

/-! # The endpoints that a search lists

Worked out for many hosts at once, and the same as what a call of the endpoint
renders. -/

namespace UnifiedApi

theorem mem_listAt {found : Found} {listing : HostSource} {hosts : List String} {host : String} :
    host ∈ listAt found listing hosts ↔ host ∈ found ∨ host ∈ hosts := by
  unfold listAt
  induction hosts generalizing found with
  | nil => simp
  | cons first rest ih =>
    rw [List.foldl_cons, ih, List.mem_cons, ← or_assoc]
    refine or_congr_left ?_
    rw [StrMap.mem_iff, StrMap.mem_iff, StrMap.getElem?_alter]
    by_cases hfirst : first = host
    · simp [hfirst]
    · simp [hfirst, Ne.symm hfirst]

namespace Catalog
variable {ops : TextOps} {catalog : Catalog} {mayRead mayRun : String → Bool} {needle : List Char}

/-! ## Every host that is found matches -/

def AllMatch (ops : TextOps) (needle : List Char) (found : Found) : Prop :=
  ∀ host ∈ found, nameMatches ops needle host = true

theorem AllMatch.listAt {found : Found} (h : AllMatch ops needle found) (listing : HostSource)
    (hosts : List String) :
    AllMatch ops needle (listAt found listing (hosts.filter (nameMatches ops needle))) := by
  intro host hhost
  obtain hfound | hlisted := mem_listAt.mp hhost
  · exact h host hfound
  · exact (List.mem_filter.mp hlisted).2

theorem AllMatch.searchSource {found : Found} (h : AllMatch ops needle found) (id : String) :
    AllMatch ops needle (catalog.searchSource ops mayRead needle found id) := by
  unfold Catalog.searchSource
  split
  · exact h
  · split
    · exact h.listAt _ _
    · exact h

theorem AllMatch.searchView {found : Found} (h : AllMatch ops needle found) (id : String) :
    AllMatch ops needle (catalog.searchView ops needle found id) := by
  unfold Catalog.searchView
  split
  · exact h
  · exact h.listAt _ _

theorem found_allMatch : AllMatch ops needle (catalog.found ops mayRead needle) := by
  have hempty : AllMatch ops needle ∅ := by
    intro host hhost
    simp at hhost
  refine List.foldlRecOn _ _ ?_ fun found h id _ => h.searchView id
  exact List.foldlRecOn _ _ hempty fun found h id _ => h.searchSource id

/-! ## Who holds a matching host -/

theorem holds_iff {host : String} (hmatch : nameMatches ops needle host = true)
    (sourceId : String) :
    catalog.holds ops needle sourceId host = true ↔
      sourceId ∈ catalog.sources ∧
        ∃ entry, catalog.cache.get sourceId = some entry ∧ host ∈ entry.dataset.hostvars := by
  unfold holds held
  rw [Std.ExtTreeMap.getElem?_filterMap', StrMap.mem_iff_exists]
  cases catalog.sources[sourceId]? with
  | none => simp
  | some source =>
    cases catalog.cache.get sourceId with
    | none => simp
    | some entry => simp [matchingHosts, hmatch]

end Catalog

namespace OutputEndpoint
variable {ops : TextOps} {cache : MemoryCache} {endpoint : OutputEndpoint}

/-- What the endpoint's own sources hold, all of them cached. -/
def Holds (cache : MemoryCache) (endpoint : OutputEndpoint) (sourceId host : String) : Prop :=
  sourceId ∈ endpoint.sourceIds ∧
    ∃ entry, cache.get sourceId = some entry ∧ host ∈ entry.dataset.hostvars

theorem hostsOf_datasets {sourceId host : String} :
    hostsOf (endpoint.datasets cache) sourceId host = true ↔
      endpoint.Holds cache sourceId host := by
  unfold hostsOf Holds
  rw [getElem?_datasets]
  by_cases hsource : sourceId ∈ endpoint.sourceIds
  · cases cache.get sourceId <;> simp [hsource]
  · simp [hsource]

theorem mem_merge_datasets {host : String} :
    host ∈ (Output.merge (endpoint.datasets cache)).hostvars ↔
      ∃ sourceId, endpoint.Holds cache sourceId host := by
  rw [Output.mem_merge_hostvars]
  refine exists_congr fun sourceId => ?_
  rw [← hostsOf_datasets, hostsOf]
  cases (endpoint.datasets cache)[sourceId]? <;> simp

/-- Without settings a builtin renders what its sources hold, or what its limit holds. -/
theorem mem_unfiltered {sources : StrMap Source} (hvalid : endpoint.Valid sources) {host : String} :
    host ∈ (Output.mergeAndFilter ops (endpoint.limited cache) ∅ Output.noParams).hostvars ↔
      match endpoint.limit.bind (·.byHostsFromInventory) with
      | some limiting => endpoint.Holds cache limiting host
      | none => ∃ sourceId, endpoint.Holds cache sourceId host := by
  have hall := @Output.mem_mergeAndFilter_noParams ops (endpoint.datasets cache) host
  cases hlimit : endpoint.limit with
  | none =>
    rw [limited, hlimit, hall]
    exact mem_merge_datasets
  | some limit =>
    obtain ⟨limiting, _, hrule⟩ := hvalid.limiting limit hlimit
    obtain rfl : limit = ⟨some limiting⟩ := by
      cases limit
      exact congrArg EndpointLimit.mk hrule
    rw [StrMap.mem_iff, limited, hlimit]
    dsimp only
    rw [Output.mergeAndFilter_applyLimit]
    by_cases hholds : hostsOf (endpoint.datasets cache) limiting host = true
    · rw [if_pos hholds, ← StrMap.mem_iff, hall, mem_merge_datasets]
      have := hostsOf_datasets.mp hholds
      exact iff_of_true ⟨limiting, this⟩ this
    · rw [if_neg hholds]
      exact iff_of_false (fun h => h rfl) fun h => hholds (hostsOf_datasets.mpr h)

end OutputEndpoint

namespace Catalog
variable {ops : TextOps} {catalog : Catalog} {mayRead mayRun : String → Bool} {needle : List Char}

theorem holds_iff_of_valid {endpoint : OutputEndpoint} (hvalid : endpoint.Valid catalog.sources)
    {host sourceId : String} (hmatch : nameMatches ops needle host = true)
    (hsource : sourceId ∈ endpoint.sourceIds) :
    catalog.holds ops needle sourceId host = true ↔
      endpoint.Holds catalog.cache sourceId host := by
  rw [holds_iff hmatch]
  exact ⟨fun h => ⟨hsource, h.2⟩, fun h => ⟨hvalid.configured sourceId hsource, h.2⟩⟩

/-- Membership worked out from the sources is membership in what is merged and kept. -/
theorem reaches_iff {endpoint : OutputEndpoint} (hvalid : endpoint.Valid catalog.sources)
    (hbuiltin : endpoint.output.isSome) {host : String}
    (hmatch : nameMatches ops needle host = true) :
    catalog.reaches ops needle endpoint host = true ↔
      host ∈ (Output.mergeAndFilter ops (endpoint.limited catalog.cache) endpoint.config
        Output.noParams).hostvars := by
  have hscript : endpoint.output.isNone = false := by
    rw [← Option.not_isSome, hbuiltin]
    rfl
  unfold reaches filtered
  rw [hscript, Bool.false_or]
  cases hempty : endpoint.config.isEmpty with
  | false => simp
  | true =>
    rw [Std.ExtTreeMap.isEmpty_iff.mp hempty, OutputEndpoint.mem_unfiltered hvalid]
    cases hlimit : endpoint.limit with
    | none =>
      simp only [if_true, Option.bind_none, List.any_eq_true]
      constructor
      · rintro ⟨sourceId, hsource, hholds⟩
        exact ⟨sourceId, (holds_iff_of_valid hvalid hmatch hsource).mp hholds⟩
      · rintro ⟨sourceId, hholds⟩
        exact ⟨sourceId, hholds.1, (holds_iff_of_valid hvalid hmatch hholds.1).mpr hholds⟩
    | some limit =>
      obtain ⟨limiting, hsource, hrule⟩ := hvalid.limiting limit hlimit
      simp only [if_true, Option.bind_some, hrule]
      exact holds_iff_of_valid hvalid hmatch hsource

theorem mem_endpointIds {id : String} :
    id ∈ catalog.endpointIds mayRun ↔ mayRun id = true ∧
      ∃ endpoint, catalog.endpoints[id]? = some endpoint ∧
        endpoint.ready catalog.cache = true := by
  unfold endpointIds
  rw [List.mem_filter, List.mem_filter, Std.ExtTreeMap.mem_keys, StrMap.mem_iff_exists]
  cases catalog.endpoints[id]? <;> simp

/-- What a search reports of one host. -/
theorem mem_search {query : String} {limit : Nat} {reported : HostMatch}
    (h : reported ∈ (catalog.search ops mayRead mayRun query limit).hosts) :
    nameMatches ops (needleOf ops query) reported.host = true ∧
      reported.endpoints = (catalog.endpointIds mayRun).filter fun id =>
        catalog.endpoints[id]?.any fun endpoint =>
          catalog.reaches ops (needleOf ops query) endpoint reported.host := by
  unfold search at h
  dsimp only at h
  split at h
  · cases h
  · obtain ⟨⟨host, sources⟩, hlisted, rfl⟩ := List.mem_map.mp h
    have hfound := (List.mem_insertionSort _).mp (List.mem_of_mem_take hlisted)
    rw [Std.ExtTreeMap.mem_toList_iff_getElem?_eq_some] at hfound
    exact ⟨found_allMatch host (StrMap.mem_of_some hfound), rfl⟩

/-- A builtin endpoint is listed for a host exactly when a call that brings no
parameters renders the host. -/
theorem search_lists_iff_renders {id : String} {endpoint : OutputEndpoint}
    (hendpoint : catalog.endpoints[id]? = some endpoint) (hvalid : endpoint.Valid catalog.sources)
    (hbuiltin : endpoint.output.isSome) (hready : endpoint.ready catalog.cache = true)
    (hrun : mayRun id = true) (query : String) (limit : Nat) :
    ∀ reported ∈ (catalog.search ops mayRead mayRun query limit).hosts,
      id ∈ reported.endpoints ↔
        ∃ inventory, endpoint.call ops catalog.cache Output.noParams = some inventory ∧
          reported.host ∈ inventory.hostvars := by
  intro reported hreported
  obtain ⟨hmatch, hendpoints⟩ := mem_search hreported
  have hid : id ∈ catalog.endpointIds mayRun :=
    mem_endpointIds.mpr ⟨hrun, endpoint, hendpoint, hready⟩
  rw [OutputEndpoint.mem_call_noParams ops catalog.cache endpoint hready,
    ← reaches_iff hvalid hbuiltin hmatch, hendpoints, List.mem_filter, hendpoint]
  exact ⟨fun h => h.2, fun h => ⟨hid, h⟩⟩

/-! ## An endpoint limited to the hosts that are paid for -/

def lowerText : TextOps := ⟨List.map Char.toLower, fun _ => none, fun _ => []⟩

def webServers (hosts : List String) : Dataset where
  hostvars := hosts.foldl (fun hostvars host => hostvars.insert host ∅) ∅
  groups := (∅ : StrMap Group).insert "web" { hosts }

def builtEndpoint : OutputEndpoint where
  sourceIds := ["src-cmdb", "src-vmware"]
  output := some .ansible
  config := (∅ : StrMap String).insert "group" "web"
  limit := some ⟨some "src-cmdb"⟩

def builtCatalog : Catalog where
  sources := ((∅ : StrMap Source).insert "src-cmdb" { ttlSeconds := 60 }).insert
    "src-vmware" { ttlSeconds := 60 }
  endpoints := (∅ : StrMap OutputEndpoint).insert "ep-built" builtEndpoint
  cache := (({} : MemoryCache).set "src-cmdb" (.new (webServers ["web1", "db1"]) 60 0)).set
    "src-vmware" (.new (webServers ["Web1", "web1", "web2"]) 60 0)
  now := fun _ => 0

theorem builtEndpoint_valid : builtEndpoint.Valid builtCatalog.sources where
  configured := by decide +kernel
  limiting := by
    intro limit hlimit
    cases hlimit
    exact ⟨"src-cmdb", by decide, rfl⟩

def builtSearch : List HostMatch :=
  (builtCatalog.search lowerText (fun _ => true) (fun _ => true) "Web" 20).hosts

def builtRenders (host : String) : Prop :=
  ∃ inventory, builtEndpoint.call lowerText builtCatalog.cache Output.noParams = some inventory ∧
    host ∈ inventory.hostvars

/-- The paid host is rendered, and its namesake in another case is not. -/
theorem search_lists_iff_renders_built : builtRenders "web1" ∧ ¬ builtRenders "Web1" := by
  have hagrees : ∀ reported ∈ builtSearch,
      "ep-built" ∈ reported.endpoints ↔ builtRenders reported.host :=
    search_lists_iff_renders (by decide +kernel) builtEndpoint_valid rfl (by decide +kernel) rfl
      "Web" 20
  have hlisted : (⟨"web1", [⟨"src-cmdb", 0⟩, ⟨"src-vmware", 0⟩], ["ep-built"]⟩ : HostMatch) ∈
      builtSearch := by decide +kernel
  have hunlisted : (⟨"Web1", [⟨"src-vmware", 0⟩], []⟩ : HostMatch) ∈ builtSearch := by
    decide +kernel
  constructor
  · exact (hagrees _ hlisted).mp (List.mem_singleton.mpr rfl)
  · exact fun hrenders => List.not_mem_nil ((hagrees _ hunlisted).mpr hrenders)

example : builtSearch.map (fun reported => (reported.host, reported.endpoints)) =
    [("Web1", []), ("web1", ["ep-built"]), ("web2", [])] := by
  decide +kernel

end Catalog

end UnifiedApi
