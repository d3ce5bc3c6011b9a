import UnifiedApi.Adapters.Http.Error
import UnifiedApi.Application.CsvOutput
import UnifiedApi.Application.EndpointCall

/-! # How big an endpoint's output is

The counts of an endpoint are worked out without rendering anything. They are
held here against the body of a call, read back in its format. -/

namespace UnifiedApi
open Output

def Permissions.allowsEndpoint (permissions : Permissions) (id : String) : Bool :=
  match permissions with
  | .admin => true
  | .scoped _ endpoints => decide (id ∈ endpoints)

/-! ## What is rendered -/

/-- The body of a builtin: a value that is printed as JSON, or a text. -/
inductive Body where
  | json (value : Json)
  | text (text : String)

namespace Output

/-- A group with all its fields, the empty ones too. -/
def groupJson (group : Group) : Json :=
  .object [("children", .array (group.children.map .string)),
    ("hosts", .array (group.hosts.map .string)),
    ("vars", match group.vars with
      | some vars => .object vars.toList
      | none => .null)]

/-- The value that `render_json` prints: an inventory in the shape of a source. -/
def sourceJson (inventory : Inventory) : Json :=
  .object [("groups", .object (inventory.groups.toList.map fun group =>
      (group.1, groupJson group.2))),
    ("hostvars", hostvarsJson inventory.hostvars)]

def render (ops : TextOps) (format : OutputFormat) (datasets : StrMap Dataset)
    (config : StrMap String) (params : Json) : Body :=
  match format with
  | .ansible => .json (ansibleJson (mergeAndFilter ops datasets config params))
  | .json => .json (sourceJson (mergeAndFilter ops datasets config params))
  | .csv => .text (renderCsv ops datasets config params)

/-- Hosts and groups of a call with no parameters of its own. -/
def counts (ops : TextOps) (datasets : StrMap Dataset) (config : StrMap String) : Nat × Nat :=
  let inventory := mergeAndFilter ops datasets config noParams
  (inventory.hostvars.size, inventory.groups.size)

end Output

/-! ## The two routes -/

/-- What a call comes to when it is not refused. -/
inductive CallAnswer where
  | unavailable (missingSources : List String)
  /-- The endpoint's script is run, and answers for itself. -/
  | script
  | rendered (format : OutputFormat) (body : Body)

structure EndpointCounts where
  hosts : Option Nat
  groups : Option Nat
  missingSources : List String
  deriving DecidableEq

/-- The sources with no data yet, sorted. -/
def OutputEndpoint.missing (cache : MemoryCache) (endpoint : OutputEndpoint) : List String :=
  (endpoint.sourceIds.filter fun sourceId => (cache.get sourceId).isNone).mergeSort

section Routes
variable (ops : TextOps) (endpoints : StrMap OutputEndpoint) (permissions : Permissions)
  (cache : MemoryCache) (id : String)

/-- The endpoint that a caller may run, and whose settings a builtin takes. -/
def admitted (params : Json) : Except ApiError OutputEndpoint :=
  if !permissions.allowsEndpoint id then
    .error (.forbidden ("this API key is not allowed to run endpoint '" ++ id ++ "'"))
  else match endpoints[id]? with
    | none => .error (.notFound ("endpoint '" ++ id ++ "' is not configured"))
    | some endpoint =>
      if endpoint.output.isSome then
        match checkParams ops endpoint.config params with
        | .error e => .error (.badRequest e)
        | .ok _ => .ok endpoint
      else .ok endpoint

/-- GET and POST /endpoints/{id}. -/
def executeEndpoint (params : Json) : Except ApiError CallAnswer := do
  let endpoint ← admitted ops endpoints permissions id params
  if !(endpoint.missing cache).isEmpty then return .unavailable (endpoint.missing cache)
  match endpoint.output with
  | none => return .script
  | some format =>
    return .rendered format (render ops format (endpoint.limited cache) endpoint.config params)

/-- GET /endpoints/{id}/counts. Settings are checked after the sources are
collected, which refuses nothing. -/
def endpointCounts : Except ApiError EndpointCounts := do
  let endpoint ← admitted ops endpoints permissions id noParams
  match endpoint.output with
  | none => return ⟨none, none, endpoint.missing cache⟩
  | some format =>
    if !(endpoint.missing cache).isEmpty then return ⟨none, none, endpoint.missing cache⟩
    let (hosts, groups) := counts ops (endpoint.limited cache) endpoint.config
    return ⟨some hosts, if format = .csv then none else some groups, endpoint.missing cache⟩

end Routes

/-! ## Reading a body back -/

namespace Body

def field (name : String) : Json → Option Json
  | .object fields => fields.lookup name
  | _ => none

def fieldCount : Json → Option Nat
  | .object fields => some fields.length
  | _ => none

/-- The top-level keys of an Ansible inventory are its groups, `_meta` apart. -/
def groupCount : Json → Option Nat
  | .object fields => some (fields.filter fun entry => entry.1 != "_meta").length
  | _ => none

/-- The hosts and the groups in a body. A table has a header, and no groups. -/
def size : OutputFormat → Body → Option Nat × Option Nat
  | .ansible, .json value =>
    (((field "_meta" value).bind (field "hostvars")).bind fieldCount, groupCount value)
  | .json, .json value =>
    ((field "hostvars" value).bind fieldCount, (field "groups" value).bind fieldCount)
  | .csv, .text table => ((Csv.read table.toList).map fun rows => rows.length - 1, none)
  | _, _ => (none, none)

end Body

section Reading
variable (inventory : Inventory)

theorem fieldCount_hostvarsJson (hostvars : StrMap HostVars) :
    Body.fieldCount (hostvarsJson hostvars) = some hostvars.size := by
  simp only [hostvarsJson, Body.fieldCount]
  rw [List.length_map, Std.ExtTreeMap.length_toList]

theorem ansibleFields_getElem? (name : String) : (ansibleFields inventory)[name]? =
    match inventory.groups[name]? with
    | some group => some (.object (groupFields group))
    | none => if name = "_meta" then some (.object [("hostvars", hostvarsJson inventory.hostvars)])
      else none := by
  unfold ansibleFields
  have hstep : StrMap.KeyStep (fun (fields : StrMap Json) name group =>
      fields.insert name (.object (groupFields group)))
      fun _ group _ => some (.object (groupFields group)) := by
    intro m k v a
    exact StrMap.getElem?_insert m k a _
  rw [StrMap.getElem?_foldl hstep, StrMap.getElem?_insert]
  cases inventory.groups[name]? <;> simp [eq_comm]

theorem groupCount_ansibleJson : Body.groupCount (ansibleJson inventory) =
    some (inventory.groups.filter fun name _ => name != "_meta").size := by
  have hkeys : ∀ name, name ∈ (ansibleFields inventory).filter (fun name _ => name != "_meta") ↔
      name ∈ inventory.groups.filter fun name _ => name != "_meta" := by
    intro name
    rw [StrMap.mem_iff, StrMap.mem_iff, StrMap.getElem?_filter_keys, StrMap.getElem?_filter_keys,
      ansibleFields_getElem?]
    by_cases hname : name = "_meta"
    · simp [hname]
    · cases inventory.groups[name]? <;> simp [hname]
  have hsize : ((ansibleFields inventory).filter fun name _ => name != "_meta").size =
      (inventory.groups.filter fun name _ => name != "_meta").size :=
    Nat.le_antisymm (StrMap.size_le_of_subset fun name hname => (hkeys name).mp hname)
      (StrMap.size_le_of_subset fun name hname => (hkeys name).mpr hname)
  unfold ansibleJson Body.groupCount
  rw [← hsize, ← Std.ExtTreeMap.length_toList, Std.ExtTreeMap.toList_filter]

theorem lookup_groupFields_hostvars (group : Group) :
    (groupFields group).lookup "hostvars" = none := by
  refine StrMap.lookup_eq_none_iff.mpr fun hmem => ?_
  have hkey := isGroupKey_of_mem group hmem
  revert hkey
  decide

/-- Where no group is called `_meta`, and only there, the body has all of it. -/
theorem size_ansibleJson :
    Body.size .ansible (.json (ansibleJson inventory)) =
        (some inventory.hostvars.size, some inventory.groups.size) ↔
      "_meta" ∉ inventory.groups := by
  have hmeta : Body.field "_meta" (ansibleJson inventory) = (ansibleFields inventory)["_meta"]? :=
    StrMap.lookup_toList _ _
  simp only [Body.size, groupCount_ansibleJson, hmeta, ansibleFields_getElem?]
  cases hgroup : inventory.groups["_meta"]? with
  | some group =>
    have hmem : "_meta" ∈ inventory.groups := StrMap.mem_of_some hgroup
    simp [Body.field, lookup_groupFields_hostvars, hmem]
  | none =>
    have hnone : "_meta" ∉ inventory.groups := StrMap.not_mem_of_none hgroup
    have hgroups : (inventory.groups.filter fun name _ => name != "_meta").size =
        inventory.groups.size := by
      refine Std.ExtTreeMap.size_filter_eq_size_iff.mpr fun name hname => ?_
      rw [Std.ExtTreeMap.getKey_eq, bne_iff_ne]
      rintro rfl
      exact hnone hname
    have hhosts : Body.field "hostvars" (.object [("hostvars", hostvarsJson inventory.hostvars)]) =
        some (hostvarsJson inventory.hostvars) := rfl
    simp [hhosts, fieldCount_hostvarsJson, hgroups, hnone]

theorem size_sourceJson : Body.size .json (.json (sourceJson inventory)) =
    (some inventory.hostvars.size, some inventory.groups.size) := by
  have hgroups : Body.field "groups" (sourceJson inventory) = some (.object
      (inventory.groups.toList.map fun group => (group.1, groupJson group.2))) := rfl
  have hhosts : Body.field "hostvars" (sourceJson inventory) =
      some (hostvarsJson inventory.hostvars) := rfl
  simp only [Body.size, hgroups, hhosts, Option.bind_some, fieldCount_hostvarsJson]
  simp only [Body.fieldCount]
  rw [List.length_map, Std.ExtTreeMap.length_toList]

end Reading

section Counting
variable (ops : TextOps) (datasets : StrMap Dataset) (config : StrMap String)

theorem size_renderCsv (params : Json) :
    Body.size .csv (.text (renderCsv ops datasets config params)) =
      (some (mergeAndFilter ops datasets config params).hostvars.size, none) := by
  let hostvars := (mergeAndFilter ops datasets config params).hostvars
  let columns := csvColumns config params hostvars
  have hheader : Csv.Cell "host".toList "host".toList := .bare (by decide)
  have hread := Csv.read_table hheader (forall₂_cells (fun column => column) columns)
    hostvars.toList (fun host => csvField_cell host.1)
    (fun host => forall₂_cells (csvCell ops host.2) columns)
  simp only [Body.size]
  rw [renderCsv_toList, hread, Option.map_some, List.length_cons, List.length_map,
    Std.ExtTreeMap.length_toList]
  rfl

/-- What is counted is what the body of the call has in it. -/
theorem size_render (format : OutputFormat) :
    Body.size format (render ops format datasets config noParams) =
        (some (counts ops datasets config).1,
          if format = .csv then none else some (counts ops datasets config).2) ↔
      (format = .ansible → "_meta" ∉ (mergeAndFilter ops datasets config noParams).groups) := by
  cases format with
  | ansible => simpa [render, counts] using size_ansibleJson _
  | json => simp [render, counts, size_sourceJson]
  | csv => simp [render, counts, size_renderCsv]

end Counting

section Routes
variable (ops : TextOps) (endpoints : StrMap OutputEndpoint) (permissions : Permissions)
  (cache : MemoryCache) (id : String)

theorem admitted_getElem? {params : Json} {endpoint : OutputEndpoint}
    (h : admitted ops endpoints permissions id params = .ok endpoint) :
    endpoints[id]? = some endpoint := by
  unfold admitted at h
  split at h
  · cases h
  · split at h
    · cases h
    · rename_i found hfound
      have hsame : found = endpoint := by
        split at h
        · split at h
          · cases h
          · exact Except.ok.inj h
        · exact Except.ok.inj h
      rw [hfound, hsame]

/-- **The counts and a call tell the same story.** They are refused alike; where
a call answers 503 or runs a script nothing is counted, and the sources that are
missing are the same; and where a call renders, the counts are what its body has
in it, unless a group of an Ansible inventory is called `_meta`. -/
theorem endpointCounts_agrees :
    match executeEndpoint ops endpoints permissions cache id noParams with
    | .error e => endpointCounts ops endpoints permissions cache id = .error e
    | .ok (.unavailable missing) => missing ≠ [] ∧
        endpointCounts ops endpoints permissions cache id = .ok ⟨none, none, missing⟩
    | .ok .script => endpointCounts ops endpoints permissions cache id = .ok ⟨none, none, []⟩
    | .ok (.rendered format body) => ∃ endpoint hosts groups, endpoints[id]? = some endpoint ∧
        endpointCounts ops endpoints permissions cache id = .ok ⟨some hosts, groups, []⟩ ∧
        (body.size format = (some hosts, groups) ↔ (format = .ansible → "_meta" ∉
          (mergeAndFilter ops (endpoint.limited cache) endpoint.config noParams).groups)) := by
  unfold executeEndpoint endpointCounts
  cases hadmitted : admitted ops endpoints permissions id noParams with
  | error e => rfl
  | ok endpoint =>
    have hfound := admitted_getElem? ops endpoints permissions id hadmitted
    simp only [bind, Except.bind]
    cases hmissing : endpoint.missing cache with
    | cons sourceId rest =>
      refine ⟨List.cons_ne_nil _ _, ?_⟩
      cases endpoint.output <;> rfl
    | nil =>
      cases houtput : endpoint.output with
      | none => rfl
      | some format => exact ⟨endpoint, _, _, hfound, rfl, size_render ops _ _ format⟩

end Routes

end UnifiedApi
