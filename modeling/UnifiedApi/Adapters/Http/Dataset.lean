import UnifiedApi.Adapters.Http.Error
import UnifiedApi.Application.ViewSnapshot
import UnifiedApi.Domain.GroupTrim
import UnifiedApi.Domain.HostFilter

/-! # GET /sources/{id}/dataset: what a read answers with

The body of a filtered source read and of a view read, as a function of the
entry or snapshot it took and of its parameters. -/

namespace UnifiedApi

/-- `groups=`: how much group membership a dataset read carries. -/
inductive GroupsMode where
  | all | «matching» | omit
  deriving DecidableEq

structure DatasetParams where
  host : Option String := none
  group : Option String := none
  limit : Option Nat := none
  offset : Option Nat := none
  fields : Option String := none
  excludeFields : Option String := none
  filter : Option String := none
  groups : Option GroupsMode := none
  refresh : Option Bool := none
  deriving DecidableEq

namespace DatasetParams

/-- `refresh` changes how current the data is, not the shape. -/
def isPlain (params : DatasetParams) : Bool :=
  params.host.isNone && params.group.isNone && params.limit.isNone && params.offset.isNone &&
    params.fields.isNone && params.excludeFields.isNone && params.filter.isNone &&
    params.groups.isNone

/-- A wildcard anywhere makes every entry a pattern. -/
def hostIsPattern (params : DatasetParams) : Bool :=
  params.host.any fun host => host.toList.contains '*' || host.toList.contains '?'

def exactHosts (params : DatasetParams) : Option String :=
  if params.hostIsPattern then none else params.host

def hostFilter (ops : TextOps) (params : DatasetParams) : Except ApiError HostFilter :=
  if params.hostIsPattern && params.refresh.getD false then
    .error (.badRequest ("refresh=true needs exact host names: a pattern could gather hundreds " ++
      "of hosts from one read. POST the source's /sync for a wider refresh"))
  else
    let patterns := if params.hostIsPattern then params.host.getD "" else ""
    (HostFilter.parse ops patterns.toList (params.filter.getD "").toList).mapError .badRequest

/-- How the response shapes vars. -/
def varShape (params : DatasetParams) : VarSelect :=
  { keep := params.fields.map Text.commaNames
    drop := params.excludeFields.elim [] Text.commaNames }

/-- Hosts `offset` to `offset + limit` of a selection. -/
def page (params : DatasetParams) (hostnames : List String) : List String :=
  let rest := hostnames.drop (params.offset.getD 0)
  match params.limit with
  | some limit => rest.take limit
  | none => rest

end DatasetParams

/-- The paginated envelope; without `groups` the key is left out. -/
structure DatasetPage where
  sourceId : String
  totalHosts : Nat
  offset : Nat
  limit : Option Nat
  returned : Nat
  hostvars : StrMap HostVars
  groups : Option (StrMap Group)
  deriving DecidableEq

/-- The two shapes of a 200 answer. -/
inductive DatasetBody where
  | raw (dataset : Dataset)
  | page (page : DatasetPage)
  deriving DecidableEq

/-- Which of the groups come back, and with how much of their membership. -/
def pageGroups (params : DatasetParams) (groups : StrMap Group) (page : List String) :
    Option (StrMap Group) :=
  let wanted := params.group.map Text.commaNames
  let inScope := groups.filter fun name _ => wanted.all (·.contains name)
  let shape := params.varShape
  match params.groups.getD .all with
  | .omit => none
  | .all => some (inScope.map fun _ group => shape.group group)
  | .matching =>
    let trimmed := GroupTrim.matching inScope page
    some (inScope.filterMap fun name group => trimmed[name]?.map fun kept =>
      { shape.group group with hosts := kept.hosts, children := kept.children })

/-- The envelope of one page of a selection. -/
def datasetPage (id : String) (params : DatasetParams) (selection : List String)
    (hostvars : List String → StrMap HostVars) (groups : StrMap Group) : DatasetPage :=
  let page := params.page selection
  let shaped := (hostvars page).map fun _ vars => params.varShape.host vars
  { sourceId := id
    totalHosts := selection.length
    offset := params.offset.getD 0
    limit := params.limit
    returned := shaped.size
    hostvars := shaped
    groups := pageGroups params groups page }

/-! ## A source -/

/-- The hosts that `host` and `group` select, sorted, each once. -/
def resolveHostnames (dataset : Dataset) (host group : Option String) : List String :=
  let inGroups := group.map fun groups => (Text.commaNames groups).flatMap fun name =>
    dataset.groups[name]?.elim [] (·.hosts)
  sortNames <| match host, inGroups with
    | some host, _ => (Text.commaNames host).filter fun name =>
        dataset.hostvars.contains name && inGroups.all (·.contains name)
    | none, some hosts => hosts
    | none, none => dataset.hostvars.keys

/-- The named hosts' variables, of those that have any. -/
def Dataset.hostvarsOf (dataset : Dataset) (hosts : List String) : StrMap HostVars :=
  hosts.foldl (fun hostvars host => match dataset.hostvars[host]? with
    | some vars => hostvars.insert host vars
    | none => hostvars) ∅

/-- The 200 body of a filtered read of a source. -/
def sourcePage (ops : TextOps) (id : String) (params : DatasetParams) (hostFilter : HostFilter)
    (dataset : Dataset) : DatasetPage :=
  let hostnames := resolveHostnames dataset params.exactHosts params.group
  let selection := if hostFilter.isEmpty then hostnames
    else hostnames.filter fun host => dataset.hostvars[host]?.any (hostFilter.matches ops host)
  datasetPage id params selection dataset.hostvarsOf dataset.groups

/-- The 200 body of a read of a source, plain or filtered. -/
def sourceBody (ops : TextOps) (id : String) (params : DatasetParams) (dataset : Dataset) :
    Except ApiError DatasetBody := do
  let hostFilter ← params.hostFilter ops
  return if params.isPlain then .raw dataset
    else .page (sourcePage ops id params hostFilter dataset)

/-! ## A view -/

/-- `group` takes several names, a host in any of them; with `host`, both must
hold. -/
def selectMembers (snap : ViewSnapshot) (host group : Option String) :
    Except UnclaimedHosts (List String) :=
  match group with
  | none => snap.select host none
  | some groups =>
    let inGroups := (Text.commaNames groups).flatMap fun name =>
      match snap.select none (some name) with
      | .ok members => members
      | .error _ => []
    match host with
    | none => .ok (sortNames (inGroups.filter snap.serves))
    | some host => (snap.select (some host) none).map (·.filter inGroups.contains)

/-- The 200 body of a read of a view, plain or filtered. -/
def viewBody (ops : TextOps) (id : String) (params : DatasetParams) (hostFilter : HostFilter)
    (snap : ViewSnapshot) : Except UnclaimedHosts DatasetBody := do
  let selected ← selectMembers snap params.exactHosts params.group
  -- a selection of the whole view has built the routing table
  let snap := { snap with
    built := snap.built || (params.exactHosts.isNone && params.group.isNone) }
  let vars := snap.hostvars selected
  let selection := if hostFilter.isEmpty then selected
    else selected.filter fun host => vars[host]?.any (hostFilter.matches ops host)
  let snap := if hostFilter.isEmpty then snap else snap.prepareRouting selected.length
  return if params.isPlain then .raw (snap.dataset selection)
    else .page (datasetPage id params selection snap.hostvars snap.groups)

end UnifiedApi
