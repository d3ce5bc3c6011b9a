import UnifiedApi.Domain.CacheEntry
import UnifiedApi.Domain.HostFilter

/-! # Builtin output transformers

An endpoint merges the datasets of its sources in the order of their ids, selects
hosts, shapes their variables and leaves out the groups that have nothing left to
say. A limit restricts the datasets before any of it. -/

namespace UnifiedApi

structure EndpointLimit where
  byHostsFromInventory : Option String := none
  deriving DecidableEq

/-- The dataset with the hosts taken out that do not pass. -/
def Dataset.restrict (allowed : String → Bool) (dataset : Dataset) : Dataset :=
  { dataset with
    hostvars := dataset.hostvars.filter fun host _ => allowed host
    groups := dataset.groups.map fun _ group =>
      { group with hosts := group.hosts.filter allowed } }

/-- The hosts of a source that is not there are none. -/
def hostsOf (datasets : StrMap Dataset) (sourceId host : String) : Bool :=
  match datasets[sourceId]? with
  | some dataset => dataset.hostvars.contains host
  | none => false

def applyLimit (datasets : StrMap Dataset) (limit : EndpointLimit) : StrMap Dataset :=
  match limit.byHostsFromInventory with
  | none => datasets
  | some sourceId => datasets.map fun _ dataset => dataset.restrict (hostsOf datasets sourceId)

namespace Output

/-- A request's parameter overrides the endpoint's static setting. -/
def setting (params : Json) (config : StrMap String) (key : String) : String :=
  match params.field? key with
  | some (.string value) => value
  | _ => config[key]?.getD ""

/-- In a POST body `filter` may be a list, each entry one condition. -/
def hostFilter (ops : TextOps) (config : StrMap String) (params : Json) :
    Except String HostFilter :=
  let host := (setting params config "host").toList
  match params.field? "filter" with
  | some (.array items) => do
    let conditions ← items.mapM fun item => match item with
      | .string condition => .ok condition.toList
      | item => .error ("filter entries must be strings, got " ++
          String.ofList (ops.jsonText item))
    HostFilter.fromConditions ops host conditions
  | _ => HostFilter.parse ops host (setting params config "filter").toList

/-- Those of `more` that are not there yet, at the end. -/
def pushMissing (names more : List String) : List String :=
  more.foldl (fun names name => if names.contains name then names else names ++ [name]) names

def mergeGroup (merged group : Group) : Group where
  hosts := pushMissing merged.hosts group.hosts
  children := pushMissing merged.children group.children
  vars := match group.vars with
    | some vars => some (CacheEntry.extend (merged.vars.getD ∅) vars)
    | none => merged.vars

/-- The hosts and groups of several sources. -/
@[ext]
structure Inventory where
  hostvars : StrMap HostVars := ∅
  groups : StrMap Group := ∅
  deriving DecidableEq

/-- A later source overwrites the variables of an earlier one. -/
def Inventory.add (merged : Inventory) (dataset : Dataset) : Inventory where
  hostvars := dataset.hostvars.foldl (fun hostvars host vars =>
    hostvars.insert host (CacheEntry.extend (hostvars[host]?.getD ∅) vars)) merged.hostvars
  groups := dataset.groups.foldl (fun groups name group =>
    groups.insert name (mergeGroup (groups[name]?.getD {}) group)) merged.groups

def merge (datasets : StrMap Dataset) : Inventory :=
  datasets.foldl (fun merged _ dataset => merged.add dataset) {}

/-- The hosts in any of the groups that `group` names. -/
def inGroups (group : String) (groups : StrMap Group) (host : String) : Bool :=
  group.isEmpty || (Text.commaNames group).any fun name =>
    groups[name]?.any (·.hosts.contains host)

/-- A group that listed members and lost them all goes; one that never listed any
says what it means for members settled elsewhere. -/
def prune (hostvars : StrMap HostVars) (group : Group) : Option Group :=
  let kept := { group with hosts := group.hosts.filter hostvars.contains }
  if !group.hosts.isEmpty then
    if kept.hosts.isEmpty && kept.children.isEmpty then none else some kept
  else if kept.children.isEmpty && kept.vars.all (·.isEmpty) then none
  else some kept

/-- `fields` and `exclude_fields`. -/
def varSelect (config : StrMap String) (params : Json) : VarSelect :=
  let fields := Text.commaNames (setting params config "fields")
  { keep := if fields.isEmpty then none else some fields
    drop := Text.commaNames (setting params config "exclude_fields") }

/-- A filter that does not parse renders nothing, never everything. -/
def mergeAndFilter (ops : TextOps) (datasets : StrMap Dataset) (config : StrMap String)
    (params : Json) : Inventory :=
  match hostFilter ops config params with
  | .error _ => {}
  | .ok filter =>
    let merged := merge datasets
    let group := setting params config "group"
    let selected := merged.hostvars.filter fun host vars =>
      inGroups group merged.groups host && (filter.isEmpty || filter.matches ops host vars)
    let select := varSelect config params
    let hostvars := if select.isIdentity then selected else selected.map fun _ => select.host
    let groups := if select.isIdentity then merged.groups
      else merged.groups.map fun _ => select.group
    { hostvars, groups := groups.filterMap fun _ => prune hostvars }

/-! ## Ansible inventory JSON -/

/-- A field that is left out when it has nothing in it. -/
def optionalField (name : String) (isEmpty : Bool) (value : Json) : List (String × Json) :=
  if isEmpty then [] else [(name, value)]

def namesJson (names : List String) : Json := .array (names.mergeSort.map .string)

/-- What a group has, in the order of the keys. -/
def groupFields (group : Group) : List (String × Json) :=
  optionalField "children" group.children.isEmpty (namesJson group.children) ++
    optionalField "hosts" group.hosts.isEmpty (namesJson group.hosts) ++
    match group.vars with
    | some vars => optionalField "vars" vars.isEmpty (.object vars.toList)
    | none => []

def hostvarsJson (hostvars : StrMap HostVars) : Json :=
  .object (hostvars.toList.map fun host => (host.1, .object host.2.toList))

def ansibleFields (inventory : Inventory) : StrMap Json :=
  inventory.groups.foldl (fun fields name group =>
      fields.insert name (.object (groupFields group)))
    ((∅ : StrMap Json).insert "_meta" (.object [("hostvars", hostvarsJson inventory.hostvars)]))

/-- The value that is printed. -/
def ansibleJson (inventory : Inventory) : Json := .object (ansibleFields inventory).toList

def renderAnsible (toStringPretty : Json → String) (ops : TextOps) (datasets : StrMap Dataset)
    (config : StrMap String) (params : Json) : String :=
  toStringPretty (ansibleJson (mergeAndFilter ops datasets config params))

/-! ## What a render holds, host by host -/

theorem Inventory.add_hostvars (merged : Inventory) (dataset : Dataset) (host : String) :
    (merged.add dataset).hostvars[host]? =
      (dataset.hostvars[host]?.map (CacheEntry.extend (merged.hostvars[host]?.getD ∅))).or
        merged.hostvars[host]? := by
  unfold Inventory.add
  rw [StrMap.getElem?_foldl (StrMap.keyStep_insertWith fun vars old =>
    CacheEntry.extend (old.getD ∅) vars)]
  cases dataset.hostvars[host]? <;> rfl

theorem Inventory.mem_add_hostvars {merged : Inventory} {dataset : Dataset} {host : String} :
    host ∈ (merged.add dataset).hostvars ↔ host ∈ merged.hostvars ∨ host ∈ dataset.hostvars := by
  rw [StrMap.mem_iff, StrMap.mem_iff, StrMap.mem_iff, add_hostvars]
  cases dataset.hostvars[host]? <;> simp

/-- What is merged has the hosts of every dataset. -/
theorem mem_merge_hostvars {datasets : StrMap Dataset} {host : String} :
    host ∈ (merge datasets).hostvars ↔
      ∃ (id : String) (dataset : Dataset),
        datasets[id]? = some dataset ∧ host ∈ dataset.hostvars := by
  have hrun : ∀ (entries : List (String × Dataset)) (merged : Inventory),
      host ∈ (entries.foldl (fun merged entry => merged.add entry.2) merged).hostvars ↔
        host ∈ merged.hostvars ∨ ∃ entry ∈ entries, host ∈ entry.2.hostvars := by
    intro entries
    induction entries with
    | nil => simp
    | cons entry rest ih =>
      intro merged
      rw [List.foldl_cons, ih, Inventory.mem_add_hostvars, or_assoc]
      simp
  rw [merge, Std.ExtTreeMap.foldl_eq_foldl_toList, hrun]
  simp [Std.ExtTreeMap.mem_toList_iff_getElem?_eq_some]

theorem Inventory.add_groups (merged : Inventory) (dataset : Dataset) (name : String) :
    (merged.add dataset).groups[name]? =
      (dataset.groups[name]?.map (mergeGroup (merged.groups[name]?.getD {}))).or
        merged.groups[name]? := by
  unfold Inventory.add
  rw [StrMap.getElem?_foldl (StrMap.keyStep_insertWith fun group old =>
    mergeGroup (old.getD {}) group)]
  cases dataset.groups[name]? <;> rfl

section
variable {ops : TextOps} {config : StrMap String} {params : Json}

/-- Every host is selected by what the merge holds of it, and shaped on its own. -/
theorem mergeAndFilter_hostvars {filter : HostFilter}
    (hfilter : hostFilter ops config params = .ok filter) (datasets : StrMap Dataset)
    (host : String) :
    (mergeAndFilter ops datasets config params).hostvars[host]? =
      ((merge datasets).hostvars[host]?.filter fun vars =>
        inGroups (setting params config "group") (merge datasets).groups host &&
          (filter.isEmpty || filter.matches ops host vars)).map (varSelect config params).host := by
  unfold mergeAndFilter
  rw [hfilter]
  cases hidentity : (varSelect config params).isIdentity with
  | true =>
    have hhost : (varSelect config params).host = id :=
      funext (VarSelect.host_of_isIdentity hidentity)
    simp [hidentity, hhost]
  | false => simp [hidentity]

theorem mergeAndFilter_error {e : String} (hfilter : hostFilter ops config params = .error e)
    (datasets : StrMap Dataset) : mergeAndFilter ops datasets config params = {} := by
  rw [mergeAndFilter, hfilter]

/-- A group lists no host that is not rendered itself. -/
theorem rendered_of_mem_group {datasets : StrMap Dataset} {name host : String} {group : Group}
    (hgroup : (mergeAndFilter ops datasets config params).groups[name]? = some group)
    (hhost : host ∈ group.hosts) :
    host ∈ (mergeAndFilter ops datasets config params).hostvars := by
  cases hfilter : hostFilter ops config params with
  | error e =>
    rw [mergeAndFilter_error hfilter] at hgroup
    cases hgroup
  | ok filter =>
    simp only [mergeAndFilter, hfilter, Std.ExtTreeMap.getElem?_filterMap'] at hgroup ⊢
    obtain ⟨merged, _, hprune⟩ := Option.bind_eq_some_iff.mp hgroup
    generalize (if (varSelect config params).isIdentity = true then _ else _ :
      StrMap HostVars) = hostvars at hprune ⊢
    have hkept : group.hosts = merged.hosts.filter hostvars.contains := by
      unfold prune at hprune
      split at hprune <;> obtain ⟨_, hprune⟩ := Option.ite_none_left_eq_some.mp hprune <;>
        rw [← Option.some.inj hprune]
    rw [hkept, List.mem_filter] at hhost
    exact Std.ExtTreeMap.contains_iff_mem.mp hhost.2

end

/-! ## Limits -/

section
variable (allowed : String → Bool)

theorem filter_pushMissing (names more : List String) :
    (pushMissing names more).filter allowed =
      pushMissing (names.filter allowed) (more.filter allowed) := by
  induction more generalizing names with
  | nil => rfl
  | cons name rest ih =>
    rw [pushMissing, List.foldl_cons, ← pushMissing, ih, List.filter_cons]
    cases hname : allowed name with
    | true =>
      by_cases hmem : name ∈ names
      · simp [pushMissing, hname, hmem]
      · simp [pushMissing, hname, hmem, List.filter_append]
    | false =>
      by_cases hmem : name ∈ names
      · simp [hmem]
      · simp [hname, hmem, List.filter_append]

/-- The inventory of the allowed hosts; groups stay, with fewer members. -/
def Inventory.restrict (merged : Inventory) : Inventory where
  hostvars := merged.hostvars.filter fun host _ => allowed host
  groups := merged.groups.map fun _ group => { group with hosts := group.hosts.filter allowed }

theorem mergeGroup_restrict (merged group : Group) :
    mergeGroup { merged with hosts := merged.hosts.filter allowed }
        { group with hosts := group.hosts.filter allowed } =
      { mergeGroup merged group with hosts := (mergeGroup merged group).hosts.filter allowed } := by
  simp only [mergeGroup, filter_pushMissing]

theorem add_restrict (merged : Inventory) (dataset : Dataset) :
    (merged.restrict allowed).add (dataset.restrict allowed) =
      (merged.add dataset).restrict allowed := by
  apply Inventory.ext
  · apply Std.ExtTreeMap.ext_getElem?
    intro host
    rw [Inventory.add_hostvars]
    simp only [Inventory.restrict, Dataset.restrict, StrMap.getElem?_filter_keys,
      Inventory.add_hostvars]
    cases allowed host with
    | true => simp
    | false => simp
  · apply Std.ExtTreeMap.ext_getElem?
    intro name
    rw [Inventory.add_groups]
    simp only [Inventory.restrict, Dataset.restrict, StrMap.getElem?_map, Inventory.add_groups]
    cases dataset.groups[name]? with
    | none => rfl
    | some group =>
      cases merged.groups[name]? with
      | none => simp [← mergeGroup_restrict]
      | some old => simp [mergeGroup_restrict]

/-- Restricting every dataset restricts what they merge to. -/
theorem merge_restrict (datasets : StrMap Dataset) :
    merge (datasets.map fun _ dataset => dataset.restrict allowed) =
      (merge datasets).restrict allowed := by
  have hrun : ∀ (entries : List (String × Dataset)) (merged : Inventory),
      (entries.map fun entry => (entry.1, entry.2.restrict allowed)).foldl
          (fun merged entry => merged.add entry.2) (merged.restrict allowed) =
        (entries.foldl (fun merged entry => merged.add entry.2) merged).restrict allowed := by
    intro entries
    induction entries with
    | nil => exact fun merged => rfl
    | cons entry rest ih =>
      intro merged
      rw [List.map_cons, List.foldl_cons, List.foldl_cons, add_restrict, ih]
  have hempty : ({} : Inventory).restrict allowed = {} := by
    apply Inventory.ext <;> apply Std.ExtTreeMap.ext_getElem? <;> intro a <;>
      simp [Inventory.restrict]
  rw [merge, merge, Std.ExtTreeMap.foldl_eq_foldl_toList, Std.ExtTreeMap.foldl_eq_foldl_toList,
    Std.ExtTreeMap.toList_map, ← hrun, hempty]

theorem inGroups_restrict {group host : String} {merged : Inventory}
    (hallowed : allowed host = true) :
    inGroups group (merged.restrict allowed).groups host = inGroups group merged.groups host := by
  simp only [inGroups, Inventory.restrict, StrMap.getElem?_map]
  congr 2
  funext name
  cases merged.groups[name]? with
  | none => rfl
  | some g => simp [hallowed]

end

/-- **A limit commutes with merging and filtering.** The hosts rendered from the
limited datasets are those rendered from the unlimited ones that the limiting
source lists, with the same variables. -/
theorem mergeAndFilter_applyLimit (ops : TextOps) (datasets : StrMap Dataset) (sourceId : String)
    (config : StrMap String) (params : Json) (host : String) :
    (mergeAndFilter ops (applyLimit datasets ⟨some sourceId⟩) config params).hostvars[host]? =
      if hostsOf datasets sourceId host then
        (mergeAndFilter ops datasets config params).hostvars[host]?
      else none := by
  have hlimited : merge (applyLimit datasets ⟨some sourceId⟩) =
      (merge datasets).restrict (hostsOf datasets sourceId) := merge_restrict _ datasets
  cases hfilter : hostFilter ops config params with
  | error e =>
    rw [mergeAndFilter_error hfilter, mergeAndFilter_error hfilter]
    exact (ite_self _).symm
  | ok filter =>
    rw [mergeAndFilter_hostvars hfilter, mergeAndFilter_hostvars hfilter, hlimited]
    cases hallowed : hostsOf datasets sourceId host with
    | true =>
      rw [inGroups_restrict _ hallowed]
      simp [Inventory.restrict, hallowed]
    | false => simp [Inventory.restrict, hallowed]

end Output

end UnifiedApi
