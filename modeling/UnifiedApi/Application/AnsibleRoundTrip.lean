import UnifiedApi.Application.Output
import UnifiedApi.Domain.AnsibleInventory

/-! # Rendering an inventory and reading it back

What the reader makes of a render is the inventory that was rendered, lists
sorted and empty variables gone. -/

namespace UnifiedApi

/-- No hosts, no children and no variables. -/
def Group.isBare (group : Group) : Bool :=
  group.hosts.isEmpty && group.children.isEmpty && group.vars.all (·.isEmpty)

namespace Output

/-! ## Groups -/

/-- A group as it comes back. -/
def readBack (group : Group) : Group where
  hosts := group.hosts.mergeSort
  children := group.children.mergeSort
  vars := group.vars.filter fun vars => !vars.isEmpty

theorem lookup_optionalField (key name : String) (isEmpty : Bool) (value : Json) :
    (optionalField name isEmpty value).lookup key =
      if isEmpty = false ∧ key = name then some value else none := by
  cases isEmpty with
  | true => simp [optionalField]
  | false => by_cases hkey : key = name <;> simp [optionalField, hkey]

theorem mem_optionalField {name : String} {isEmpty : Bool} {value : Json}
    {field : String × Json} (h : field ∈ optionalField name isEmpty value) : field.1 = name := by
  cases isEmpty with
  | true => cases h
  | false => rw [List.mem_singleton.mp h]

section
variable (group : Group)

theorem lookup_hosts : (groupFields group).lookup "hosts" =
    if group.hosts.isEmpty then none else some (namesJson group.hosts) := by
  unfold groupFields
  rw [List.lookup_append, List.lookup_append]
  cases group.vars <;> simp [lookup_optionalField]

theorem lookup_children : (groupFields group).lookup "children" =
    if group.children.isEmpty then none else some (namesJson group.children) := by
  unfold groupFields
  rw [List.lookup_append, List.lookup_append]
  cases group.vars <;> simp [lookup_optionalField]

theorem lookup_vars : (groupFields group).lookup "vars" =
    (readBack group).vars.map fun vars => .object vars.toList := by
  unfold groupFields readBack
  rw [List.lookup_append, List.lookup_append]
  cases group.vars with
  | none => simp [lookup_optionalField]
  | some vars => by_cases hvars : vars = ∅ <;> simp [lookup_optionalField, hvars]

theorem isGroupKey_of_mem {key : String} (h : key ∈ (groupFields group).map (·.1)) :
    isGroupKey key = true := by
  obtain ⟨field, hfield, rfl⟩ := List.mem_map.mp h
  unfold groupFields at hfield
  obtain hfield | hvars := List.mem_append.mp hfield
  · obtain hchildren | hhosts := List.mem_append.mp hfield
    · rw [mem_optionalField hchildren]
      rfl
    · rw [mem_optionalField hhosts]
      rfl
  · split at hvars
    · rw [mem_optionalField hvars]
      rfl
    · cases hvars

/-- Sorting nothing leaves nothing. -/
theorem namesField_of_lookup {fields : List (String × Json)} {key : String} {names : List String}
    (h : fields.lookup key = if names.isEmpty then none else some (namesJson names)) :
    namesField fields key = some names.mergeSort := by
  unfold namesField
  rw [h]
  cases names with
  | nil => simp
  | cons name rest => exact Json.asStrings?_strings _

theorem varsField_groupFields : varsField (groupFields group) = some (readBack group).vars := by
  unfold varsField
  rw [lookup_vars]
  cases (readBack group).vars with
  | none => rfl
  | some vars => simp [Json.asMap?_object]

theorem groupFromFields_groupFields :
    groupFromFields (groupFields group) = some (readBack group) := by
  rw [groupFromFields, namesField_of_lookup (lookup_hosts group),
    namesField_of_lookup (lookup_children group), varsField_groupFields]
  rfl

theorem parseGroup_groupFields (name : String) :
    parseGroup name (.object (groupFields group)) = .ok (readBack group, []) := by
  have hextra : ((groupFields group).map (·.1)).filter (fun key => !isGroupKey key) = [] :=
    List.filter_eq_nil_iff.mpr fun key hkey => by simp [isGroupKey_of_mem group hkey]
  have hnone : (!((groupFields group).map (·.1)).isEmpty &&
      !((groupFields group).map (·.1)).any isGroupKey) = false := by
    cases hfields : (groupFields group).map (·.1) with
    | nil => rfl
    | cons key rest =>
      have hkey := isGroupKey_of_mem group (hfields ▸ List.mem_cons_self : key ∈ _)
      simp [hkey]
  simp only [parseGroup, groupFromFields_groupFields, hextra, hnone]
  rfl

end

/-! ## Reading a render -/

section
variable {inventory : Inventory}

theorem ansibleFields_lookup (hordinary : OrdinaryNames inventory.groups) (name : String) :
    (ansibleFields inventory)[name]? =
      if name = "_meta" then some (.object [("hostvars", hostvarsJson inventory.hostvars)])
      else inventory.groups[name]?.map fun group => .object (groupFields group) := by
  unfold ansibleFields
  have hstep : StrMap.KeyStep (fun (fields : StrMap Json) name group =>
      fields.insert name (.object (groupFields group)))
      fun _ group _ => some (.object (groupFields group)) := by
    intro m k v a
    exact StrMap.getElem?_insert m k a _
  rw [StrMap.getElem?_foldl hstep, StrMap.getElem?_insert]
  cases hgroup : inventory.groups[name]? with
  | none => simp [eq_comm]
  | some group =>
    have hname := (hordinary name (StrMap.mem_of_some hgroup)).1
    simp [hname]

/-- A group that is read without a warning joins the others. -/
theorem addGroup_of_parse {reading : InventoryReading} {name : String} {value : Json}
    {group : Group} (hname : name ≠ "_meta") (hmeta : isMetaGroup name = false)
    (hparse : parseGroup name value = .ok (group, [])) :
    reading.addGroup name value =
      .ok { reading with groups := reading.groups.insert name group } := by
  unfold InventoryReading.addGroup
  rw [if_neg (by simpa using hname), hparse]
  simp [Except.map, hmeta]

/-- The groups that a loop over well-formed fields reads. -/
theorem readGroups_of_parse (parsed : String → Group) {fields : List (String × Json)}
    (h : ∀ field ∈ fields, field.1 ≠ "_meta" → isMetaGroup field.1 = false ∧
      parseGroup field.1 field.2 = .ok (parsed field.1, [])) (start : InventoryReading) :
    readGroups start fields = .ok { start with
      groups := fields.foldl (fun groups field =>
        if field.1 = "_meta" then groups else groups.insert field.1 (parsed field.1))
        start.groups } := by
  induction fields generalizing start with
  | nil => rfl
  | cons field rest ih =>
    have hrest := fun other hother => h other (List.mem_cons_of_mem field hother)
    rw [readGroups, List.foldlM_cons, List.foldl_cons]
    by_cases hname : field.1 = "_meta"
    · have hskip : start.addGroup field.1 field.2 = .ok start := by
        unfold InventoryReading.addGroup
        rw [if_pos (by simpa using hname)]
      rw [hskip, if_pos hname]
      exact ih hrest start
    · obtain ⟨hmeta, hparse⟩ := h field List.mem_cons_self hname
      rw [addGroup_of_parse hname hmeta hparse, if_neg hname]
      exact ih hrest _

theorem readHostvars_hostvarsJson (hostvars : StrMap HostVars) :
    readHostvars (hostvarsJson hostvars) = some hostvars := by
  have hentries : ∀ entries : List (String × HostVars),
      (entries.map fun host => (host.1, Json.object host.2.toList)).mapM
        (fun (field : String × Json) => field.2.asMap?.map (field.1, ·)) = some entries := by
    intro entries
    induction entries with
    | nil => rfl
    | cons host rest ih => simp [Json.asMap?_object, ih]
  rw [hostvarsJson, readHostvars, hentries, Option.map_some, Json.ofFields_toList]

/-- The group of the name as it comes back. -/
def readBackAt (inventory : Inventory) (name : String) : Group :=
  readBack (inventory.groups[name]?.getD {})

theorem parse_ansibleFields (hordinary : OrdinaryNames inventory.groups)
    {field : String × Json} (hfield : field ∈ (ansibleFields inventory).toList)
    (hname : field.1 ≠ "_meta") : isMetaGroup field.1 = false ∧
      parseGroup field.1 field.2 = .ok (readBackAt inventory field.1, []) := by
  have hvalue := Std.ExtTreeMap.mem_toList_iff_getElem?_eq_some.mp hfield
  rw [ansibleFields_lookup hordinary, if_neg hname] at hvalue
  obtain ⟨group, hgroup, hjson⟩ := Option.map_eq_some_iff.mp hvalue
  refine ⟨(hordinary _ (StrMap.mem_of_some hgroup)).2, ?_⟩
  rw [← hjson, parseGroup_groupFields, readBackAt, hgroup, Option.getD_some]

theorem foldl_ansibleFields (hordinary : OrdinaryNames inventory.groups) :
    (ansibleFields inventory).toList.foldl (fun groups field =>
      if field.1 = "_meta" then groups
      else groups.insert field.1 (readBackAt inventory field.1)) ∅ =
        inventory.groups.map fun _ => readBack := by
  have hstep : StrMap.KeyStep (fun (groups : StrMap Group) name (_ : Json) =>
      if name = "_meta" then groups else groups.insert name (readBackAt inventory name))
      fun name _ old => if name = "_meta" then old else some (readBackAt inventory name) := by
    intro m k v a
    by_cases hk : k = "_meta"
    · simp [hk]
    · simp only [if_neg hk, StrMap.getElem?_insert]
  apply Std.ExtTreeMap.ext_getElem?
  intro name
  refine (StrMap.getElem?_foldl_toList hstep (ansibleFields inventory) ∅ name).trans ?_
  rw [ansibleFields_lookup hordinary, StrMap.getElem?_map]
  by_cases hname : name = "_meta"
  · have hnone : inventory.groups[name]? = none := by
      by_contra hsome
      exact (hordinary name ((StrMap.mem_iff _ _).mpr hsome)).1 hname
    rw [hnone]
    simp [hname]
  · cases hgroup : inventory.groups[name]? with
    | none => simp [hname]
    | some group => simp [hname, readBackAt, hgroup]

/-- The reader of a render finds the hosts and groups that were rendered, and
nothing to warn of. -/
theorem fromAnsibleInventory_ansibleJson (hordinary : OrdinaryNames inventory.groups) :
    fromAnsibleInventory (ansibleJson inventory) = .ok
      ({ hostvars := inventory.hostvars
         groups := inventory.groups.map fun _ => readBack }, []) := by
  have hmetadata : (ansibleFields inventory).toList.lookup "_meta" =
      some (.object [("hostvars", hostvarsJson inventory.hostvars)]) := by
    rw [StrMap.lookup_toList, ansibleFields_lookup hordinary, if_pos rfl]
  have hstart : startReading (ansibleFields inventory).toList =
      .ok { hostvars := inventory.hostvars } := by
    simp [startReading, hmetadata, Json.field?, readHostvars_hostvarsJson]
  have hold : isOldFormat (ansibleFields inventory).toList = false := by
    simp [isOldFormat, hmetadata]
  have hgroups := readGroups_of_parse (readBackAt inventory)
    (fun field hfield => parse_ansibleFields hordinary hfield) { hostvars := inventory.hostvars }
  rw [ansibleJson, fromAnsibleInventory, hold, hstart]
  simp only [Bool.false_eq_true, if_false, Except.bind, hgroups, Except.map,
    foldl_ansibleFields hordinary]

end

/-! ## Rendering one dataset as it is -/

section
variable (ops : TextOps) (id : String) (dataset : Dataset)

/-- No parameters at all. -/
def noParams : Json := .object []

theorem mem_pushMissing {names more : List String} {name : String} :
    name ∈ pushMissing names more ↔ name ∈ names ∨ name ∈ more := by
  unfold pushMissing
  induction more generalizing names with
  | nil => simp
  | cons first rest ih =>
    rw [List.foldl_cons, ih, List.mem_cons, ← or_assoc]
    refine or_congr_left ?_
    split
    · rename_i hcontains
      refine (or_iff_left_of_imp fun heq => ?_).symm
      exact heq ▸ List.contains_iff_mem.mp hcontains
    · rw [List.mem_append, List.mem_singleton]

theorem setting_noParams (key : String) : setting noParams ∅ key = "" := by
  simp [setting, noParams, Json.field?]

theorem hostFilter_noParams : hostFilter ops ∅ noParams = .ok {} := by
  have hparams : noParams.field? "filter" = none := rfl
  rw [hostFilter, hparams, setting_noParams, setting_noParams]
  rfl

theorem isIdentity_noParams : (varSelect ∅ noParams).isIdentity = true := by
  rw [varSelect, setting_noParams, setting_noParams]
  rfl

/-- Without settings every host that is merged is kept. -/
theorem mem_mergeAndFilter_noParams {datasets : StrMap Dataset} {host : String} :
    host ∈ (mergeAndFilter ops datasets ∅ noParams).hostvars ↔
      host ∈ (merge datasets).hostvars := by
  rw [StrMap.mem_iff, StrMap.mem_iff, mergeAndFilter_hostvars (hostFilter_noParams ops),
    setting_noParams]
  have hall : inGroups "" (merge datasets).groups host = true := rfl
  rw [hall]
  cases (merge datasets).hostvars[host]? <;> simp [HostFilter.isEmpty]

theorem merge_one : merge ((∅ : StrMap Dataset).insert id dataset) =
    { hostvars := dataset.hostvars, groups := dataset.groups.map fun _ => mergeGroup {} } := by
  have hadd : merge ((∅ : StrMap Dataset).insert id dataset) = ({} : Inventory).add dataset := by
    rw [merge, Std.ExtTreeMap.foldl_eq_foldl_toList]
    rfl
  rw [hadd]
  apply Inventory.ext <;> apply Std.ExtTreeMap.ext_getElem? <;> intro name
  · rw [Inventory.add_hostvars]
    cases dataset.hostvars[name]? with
    | none => rfl
    | some vars => simp [CacheEntry.extend_empty]
  · rw [Inventory.add_groups, StrMap.getElem?_map]
    cases dataset.groups[name]? with
    | none => rfl
    | some group => simp

/-- One dataset on its own, unfiltered: repeated names and empty groups go. -/
def unfiltered : Inventory where
  hostvars := dataset.hostvars
  groups := (dataset.groups.map fun _ => mergeGroup {}).filterMap fun _ => prune dataset.hostvars

theorem mergeAndFilter_one :
    mergeAndFilter ops ((∅ : StrMap Dataset).insert id dataset) ∅ noParams =
      unfiltered dataset := by
  have hall : dataset.hostvars.filter (fun host vars =>
      inGroups "" (dataset.groups.map fun _ => mergeGroup {}) host &&
        (HostFilter.isEmpty {} || HostFilter.matches ops {} host vars)) = dataset.hostvars := by
    apply Std.ExtTreeMap.ext_getElem?
    intro host
    rw [Std.ExtTreeMap.getElem?_filter']
    cases dataset.hostvars[host]? with
    | none => rfl
    | some vars => rfl
  simp only [mergeAndFilter, hostFilter_noParams, setting_noParams, merge_one, hall,
    isIdentity_noParams, if_true, unfiltered]

/-- A group whose hosts all survive goes only when it says nothing. -/
theorem prune_of_closed {hostvars : StrMap HostVars} {group : Group}
    (h : ∀ host ∈ group.hosts, host ∈ hostvars) :
    prune hostvars group = if group.isBare then none else some group := by
  have hkept : group.hosts.filter hostvars.contains = group.hosts :=
    List.filter_eq_self.mpr fun host hhost => Std.ExtTreeMap.contains_iff_mem.mpr (h host hhost)
  obtain ⟨hosts, children, vars⟩ := group
  unfold prune Group.isBare
  dsimp only at hkept ⊢
  rw [hkept]
  cases hosts <;> simp

end

/-! ## The round trip -/

/-- Hosts and children as sets; absent and empty variables are one. -/
structure SameGroup (group group' : Group) : Prop where
  hosts : ∀ host, host ∈ group.hosts ↔ host ∈ group'.hosts
  children : ∀ child, child ∈ group.children ↔ child ∈ group'.children
  vars : group.vars.getD ∅ = group'.vars.getD ∅

/-- The same hosts with the same variables, and the same groups but for those
that say nothing. -/
structure SameInventory (dataset dataset' : Dataset) : Prop where
  hostvars : dataset'.hostvars = dataset.hostvars
  groups : ∀ name : String, Option.Rel SameGroup
    (dataset.groups[name]?.filter fun group => !group.isBare) dataset'.groups[name]?

/-- Dropping empty variables does not show. -/
theorem getD_filter_isEmpty (vars : Option HostVars) :
    (vars.filter fun vars => !vars.isEmpty).getD ∅ = vars.getD ∅ := by
  cases vars with
  | none => rfl
  | some vars => by_cases hvars : vars = ∅ <;> simp [Option.filter, hvars]

theorem mergeGroup_vars (group : Group) : (mergeGroup {} group).vars = group.vars := by
  cases hvars : group.vars with
  | none => simp [mergeGroup, hvars]
  | some vars => simp [mergeGroup, hvars, CacheEntry.extend_empty]

theorem mem_mergeGroup_hosts {group : Group} {host : String} :
    host ∈ (mergeGroup {} group).hosts ↔ host ∈ group.hosts := by
  simp [mergeGroup, mem_pushMissing]

theorem mem_mergeGroup_children {group : Group} {child : String} :
    child ∈ (mergeGroup {} group).children ↔ child ∈ group.children := by
  simp [mergeGroup, mem_pushMissing]

theorem sameGroup_readBack (group : Group) : SameGroup group (readBack (mergeGroup {} group)) where
  hosts host := by rw [readBack, List.mem_mergeSort, mem_mergeGroup_hosts]
  children child := by rw [readBack, List.mem_mergeSort, mem_mergeGroup_children]
  vars := by rw [readBack, getD_filter_isEmpty, mergeGroup_vars]

theorem isEmpty_congr {names names' : List String} (h : ∀ name, name ∈ names ↔ name ∈ names') :
    names.isEmpty = names'.isEmpty := by
  rw [Bool.eq_iff_iff, List.isEmpty_iff, List.isEmpty_iff, List.eq_nil_iff_forall_not_mem,
    List.eq_nil_iff_forall_not_mem]
  exact forall_congr' fun name => not_congr (h name)

theorem isBare_mergeGroup (group : Group) : (mergeGroup {} group).isBare = group.isBare := by
  rw [Group.isBare, Group.isBare, mergeGroup_vars,
    isEmpty_congr fun _ => mem_mergeGroup_hosts, isEmpty_congr fun _ => mem_mergeGroup_children]

theorem unfiltered_groups {dataset : Dataset} (hclosed : dataset.Closed) (name : String) :
    (unfiltered dataset).groups[name]? =
      (dataset.groups[name]?.filter fun group => !group.isBare).map (mergeGroup {}) := by
  rw [unfiltered, Std.ExtTreeMap.getElem?_filterMap', StrMap.getElem?_map]
  cases hgroup : dataset.groups[name]? with
  | none => rfl
  | some group =>
    have hhosts : ∀ host ∈ (mergeGroup {} group).hosts, host ∈ dataset.hostvars :=
      fun host hhost => hclosed name group hgroup host (mem_mergeGroup_hosts.mp hhost)
    simp only [Option.map_some, Option.bind_some, prune_of_closed hhosts, isBare_mergeGroup]
    cases hbare : group.isBare <;> simp [Option.filter, hbare]

theorem exists_of_unfiltered {dataset : Dataset} (hclosed : dataset.Closed) {name : String}
    {group : Group} (h : (unfiltered dataset).groups[name]? = some group) :
    ∃ old, dataset.groups[name]? = some old ∧ mergeGroup {} old = group := by
  rw [unfiltered_groups hclosed] at h
  obtain ⟨old, hold, hmerged⟩ := Option.map_eq_some_iff.mp h
  exact ⟨old, (Option.filter_eq_some_iff.mp hold).1, hmerged⟩

theorem unfiltered_ordinary {dataset : Dataset} (hclosed : dataset.Closed)
    (hordinary : OrdinaryNames dataset.groups) : OrdinaryNames (unfiltered dataset).groups := by
  intro name hname
  obtain ⟨group, hgroup⟩ := (StrMap.mem_iff_exists _ _).mp hname
  obtain ⟨old, hold, _⟩ := exists_of_unfiltered hclosed hgroup
  exact hordinary name (StrMap.mem_of_some hold)

theorem roundTrip_of_closed (ops : TextOps) (id : String) {dataset : Dataset}
    (hclosed : dataset.Closed) (hordinary : OrdinaryNames dataset.groups) :
    ∃ dataset', fromAnsibleInventory (ansibleJson (mergeAndFilter ops
        ((∅ : StrMap Dataset).insert id dataset) ∅ noParams)) = .ok (dataset', []) ∧
      SameInventory dataset dataset'.addGroupMembers := by
  have hread := fromAnsibleInventory_ansibleJson (unfiltered_ordinary hclosed hordinary)
  refine ⟨_, by rw [mergeAndFilter_one]; exact hread, ?_⟩
  rw [Dataset.addGroupMembers_of_closed]
  · refine ⟨rfl, fun name => ?_⟩
    rw [StrMap.getElem?_map, unfiltered_groups hclosed]
    cases dataset.groups[name]?.filter fun group => !group.isBare with
    | none => exact .none
    | some group => exact .some (sameGroup_readBack group)
  · intro name group hgroup host hhost
    rw [StrMap.getElem?_map] at hgroup
    obtain ⟨merged, hmerged, rfl⟩ := Option.map_eq_some_iff.mp hgroup
    obtain ⟨old, hold, rfl⟩ := exists_of_unfiltered hclosed hmerged
    exact hclosed name old hold host (((sameGroup_readBack old).hosts host).mpr hhost)

/-- A list of hosts, a host that only `all` names, and a group that says nothing. -/
def labInventory : Json :=
  .object [("all", .array [.string "b"]), ("spare", .object []), ("web", .array [.string "a"])]

def labDataset : Dataset where
  hostvars := (∅ : StrMap HostVars).insert "b" ∅
  groups := ((∅ : StrMap Group).insert "spare" {}).insert "web" { hosts := ["a"] }

def labRendered : Json :=
  .object [("_meta", .object [("hostvars", .object [("a", .object []), ("b", .object [])])]),
    ("web", .object [("hosts", .array [.string "a"])])]

def labText : String := "\n".intercalate
  ["\x7b", "  \"_meta\": \x7b", "    \"hostvars\": \x7b", "      \"a\": \x7b\x7d,",
    "      \"b\": \x7b\x7d", "    \x7d", "  \x7d,", "  \"web\": \x7b", "    \"hosts\": [",
    "      \"a\"", "    ]", "  \x7d", "\x7d"]

theorem mergeAndFilter_lab (ops : TextOps) : ansibleJson (mergeAndFilter ops
    ((∅ : StrMap Dataset).insert "lab" labDataset.addGroupMembers) ∅ noParams) = labRendered := by
  rw [mergeAndFilter_one]
  decide +kernel

/-- `hread` is what the JSON library owes: the printed text reads back as the value. -/
theorem renderAnsible_roundTrip (toStringPretty : Json → String) (fromStr : String → Option Json)
    (ops : TextOps) (id : String) {value : Json} {dataset : Dataset} {warnings : List String}
    (haccepted : fromAnsibleInventory value = .ok (dataset, warnings))
    (hread : fromStr (renderAnsible toStringPretty ops
      ((∅ : StrMap Dataset).insert id dataset.addGroupMembers) ∅ noParams) =
        some (ansibleJson (mergeAndFilter ops
          ((∅ : StrMap Dataset).insert id dataset.addGroupMembers) ∅ noParams))) :
    ∃ dataset', (fromStr (renderAnsible toStringPretty ops
        ((∅ : StrMap Dataset).insert id dataset.addGroupMembers) ∅ noParams)).map
          fromAnsibleInventory = some (.ok (dataset', [])) ∧
      SameInventory dataset.addGroupMembers dataset'.addGroupMembers := by
  have hordinary := fromAnsibleInventory_ordinary haccepted
  obtain ⟨dataset', hok, hsame⟩ := roundTrip_of_closed ops id
    (Dataset.closed_addGroupMembers dataset) hordinary
  exact ⟨dataset', by rw [hread, Option.map_some, hok], hsame⟩

theorem renderAnsible_roundTrip_lab : ∃ dataset',
    ((fun text => if text = labText then some labRendered else none)
      (renderAnsible (fun value => if value = labRendered then labText else "")
        ⟨id, fun _ => none, fun _ => []⟩
        ((∅ : StrMap Dataset).insert "lab" labDataset.addGroupMembers) ∅ noParams)).map
        fromAnsibleInventory = some (.ok (dataset', [])) ∧
      SameInventory labDataset.addGroupMembers dataset'.addGroupMembers :=
  renderAnsible_roundTrip (fun value => if value = labRendered then labText else "")
    (fun text => if text = labText then some labRendered else none)
    ⟨id, fun _ => none, fun _ => []⟩ "lab"
    (show fromAnsibleInventory labInventory = .ok (labDataset,
      ["no _meta.hostvars in inventory output — hosts will have no variables"]) by
        decide +kernel)
    (by rw [renderAnsible, mergeAndFilter_lab, if_pos rfl, if_pos rfl])

/-! ## A float that comes back as its neighbour

The library rounds the digits of a float before it scales them by a power of
ten, unless it is built with its exact reader, and then the text of a float may
be read back one bit off. -/

/-- 4.1999999999999997e24, and the 4.2e24 that its text is read back as. -/
def massBits : UInt64 := 0x450bcb13a657b263

def massReread : UInt64 := 0x450bcb13a657b264

def massJson (bits : UInt64) : Json :=
  .object [("_meta", .object [("hostvars", .object [("a", .object [
    ("mass", .number (.float bits))])])])]

def massDataset (bits : UInt64) : Dataset where
  hostvars := (∅ : StrMap HostVars).insert "a"
    ((∅ : HostVars).insert "mass" (.number (.float bits)))
  groups := ∅

def massText : String := "\n".intercalate
  ["\x7b", "  \"_meta\": \x7b", "    \"hostvars\": \x7b", "      \"a\": \x7b",
    "        \"mass\": 4.1999999999999997e24", "      \x7d", "    \x7d", "  \x7d", "\x7d"]

/-- The printer and the reader of the library, as far as the text goes. -/
def massPrint (value : Json) : String := if value = massJson massBits then massText else ""

def massRead (text : String) : Option Json :=
  if text = massText then some (massJson massReread) else none

theorem mergeAndFilter_mass (ops : TextOps) : ansibleJson (mergeAndFilter ops
    ((∅ : StrMap Dataset).insert "lab" (massDataset massBits).addGroupMembers) ∅ noParams) =
      massJson massBits := by
  rw [mergeAndFilter_one]
  decide +kernel

theorem renderAnsible_float_changed :
    fromAnsibleInventory (massJson massBits) = .ok (massDataset massBits, []) ∧
      (massRead (renderAnsible massPrint ⟨id, fun _ => none, fun _ => []⟩
        ((∅ : StrMap Dataset).insert "lab" (massDataset massBits).addGroupMembers) ∅ noParams)).map
          fromAnsibleInventory = some (.ok (massDataset massReread, [])) ∧
      ¬ SameInventory (massDataset massBits).addGroupMembers
        (massDataset massReread).addGroupMembers := by
  refine ⟨by decide +kernel, ?_, fun hsame => ?_⟩
  · rw [renderAnsible, mergeAndFilter_mass, massPrint, if_pos rfl, massRead, if_pos rfl]
    decide +kernel
  · exact absurd hsame.hostvars (by decide +kernel)

end Output

end UnifiedApi
