import UnifiedApi.Domain.VarPath
import UnifiedApi.Lib.Results

/-! # Reading Ansible dynamic inventory JSON

Hostvars live under `_meta.hostvars` and groups are top-level keys, an object or
a plain list of hostnames. What does not parse is an error that names the group,
never a silent skip. -/

namespace UnifiedApi

namespace Json

/-- An object's fields as a map. -/
def ofFields {α : Type} (fields : List (String × α)) : StrMap α :=
  fields.foldl (fun map field => map.insert field.1 field.2) ∅

def asString? : Json → Option String
  | string s => some s
  | _ => none

def asStrings? : Json → Option (List String)
  | array items => items.mapM asString?
  | _ => none

def asMap? : Json → Option (StrMap Json)
  | object fields => some (ofFields fields)
  | _ => none

def typeName : Json → String
  | null => "null"
  | bool _ => "a boolean"
  | number _ => "a number"
  | string _ => "a string"
  | array _ => "an array"
  | object _ => "an object"

theorem ofFields_toList {α : Type} (map : StrMap α) : ofFields map.toList = map := by
  apply Std.ExtTreeMap.ext_getElem?
  intro key
  refine (StrMap.getElem?_foldl_toList StrMap.keyStep_insert map ∅ key).trans ?_
  cases map[key]? <;> simp

theorem mem_ofFields {α : Type} {fields : List (String × α)} {key : String} :
    key ∈ ofFields fields ↔ key ∈ fields.map Prod.fst := by
  have hfold : ∀ map : StrMap α, key ∈ fields.foldl (fun (map : StrMap α) field =>
      map.insert field.1 field.2) map ↔ key ∈ map ∨ key ∈ fields.map Prod.fst := by
    induction fields with
    | nil => simp
    | cons field rest ih =>
      intro map
      rw [List.foldl_cons, ih, Std.ExtTreeMap.mem_insert, Std.LawfulEqCmp.compare_eq_iff_eq,
        List.map_cons, List.mem_cons, eq_comm, or_left_comm, or_assoc, or_left_comm]
  exact (hfold ∅).trans (by simp)

theorem asMap?_object (map : StrMap Json) : (object map.toList).asMap? = some map := by
  rw [asMap?, ofFields_toList]

theorem asStrings?_strings (names : List String) :
    (array (names.map string)).asStrings? = some names := by
  induction names with
  | nil => rfl
  | cons name rest ih => simp_all [asStrings?, asString?]

end Json

inductive InventoryError where
  | notAnObject
  | oldFormat
  | hostvarsMalformed
  | listEntry (group : String)
  | noGroupKey (group : String) (found : List String)
  | groupMalformed (group : String)
  | groupType (group found : String)
  deriving DecidableEq

/-- `reason` is what the deserializer says of a value that does not fit. -/
def InventoryError.message (reason : String) : InventoryError → String
  | notAnObject => "expected a JSON object at the top level"
  | oldFormat => "this is the \x7b\"hostvars\", \"groups\"\x7d format, which 0.36 no longer " ++
      "reads: print Ansible inventory JSON, with host variables under _meta.hostvars and " ++
      "each group as a top-level key"
  | hostvarsMalformed => "_meta.hostvars is malformed: " ++ reason
  | listEntry group => "group '" ++ group ++
      "' uses the list form but contains a non-string entry"
  | noGroupKey group found => "group '" ++ group ++
      "' has none of hosts, children or vars (it has " ++ ", ".intercalate found ++ ")"
  | groupMalformed group => "group '" ++ group ++ "' is malformed: " ++ reason
  | groupType group found => "group '" ++ group ++
      "' must be an object or a list of hostnames, got " ++ found

def isGroupKey (key : String) : Bool := key == "hosts" || key == "children" || key == "vars"

/-- An absent list of names is empty. -/
def namesField (fields : List (String × Json)) (key : String) : Option (List String) :=
  match fields.lookup key with
  | some value => value.asStrings?
  | none => some []

def varsField (fields : List (String × Json)) : Option (Option HostVars) :=
  match fields.lookup "vars" with
  | none | some .null => some none
  | some value => value.asMap?.map some

/-- A group's object as the derived deserializer reads it. -/
def groupFromFields (fields : List (String × Json)) : Option Group := do
  let hosts ← namesField fields "hosts"
  let children ← namesField fields "children"
  let vars ← varsField fields
  return { hosts, children, vars }

/-- One top-level group, with what there is to warn of. -/
def parseGroup (name : String) : Json → Except InventoryError (Group × List String)
  | .array items => match items.mapM Json.asString? with
    | some hosts => .ok ({ hosts }, [])
    | none => .error (.listEntry name)
  | .object fields =>
    let keys := fields.map (·.1)
    if !keys.isEmpty && !keys.any isGroupKey then .error (.noGroupKey name keys)
    else
      let extra := keys.filter fun key => !isGroupKey key
      let warnings := if extra.isEmpty then []
        else ["group '" ++ name ++ "': " ++ ", ".intercalate extra ++
          " ignored — a group takes hosts, children and vars"]
      match groupFromFields fields with
      | some group => .ok (group, warnings)
      | none => .error (.groupMalformed name)
  | other => .error (.groupType name other.typeName)

/-- What has been read so far. -/
structure InventoryReading where
  hostvars : StrMap HostVars
  groups : StrMap Group := ∅
  warnings : List String := []
  deriving DecidableEq

/-- Hosts that nothing else remembers have no variables. -/
def addHosts (hostvars : StrMap HostVars) (hosts : List String) : StrMap HostVars :=
  hosts.foldl (fun hostvars host =>
    if hostvars.contains host then hostvars else hostvars.insert host ∅) hostvars

/-- A meta-group says which hosts there are and is not kept. -/
def InventoryReading.addGroup (reading : InventoryReading) (name : String) (value : Json) :
    Except InventoryError InventoryReading :=
  if name == "_meta" then .ok reading
  else (parseGroup name value).map fun parsed =>
    if isMetaGroup name then
      { reading with
        hostvars := addHosts reading.hostvars parsed.1.hosts
        warnings := reading.warnings ++ parsed.2 ++
          if parsed.1.vars.any (!·.isEmpty) then
            ["meta-group '" ++ name ++ "' carries vars that are dropped in the conversion"]
          else [] }
    else
      { reading with
        groups := reading.groups.insert name parsed.1
        warnings := reading.warnings ++ parsed.2 }

/-- A map of objects keyed by host or group names, not a group. -/
def isOldShape (fields : List (String × Json)) (key : String) : Bool :=
  match fields.lookup key with
  | some (.object entries) =>
    entries.all (·.2.isObject) && !entries.any fun entry => isGroupKey entry.1
  | _ => false

/-- What a script could print before 0.36. -/
def isOldFormat (fields : List (String × Json)) : Bool :=
  (fields.lookup "_meta").isNone && (isOldShape fields "hostvars" || isOldShape fields "groups")

def readHostvars : Json → Option (StrMap HostVars)
  | .object fields =>
    (fields.mapM fun (field : String × Json) => field.2.asMap?.map (field.1, ·)).map Json.ofFields
  | _ => none

/-- `_meta` without hostvars is accepted: nothing has variables. -/
def startReading (fields : List (String × Json)) : Except InventoryError InventoryReading :=
  match fields.lookup "_meta" with
  | some metadata => match metadata.field? "hostvars" with
    | some raw => match readHostvars raw with
      | some hostvars => .ok { hostvars }
      | none => .error .hostvarsMalformed
    | none => .ok { hostvars := ∅ }
  | none => .ok {
      hostvars := ∅
      warnings := ["no _meta.hostvars in inventory output — hosts will have no variables"] }

def readGroups (start : InventoryReading) (fields : List (String × Json)) :
    Except InventoryError InventoryReading :=
  fields.foldlM (fun reading field => reading.addGroup field.1 field.2) start

/-- The dataset, and what to warn of. -/
def fromAnsibleInventory : Json → Except InventoryError (Dataset × List String)
  | .object fields =>
    if isOldFormat fields then .error .oldFormat
    else ((startReading fields).bind (readGroups · fields)).map fun reading =>
      ({ hostvars := reading.hostvars, groups := reading.groups }, reading.warnings)
  | _ => .error .notAnObject

/-! ## Hosts named in groups -/

theorem mem_addHosts {hostvars : StrMap HostVars} {hosts : List String} {a : String} :
    a ∈ addHosts hostvars hosts ↔ a ∈ hostvars ∨ a ∈ hosts := by
  unfold addHosts
  induction hosts generalizing hostvars with
  | nil => simp
  | cons host rest ih =>
    rw [List.foldl_cons, ih, List.mem_cons, ← or_assoc]
    refine or_congr_left ?_
    split
    · rename_i hcontains
      refine (or_iff_left_of_imp fun heq => ?_).symm
      rw [heq]
      exact Std.ExtTreeMap.contains_iff_mem.mp hcontains
    · rw [Std.ExtTreeMap.mem_insert, Std.LawfulEqCmp.compare_eq_iff_eq, or_comm, eq_comm]

theorem addHosts_of_mem {hostvars : StrMap HostVars} {hosts : List String}
    (h : ∀ host ∈ hosts, host ∈ hostvars) : addHosts hostvars hosts = hostvars := by
  unfold addHosts
  induction hosts with
  | nil => rfl
  | cons host rest ih =>
    have hhost := h host List.mem_cons_self
    rw [List.foldl_cons, if_pos (Std.ExtTreeMap.contains_iff_mem.mpr hhost)]
    exact ih fun other hother => h other (List.mem_cons_of_mem _ hother)

namespace Dataset

/-- Every host that a group names has variables, if only none. -/
def Closed (dataset : Dataset) : Prop :=
  ∀ (name : String) (group : Group), dataset.groups[name]? = some group →
    ∀ host ∈ group.hosts, host ∈ dataset.hostvars

theorem addGroupMembers_hostvars_eq (dataset : Dataset) :
    dataset.addGroupMembers.hostvars = dataset.groups.toList.foldl
      (fun hostvars group => addHosts hostvars group.2.hosts) dataset.hostvars :=
  Std.ExtTreeMap.foldl_eq_foldl_toList

theorem mem_addGroupMembers (dataset : Dataset) (host : String) :
    host ∈ dataset.addGroupMembers.hostvars ↔ host ∈ dataset.hostvars ∨
      ∃ (name : String) (group : Group), dataset.groups[name]? = some group ∧
        host ∈ group.hosts := by
  have hmem : ∀ (groups : List (String × Group)) (hostvars : StrMap HostVars),
      host ∈ groups.foldl (fun hostvars group => addHosts hostvars group.2.hosts) hostvars ↔
        host ∈ hostvars ∨ ∃ group ∈ groups, host ∈ group.2.hosts := by
    intro groups
    induction groups with
    | nil => simp
    | cons group rest ih =>
      intro hostvars
      rw [List.foldl_cons, ih, mem_addHosts, List.exists_mem_cons_iff, or_assoc]
  rw [addGroupMembers_hostvars_eq, hmem]
  simp [Std.ExtTreeMap.mem_toList_iff_getElem?_eq_some]

theorem closed_addGroupMembers (dataset : Dataset) : dataset.addGroupMembers.Closed :=
  fun name group hgroup host hhost =>
    (dataset.mem_addGroupMembers host).mpr (.inr ⟨name, group, hgroup, hhost⟩)

theorem addGroupMembers_of_closed {dataset : Dataset} (h : dataset.Closed) :
    dataset.addGroupMembers = dataset := by
  have hkept : ∀ groups : List (String × Group),
      (∀ group ∈ groups, ∀ host ∈ group.2.hosts, host ∈ dataset.hostvars) →
      groups.foldl (fun hostvars group => addHosts hostvars group.2.hosts) dataset.hostvars =
        dataset.hostvars := by
    intro groups hgroups
    induction groups with
    | nil => rfl
    | cons group rest ih =>
      rw [List.foldl_cons, addHosts_of_mem (hgroups group List.mem_cons_self)]
      exact ih fun other hother => hgroups other (List.mem_cons_of_mem _ hother)
  have hhostvars : dataset.addGroupMembers.hostvars = dataset.hostvars := by
    rw [addGroupMembers_hostvars_eq]
    exact hkept _ fun group hgroup =>
      h _ _ (Std.ExtTreeMap.mem_toList_iff_getElem?_eq_some.mp hgroup)
  calc dataset.addGroupMembers
    _ = { dataset with hostvars := dataset.addGroupMembers.hostvars } := rfl
    _ = dataset := by rw [hhostvars]

end Dataset

/-! ## What is read -/

/-- The implicit groups and `_meta` are never kept. -/
def OrdinaryNames (groups : StrMap Group) : Prop :=
  ∀ name ∈ groups, name ≠ "_meta" ∧ isMetaGroup name = false

/-- What one top-level key does to what has been read. -/
theorem InventoryReading.addGroup_cases {reading reading' : InventoryReading} {name : String}
    {value : Json} (h : reading.addGroup name value = .ok reading') :
    name = "_meta" ∧ reading' = reading ∨
    name ≠ "_meta" ∧ ∃ parsed, parseGroup name value = .ok parsed ∧
      (isMetaGroup name = true ∧ reading'.groups = reading.groups ∧
        reading'.hostvars = addHosts reading.hostvars parsed.1.hosts ∨
      isMetaGroup name = false ∧ reading'.groups = reading.groups.insert name parsed.1 ∧
        reading'.hostvars = reading.hostvars) := by
  unfold InventoryReading.addGroup at h
  split at h
  · rename_i hname
    exact .inl ⟨by simpa using hname, (Except.ok.inj h).symm⟩
  · rename_i hname
    obtain ⟨parsed, hparsed, rfl⟩ := Results.ok_of_map h
    refine .inr ⟨by simpa using hname, parsed, hparsed, ?_⟩
    cases hmeta : isMetaGroup name with
    | true => exact .inl ⟨rfl, rfl, rfl⟩
    | false => exact .inr ⟨rfl, rfl, rfl⟩

theorem InventoryReading.addGroup_ordinary {reading reading' : InventoryReading} {name : String}
    {value : Json} (h : OrdinaryNames reading.groups)
    (hadd : reading.addGroup name value = .ok reading') : OrdinaryNames reading'.groups := by
  obtain ⟨_, rfl⟩ | ⟨hname, parsed, _, ⟨_, hgroups, _⟩ | ⟨hmeta, hgroups, _⟩⟩ :=
    addGroup_cases hadd
  · exact h
  · rw [hgroups]
    exact h
  · rw [hgroups]
    intro other hother
    obtain heq | hold := Std.ExtTreeMap.mem_insert.mp hother
    · obtain rfl := Std.LawfulEqCmp.compare_eq_iff_eq.mp heq
      exact ⟨hname, hmeta⟩
    · exact h other hold

theorem readGroups_ordinary {fields : List (String × Json)} {start reading : InventoryReading}
    (h : OrdinaryNames start.groups) (hread : readGroups start fields = .ok reading) :
    OrdinaryNames reading.groups := by
  induction fields generalizing start with
  | nil =>
    obtain rfl := Except.ok.inj hread
    exact h
  | cons field rest ih =>
    rw [readGroups, List.foldlM_cons] at hread
    obtain ⟨mid, hadd, hrest⟩ := Results.ok_of_bind hread
    exact ih (InventoryReading.addGroup_ordinary h hadd) hrest

theorem startReading_groups {fields : List (String × Json)} {start : InventoryReading}
    (h : startReading fields = .ok start) : start.groups = ∅ := by
  unfold startReading at h
  split at h
  · split at h
    · split at h
      · rw [← Except.ok.inj h]
      · cases h
    · rw [← Except.ok.inj h]
  · rw [← Except.ok.inj h]

/-- An accepted document is an object whose groups were all read. -/
theorem fromAnsibleInventory_cases {value : Json} {dataset : Dataset} {warnings : List String}
    (h : fromAnsibleInventory value = .ok (dataset, warnings)) :
    ∃ fields start reading, value = .object fields ∧ startReading fields = .ok start ∧
      readGroups start fields = .ok reading ∧
      dataset = { hostvars := reading.hostvars, groups := reading.groups } := by
  cases value with
  | object fields =>
    rw [fromAnsibleInventory] at h
    split at h
    · cases h
    · obtain ⟨reading, hreading, hdone⟩ := Results.ok_of_map h
      obtain ⟨start, hstart, hread⟩ := Results.ok_of_bind hreading
      exact ⟨fields, start, reading, rfl, hstart, hread, (Prod.mk.inj hdone).1.symm⟩
  | null | bool b | number n | string s | array items => cases h

theorem fromAnsibleInventory_ordinary {value : Json} {dataset : Dataset} {warnings : List String}
    (h : fromAnsibleInventory value = .ok (dataset, warnings)) : OrdinaryNames dataset.groups := by
  obtain ⟨fields, start, reading, _, hstart, hread, rfl⟩ := fromAnsibleInventory_cases h
  refine readGroups_ordinary ?_ hread
  rw [startReading_groups hstart]
  intro name hname
  exact absurd hname Std.ExtTreeMap.not_mem_empty

end UnifiedApi
