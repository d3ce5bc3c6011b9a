import Mathlib.Data.List.Dedup
import Mathlib.Data.List.Sort
import UnifiedApi.Domain.AnsibleInventory
import UnifiedApi.Domain.Yaml

/-! # Static YAML inventories

A tree of groups, with files of variables for groups and hosts. Variables stay
where they are declared. What the YAML parser makes of a file is a parameter;
maps are gone through in the order of their keys. -/

namespace UnifiedApi.StaticInventory

/-- A name's files are in the order they merge, each with a label for errors. -/
abbrev VarsFiles := StrMap (List (String × String))

structure StaticInventoryInput where
  inventory : String
  groupVars : VarsFiles := ∅
  hostVars : VarsFiles := ∅

structure GroupInfo where
  hosts : List String := []
  children : List String := []
  inlineVars : HostVars := ∅

structure Walk where
  groups : StrMap GroupInfo := ∅
  /-- The groups that each host appears under. -/
  hostMemberships : StrMap (List String) := ∅
  hostInlineVars : StrMap HostVars := ∅

/-- `vars` with all of `more`, whose values win. -/
def extend (vars more : HostVars) : HostVars :=
  more.foldl (fun vars name value => vars.insert name value) vars

@[simp] theorem mem_extend {vars more : HostVars} {name : String} :
    name ∈ extend vars more ↔ name ∈ vars ∨ name ∈ more := by
  rw [StrMap.mem_iff, StrMap.mem_iff, StrMap.mem_iff, extend, StrMap.getElem?_insertAll]
  cases more[name]? <;> simp

/-- No variables, or an object's. -/
def yamlVars : Json → Except String HostVars
  | .null => .ok ∅
  | .object fields => .ok (Json.ofFields fields)
  | _ => .error "vars must be a mapping"

/-- The names of the variables in an object. -/
def varNames : Json → List String
  | .object fields => fields.map Prod.fst
  | _ => []

theorem mem_yamlVars {value : Json} {vars : HostVars} (h : yamlVars value = .ok vars)
    (name : String) : name ∈ vars ↔ name ∈ varNames value := by
  cases value with
  | null =>
    cases h
    simp [varNames]
  | object fields =>
    cases h
    exact Json.mem_ofFields
  | bool b | number n | string s | array items => cases h

/-- An encrypted file is not data. -/
def checkNotVaulted (what contents : String) : Except String Unit :=
  if "$ANSIBLE_VAULT".toList.isPrefixOf (contents.toList.dropWhile Text.isWhitespace) then
    .error (what ++ " is ansible-vault encrypted — unified-api cannot decrypt it")
  else .ok ()

/-! ## The walk -/

namespace Walk

/-- A host of the group, with its inline variables. -/
def host (name host : String) (hostVars : Json) :
    GroupInfo × Walk → Except String (GroupInfo × Walk)
  | (info, walk) =>
    if host.toList.contains '[' then
      .error ("host '" ++ host ++ "' looks like an Ansible range pattern, which is not supported")
    else
      match yamlVars hostVars with
      | .error e => .error ("host '" ++ host ++ "': " ++ e)
      | .ok vars =>
        .ok ({ info with hosts := info.hosts ++ [host] },
          { walk with
            hostMemberships :=
              walk.hostMemberships.alter host fun groups => some (groups.getD [] ++ [name])
            hostInlineVars :=
              walk.hostInlineVars.alter host fun inline => some (extend (inline.getD ∅) vars) })

def hosts (name : String) (value : Json) (acc : GroupInfo × Walk) :
    Except String (GroupInfo × Walk) :=
  match value with
  | .object hosts => hosts.foldlM (fun acc field => Walk.host name field.1 field.2 acc) acc
  | _ => .error ("group '" ++ name ++ "': hosts must be a mapping of hostnames")

def vars (name : String) (value : Json) : GroupInfo × Walk → Except String (GroupInfo × Walk)
  | (info, walk) =>
    match yamlVars value with
    | .error e => .error ("group '" ++ name ++ "': " ++ e)
    | .ok vars => .ok ({ info with inlineVars := extend info.inlineVars vars }, walk)

mutual
/-- The description of a group, added to what earlier ones left of it. That is
held out of the map while the children are walked. -/
def group (name : String) (node : Json) (walk : Walk) : Except String Walk := do
  let info := walk.groups[name]?.getD {}
  let walk := { walk with groups := walk.groups.erase name }
  match node with
  | .object mapping =>
    let (info, walk) ← fields name mapping (info, walk)
    return { walk with groups := walk.groups.insert name info }
  | .null => return { walk with groups := walk.groups.insert name info }
  | _ => .error ("group '" ++ name ++ "' must be a mapping (hosts/children/vars) or empty")

def field (name key : String) (value : Json) (acc : GroupInfo × Walk) :
    Except String (GroupInfo × Walk) :=
  if key = "hosts" then hosts name value acc
  else if key = "children" then match value with
    | .object nodes => children nodes acc
    | _ => .error ("group '" ++ name ++ "': children must be a mapping of groups")
  else if key = "vars" then vars name value acc
  else .error ("group '" ++ name ++ "': unknown key '" ++ key ++
    "' (expected hosts/children/vars)")

def fields (name : String) : List (String × Json) → GroupInfo × Walk →
    Except String (GroupInfo × Walk)
  | [], acc => .ok acc
  | (key, value) :: rest, acc => do
    let acc ← field name key value acc
    fields name rest acc

def children : List (String × Json) → GroupInfo × Walk → Except String (GroupInfo × Walk)
  | [], acc => .ok acc
  | (child, node) :: rest, (info, walk) => do
    let walk ← group child node walk
    children rest ({ info with children := info.children ++ [child] }, walk)
end

end Walk

/-! ## The files -/

section
variable (ops : TextOps) (parser : String → Yaml.Events)

/-- One file of a name's variables, after the files before it. -/
def varsFile (kind : String) (vars : HostVars) (part : String × String) :
    Except String HostVars := do
  let file := kind ++ "/" ++ part.1
  checkNotVaulted file part.2
  match Yaml.toJson ops (parser part.2) with
  | .error e => .error (file ++ " is not valid YAML: " ++ e)
  | .ok value => match yamlVars value with
    | .error e => .error (file ++ ": " ++ e)
    | .ok fileVars => return extend vars fileVars

def parseVarsFiles (files : VarsFiles) (kind : String) : Except String (StrMap HostVars) :=
  files.toList.foldlM (fun parsed entry => do
    return parsed.insert entry.1 (← entry.2.foldlM (varsFile ops parser kind) ∅)) ∅

/-! ## The dataset -/

def groupWarning (name : String) : String :=
  "group_vars/" ++ name ++ " has no matching group in the inventory"

def hostWarning (name : String) : String :=
  "host_vars/" ++ name ++ " has no matching host in the inventory"

/-- Files that no group or host has. `all` needs none. -/
def warnings (walk : Walk) (groupFileVars hostFileVars : StrMap HostVars) : List String :=
  ((groupFileVars.keys.filter fun name => !walk.groups.contains name && name != "all").map
    groupWarning) ++
    (hostFileVars.keys.filter fun name => !walk.hostMemberships.contains name).map hostWarning

/-- A host's own variables. -/
def hostVarsOf (walk : Walk) (hostFileVars : StrMap HostVars) (host : String) : HostVars :=
  extend (extend ∅ (walk.hostInlineVars[host]?.getD ∅)) (hostFileVars[host]?.getD ∅)

/-- A group's inline variables, its files' winning. -/
def effectiveVars (groupFileVars : StrMap HostVars) (name : String) (info : GroupInfo) :
    HostVars :=
  extend info.inlineVars (groupFileVars[name]?.getD ∅)

def emit (groupFileVars : StrMap HostVars) (name : String) (info : GroupInfo) : Group where
  hosts := (info.hosts.insertionSort (· ≤ ·)).dedup
  children := (info.children.insertionSort (· ≤ ·)).dedup
  vars := some (effectiveVars groupFileVars name info) |>.filter (!·.isEmpty)

/-- `ungrouped` stays out. -/
def dataset (walk : Walk) (groupFileVars hostFileVars : StrMap HostVars) : Dataset where
  hostvars := walk.hostMemberships.map fun host _ => hostVarsOf walk hostFileVars host
  groups := (walk.groups.filter fun name _ => name != "ungrouped").map (emit groupFileVars)

def parse (input : StaticInventoryInput) : Except String (Dataset × List String) := do
  checkNotVaulted "inventory file" input.inventory
  match Yaml.toJson ops (parser input.inventory) with
  | .error e => .error ("inventory file is not valid YAML: " ++ e)
  | .ok (.object root) =>
    let groupFileVars ← parseVarsFiles ops parser input.groupVars "group_vars"
    let hostFileVars ← parseVarsFiles ops parser input.hostVars "host_vars"
    let walk ← root.foldlM (fun walk field => walk.group field.1 field.2) {}
    return (dataset walk groupFileVars hostFileVars, warnings walk groupFileVars hostFileVars)
  | .ok _ => .error "inventory file must be a YAML mapping of groups"

end

end UnifiedApi.StaticInventory
