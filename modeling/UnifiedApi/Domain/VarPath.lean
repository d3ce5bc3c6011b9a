import UnifiedApi.Domain.Dataset

/-! # Dotted paths into hostvars

`monitor.name` is the `name` key of the `monitor` object; a top-level key of
that exact name wins. A path walks into objects only. -/

namespace UnifiedApi

namespace Json

/-- Setting a field of an object, whose fields stay sorted. -/
def setField (name : String) (value : Json) : List (String × Json) → List (String × Json)
  | [] => [(name, value)]
  | (key, old) :: rest =>
    if name < key then (name, value) :: (key, old) :: rest
    else if name = key then (name, value) :: rest
    else (key, old) :: setField name value rest

def removeField (name : String) (fields : List (String × Json)) : List (String × Json) :=
  fields.filter (·.1 != name)

def field? : Json → String → Option Json
  | object fields, name => fields.lookup name
  | _, _ => none

def isObject : Json → Bool
  | object _ => true
  | _ => false

/-- What a `serde_json::Value` can be. -/
inductive Canonical : Json → Prop
  | null : Canonical null
  | bool (b : Bool) : Canonical (bool b)
  | number (n : Number) : Canonical (number n)
  | string (s : String) : Canonical (string s)
  | array {items : List Json} (h : ∀ item ∈ items, Canonical item) : Canonical (array items)
  | object {fields : List (String × Json)} (hsorted : (fields.map Prod.fst).Pairwise (· < ·))
      (h : ∀ field ∈ fields, Canonical field.2) : Canonical (object fields)

end Json

namespace VarPath

def segments (path : String) : List String := (path.toList.splitOn '.').map String.ofList

/-- The value at `path`, unless a step is missing or no object. -/
def lookup (vars : HostVars) (path : String) : Option Json :=
  vars[path]?.or <| match segments path with
    | [] => none
    | root :: rest => vars[root]?.bind fun value => rest.foldlM Json.field? value

/-- Objects of the path's names are created as needed. -/
def insertPath : Json → List String → Json → Json
  | target, [], _ => target
  | .object fields, [last], value => .object (Json.setField last value fields)
  | .object fields, segment :: rest, value =>
    let child := (fields.lookup segment).getD (.object [])
    .object (Json.setField segment (insertPath child rest value) fields)
  | target, _ :: _, _ => target

def removePath : Json → List String → Json
  | .object fields, [last] => .object (Json.removeField last fields)
  | .object fields, next :: rest => match fields.lookup next with
    | some child => .object (Json.setField next (removePath child rest) fields)
    | none => .object fields
  | value, _ => value

/-- One path of `fields`. -/
def keepPath (vars out : HostVars) (path : String) : HostVars :=
  match vars[path]? with
  | some value => out.insert path value
  | none => match lookup vars path, segments path with
    | some value, root :: rest => match out[root]? with
      | none => out.insert root (insertPath (.object []) rest value)
      -- kept whole already
      | some kept => if kept.isObject then out.insert root (insertPath kept rest value) else out
    | _, _ => out

/-- A fresh map that holds only the paths. -/
def keepPaths (vars : HostVars) (paths : List String) : HostVars := paths.foldl (keepPath vars) ∅

def dropPath (vars : HostVars) (path : String) : HostVars :=
  if vars.contains path then vars.erase path
  else match segments path with
    | root :: next :: rest => match vars[root]? with
      | some value => vars.insert root (removePath value (next :: rest))
      | none => vars
    | _ => vars

def dropPaths (vars : HostVars) (paths : List String) : HostVars := paths.foldl dropPath vars

end VarPath

/-- `keep` is `fields`; `drop` is `exclude_fields`, the only half that applies
to group vars. -/
structure VarSelect where
  keep : Option (List String)
  drop : List String

namespace VarSelect

/-- Nothing to shape. -/
def isIdentity (select : VarSelect) : Bool := select.keep.isNone && select.drop.isEmpty

def host (select : VarSelect) (vars : HostVars) : HostVars :=
  let out := match select.keep with
    | none => vars
    | some paths => VarPath.keepPaths vars paths
  VarPath.dropPaths out select.drop

def groupVars (select : VarSelect) (vars : HostVars) : HostVars :=
  VarPath.dropPaths vars select.drop

/-- A group with `exclude_fields` applied to its vars. -/
def group (shape : VarSelect) (group : Group) : Group :=
  { group with vars := group.vars.map shape.groupVars }

@[simp]
theorem host_of_isIdentity {select : VarSelect} (h : select.isIdentity = true) (vars : HostVars) :
    select.host vars = vars := by
  obtain ⟨hkeep, hdrop⟩ := Bool.and_eq_true_iff.mp h
  rw [host, Option.isNone_iff_eq_none.mp hkeep, List.isEmpty_iff.mp hdrop]
  rfl

@[simp]
theorem group_of_isIdentity {select : VarSelect} (h : select.isIdentity = true)
    (unshaped : Group) : select.group unshaped = unshaped := by
  obtain ⟨_, hdrop⟩ := Bool.and_eq_true_iff.mp h
  obtain ⟨hosts, children, vars⟩ := unshaped
  have hvars : vars.map select.groupVars = vars := by
    cases vars <;> simp [groupVars, List.isEmpty_iff.mp hdrop, VarPath.dropPaths]
  rw [group, hvars]

end VarSelect

end UnifiedApi
