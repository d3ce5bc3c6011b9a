import UnifiedApi.Lib.StrMap

/-! # A dataset: one Ansible inventory as a connector produces it -/

namespace UnifiedApi

/-- A JSON number as `serde_json` keeps it; floats by their bits. -/
inductive Number where
  | posInt (n : Nat)
  | negInt (n : Int)
  | float (bits : UInt64)
  deriving DecidableEq

/-- `serde_json::Value`. An object's fields are sorted by key, each key once. -/
inductive Json where
  | null
  | bool (b : Bool)
  | number (n : Number)
  | string (s : String)
  | array (items : List Json)
  | object (fields : List (String × Json))
  deriving Inhabited

mutual
def Json.decEq : (a b : Json) → Decidable (a = b)
  | .null, .null => isTrue rfl
  | .bool a, .bool b => decidable_of_iff (a = b) (by simp)
  | .number a, .number b => decidable_of_iff (a = b) (by simp)
  | .string a, .string b => decidable_of_iff (a = b) (by simp)
  | .array a, .array b => match Json.decEqItems a b with
    | isTrue h => isTrue (by rw [h])
    | isFalse h => isFalse (by simpa using h)
  | .object a, .object b => match Json.decEqFields a b with
    | isTrue h => isTrue (by rw [h])
    | isFalse h => isFalse (by simpa using h)
  | .null, .bool _ | .null, .number _ | .null, .string _ | .null, .array _ | .null, .object _
  | .bool _, .null | .bool _, .number _ | .bool _, .string _ | .bool _, .array _
  | .bool _, .object _
  | .number _, .null | .number _, .bool _ | .number _, .string _ | .number _, .array _
  | .number _, .object _
  | .string _, .null | .string _, .bool _ | .string _, .number _ | .string _, .array _
  | .string _, .object _
  | .array _, .null | .array _, .bool _ | .array _, .number _ | .array _, .string _
  | .array _, .object _
  | .object _, .null | .object _, .bool _ | .object _, .number _ | .object _, .string _
  | .object _, .array _ => isFalse (by simp)

def Json.decEqItems : (a b : List Json) → Decidable (a = b)
  | [], [] => isTrue rfl
  | [], _ :: _ | _ :: _, [] => isFalse (by simp)
  | x :: a, y :: b => match Json.decEq x y, Json.decEqItems a b with
    | isTrue h, isTrue hs => isTrue (by rw [h, hs])
    | isFalse h, _ => isFalse (by simp [h])
    | _, isFalse hs => isFalse (by simp [hs])

def Json.decEqFields : (a b : List (String × Json)) → Decidable (a = b)
  | [], [] => isTrue rfl
  | [], _ :: _ | _ :: _, [] => isFalse (by simp)
  | (k, x) :: a, (l, y) :: b =>
    match instDecidableEqString k l, Json.decEq x y, Json.decEqFields a b with
    | isTrue h, isTrue hx, isTrue hs => isTrue (by rw [h, hx, hs])
    | isFalse h, _, _ => isFalse (by simp [h])
    | _, isFalse hx, _ => isFalse (by simp [hx])
    | _, _, isFalse hs => isFalse (by simp [hs])
end

instance : DecidableEq Json := Json.decEq

/-- A host's variables: a free key-value dictionary. -/
abbrev HostVars := StrMap Json

/-- `all` and `ungrouped` mean "every host" and "no group": nobody states a
membership in them. -/
def isMetaGroup (name : String) : Bool := name == "all" || name == "ungrouped"

structure Group where
  hosts : List String := []
  children : List String := []
  vars : Option HostVars := none
  deriving DecidableEq

instance : Inhabited Group := ⟨{}⟩

structure Dataset where
  hostvars : StrMap HostVars := ∅
  groups : StrMap Group := ∅
  removeHosts : List String := []
  deriving DecidableEq

instance : Inhabited Dataset := ⟨{}⟩

/-- The group with `hostname` taken out of its members. -/
def Group.without (group : Group) (hostname : String) : Group :=
  { group with hosts := group.hosts.filter (· != hostname) }

/-- The group with `hostname` among its members, added at the end if missing. -/
def Group.joined (group : Group) (hostname : String) : Group :=
  if group.hosts.any (· == hostname) then group
  else { group with hosts := group.hosts ++ [hostname] }

namespace Dataset

/-- The names of the groups that list `hostname`. -/
def groupsOf (dataset : Dataset) (hostname : String) : List String :=
  (dataset.groups.toList.filter fun p => p.2.hosts.any (· == hostname)).map Prod.fst

/-- A full sync's dataset: a host named only in a group is a host with no
variables. -/
def addGroupMembers (dataset : Dataset) : Dataset :=
  { dataset with
    hostvars := dataset.groups.foldl (fun hostvars _ group =>
      group.hosts.foldl (fun hostvars host =>
        if hostvars.contains host then hostvars else hostvars.insert host ∅) hostvars)
      dataset.hostvars }

/-- Hosts that have variables keep them. -/
theorem addGroupMembers_hostvars {dataset : Dataset} {host : String} {vars : HostVars}
    (h : dataset.hostvars[host]? = some vars) :
    dataset.addGroupMembers.hostvars[host]? = some vars := by
  have hinsert : ∀ (members : List String) (hostvars : StrMap HostVars),
      hostvars[host]? = some vars →
      (members.foldl (fun hostvars member =>
        if hostvars.contains member then hostvars else hostvars.insert member ∅)
        hostvars)[host]? = some vars := by
    intro members
    induction members with
    | nil => exact fun hostvars hhost => hhost
    | cons member rest ih =>
      intro hostvars hhost
      refine ih _ ?_
      dsimp only
      split
      · exact hhost
      · rename_i hnew
        rw [StrMap.getElem?_insert, if_neg]
        · exact hhost
        · intro heq
          subst heq
          exact hnew (StrMap.mem_of_some hhost)
  unfold addGroupMembers
  rw [Std.ExtTreeMap.foldl_eq_foldl_toList]
  dsimp only
  generalize dataset.groups.toList = groups
  generalize dataset.hostvars = hostvars at h
  induction groups generalizing hostvars with
  | nil => exact h
  | cons group rest ih => exact ih _ (hinsert group.2.hosts hostvars h)

/-- One variable of one host. -/
def var? (dataset : Dataset) (host key : String) : Option Json :=
  dataset.hostvars[host]?.bind (·[key]?)

end Dataset

end UnifiedApi
