import UnifiedApi.Application.Output

/-! # What pruning leaves of a host's groups

Groups that list no host that is left are dropped one by one, and the children
lists that name them stay. A group that a host left over belongs to, itself or
through its children, is never one of them. -/

namespace UnifiedApi.Output

/-- `host` is in the group `name` or in one below it; the children may lead in
circles. -/
inductive Belongs (groups : StrMap Group) (host : String) : String → Prop
  | member {name : String} {group : Group} (hgroup : groups[name]? = some group)
      (hhost : host ∈ group.hosts) : Belongs groups host name
  | child {name next : String} {group : Group} (hgroup : groups[name]? = some group)
      (hnext : next ∈ group.children) (hbelow : Belongs groups host next) :
      Belongs groups host name

theorem Belongs.exists_group {groups : StrMap Group} {host name : String}
    (h : Belongs groups host name) :
    ∃ group, groups[name]? = some group ∧ (host ∈ group.hosts ∨ group.children ≠ []) := by
  cases h with
  | member hgroup hhost => exact ⟨_, hgroup, .inl hhost⟩
  | child hgroup hnext _ => exact ⟨_, hgroup, .inr (List.ne_nil_of_mem hnext)⟩

/-- What a group contributes to a host: its variables, the groups below it and
whether it lists the host. -/
structure GroupView where
  children : List String
  vars : Option HostVars
  listed : Prop

open Classical in
/-- What the variables of `host` are resolved from, next to its own: the groups
it belongs to. -/
noncomputable def hostView (groups : StrMap Group) (host name : String) : Option GroupView :=
  if Belongs groups host name then
    groups[name]?.map fun group => ⟨group.children, group.vars, host ∈ group.hosts⟩
  else none

/-! ## One group -/

/-- What is kept of a group has the surviving hosts and all else. -/
theorem prune_eq_some {hostvars : StrMap HostVars} {group kept : Group}
    (h : prune hostvars group = some kept) :
    kept = { group with hosts := group.hosts.filter hostvars.contains } := by
  unfold prune at h
  split at h <;> exact (Option.some.inj (Option.ite_none_left_eq_some.mp h).2).symm

/-- A group goes only if no surviving host is in it and nothing is below it. -/
theorem prune_eq_none {hostvars : StrMap HostVars} {group : Group}
    (h : prune hostvars group = none) :
    group.children = [] ∧ ∀ host ∈ group.hosts, host ∉ hostvars := by
  unfold prune at h
  split at h
  · obtain ⟨hhosts, hchildren⟩ := by simpa using h
    exact ⟨hchildren, hhosts⟩
  · rename_i hhosts
    obtain ⟨hchildren, _⟩ := by simpa using h
    have hnone : group.hosts = [] := by simpa using hhosts
    exact ⟨hchildren, by simp [hnone]⟩

/-! ## All of them -/

section
variable {hostvars : StrMap HostVars} {groups : StrMap Group} {host : String}

theorem getElem?_pruned (name : String) :
    (groups.filterMap fun _ => prune hostvars)[name]? = groups[name]?.bind (prune hostvars) :=
  Std.ExtTreeMap.getElem?_filterMap'

/-- A group that a surviving host belongs to is kept. -/
theorem prune_of_belongs (hhost : host ∈ hostvars) {name : String} {group : Group}
    (hgroup : groups[name]? = some group) (h : Belongs groups host name) :
    (groups.filterMap fun _ => prune hostvars)[name]? =
      some { group with hosts := group.hosts.filter hostvars.contains } := by
  obtain ⟨found, hfound, hkeeps⟩ := h.exists_group
  obtain rfl := Option.some.inj (hgroup.symm.trans hfound)
  rw [getElem?_pruned, hgroup, Option.bind_some]
  cases hpruned : prune hostvars group with
  | none =>
    obtain ⟨hchildren, hgone⟩ := prune_eq_none hpruned
    obtain hlisted | hbelow := hkeeps
    · exact absurd hhost (hgone host hlisted)
    · exact absurd hchildren hbelow
  | some kept => rw [prune_eq_some hpruned]

theorem belongs_of_pruned {name : String}
    (h : Belongs (groups.filterMap fun _ => prune hostvars) host name) :
    Belongs groups host name := by
  induction h with
  | member hgroup hlisted =>
    rw [getElem?_pruned] at hgroup
    obtain ⟨group, hfound, hpruned⟩ := Option.bind_eq_some_iff.mp hgroup
    rw [prune_eq_some hpruned] at hlisted
    exact .member hfound (List.mem_of_mem_filter hlisted)
  | child hgroup hnext _ ih =>
    rw [getElem?_pruned] at hgroup
    obtain ⟨group, hfound, hpruned⟩ := Option.bind_eq_some_iff.mp hgroup
    rw [prune_eq_some hpruned] at hnext
    exact .child hfound hnext ih

theorem pruned_of_belongs (hhost : host ∈ hostvars) {name : String}
    (h : Belongs groups host name) :
    Belongs (groups.filterMap fun _ => prune hostvars) host name := by
  induction h with
  | member hgroup hlisted =>
    refine .member (prune_of_belongs hhost hgroup (.member hgroup hlisted)) ?_
    exact List.mem_filter.mpr ⟨hlisted, Std.ExtTreeMap.contains_iff_mem.mpr hhost⟩
  | child hgroup hnext hbelow ih =>
    exact .child (prune_of_belongs hhost hgroup (.child hgroup hnext hbelow)) hnext ih

theorem belongs_pruned_iff (hhost : host ∈ hostvars) (name : String) :
    Belongs (groups.filterMap fun _ => prune hostvars) host name ↔ Belongs groups host name :=
  ⟨belongs_of_pruned, pruned_of_belongs hhost⟩

theorem hostView_pruned (hhost : host ∈ hostvars) :
    hostView (groups.filterMap fun _ => prune hostvars) host = hostView groups host := by
  funext name
  by_cases h : Belongs groups host name
  · obtain ⟨group, hgroup, _⟩ := h.exists_group
    have hcontains : hostvars.contains host = true := Std.ExtTreeMap.contains_iff_mem.mpr hhost
    rw [hostView, hostView, if_pos h, if_pos (pruned_of_belongs hhost h),
      prune_of_belongs hhost hgroup h, hgroup]
    simp [hcontains]
  · rw [hostView, hostView, if_neg h, if_neg fun hpruned => h (belongs_of_pruned hpruned)]

end

/-! ## `exclude_fields` before it -/

theorem belongs_shaped_iff (select : VarSelect) {groups : StrMap Group} {host name : String} :
    Belongs (groups.map fun _ => select.group) host name ↔ Belongs groups host name := by
  constructor
  · intro h
    induction h with
    | member hgroup hlisted =>
      rw [StrMap.getElem?_map] at hgroup
      obtain ⟨group, hfound, rfl⟩ := Option.map_eq_some_iff.mp hgroup
      exact .member hfound hlisted
    | child hgroup hnext _ ih =>
      rw [StrMap.getElem?_map] at hgroup
      obtain ⟨group, hfound, rfl⟩ := Option.map_eq_some_iff.mp hgroup
      exact .child hfound hnext ih
  · intro h
    induction h with
    | @member name group hgroup hlisted =>
      have hshaped : (groups.map fun _ => select.group)[name]? = some (select.group group) := by
        rw [StrMap.getElem?_map, hgroup, Option.map_some]
      exact .member hshaped hlisted
    | @child name next group hgroup hnext _ ih =>
      have hshaped : (groups.map fun _ => select.group)[name]? = some (select.group group) := by
        rw [StrMap.getElem?_map, hgroup, Option.map_some]
      exact .child hshaped hnext ih

/-! ## The pruning of `merge_and_filter` -/

section
variable {ops : TextOps} {config : StrMap String} {params : Json}

/-- The merged groups are shaped, then pruned by what is left of the hosts. -/
theorem mergeAndFilter_groups {filter : HostFilter}
    (hfilter : hostFilter ops config params = .ok filter) (datasets : StrMap Dataset) :
    (mergeAndFilter ops datasets config params).groups =
      ((merge datasets).groups.map fun _ => (varSelect config params).group).filterMap fun _ =>
        prune (mergeAndFilter ops datasets config params).hostvars := by
  unfold mergeAndFilter
  rw [hfilter]
  cases hidentity : (varSelect config params).isIdentity with
  | true =>
    have hgroups : ((merge datasets).groups.map fun _ => (varSelect config params).group) =
        (merge datasets).groups := by
      apply Std.ExtTreeMap.ext_getElem?
      intro name
      rw [StrMap.getElem?_map]
      cases (merge datasets).groups[name]? <;> simp [VarSelect.group_of_isIdentity hidentity]
    simp [hidentity, hgroups]
  | false => simp [hidentity]

end

/-- A host that is left belongs to the groups it belonged to, and each has what
it had but for the hosts that are gone and the fields that are excluded. -/
theorem pruning_keeps_groups (ops : TextOps) (datasets : StrMap Dataset)
    (config : StrMap String) (params : Json) (hostvars : StrMap HostVars)
    (groups : StrMap Group) (host : String) :
    (host ∈ hostvars →
      (∀ name, Belongs (groups.filterMap fun _ => prune hostvars) host name ↔
        Belongs groups host name) ∧
      hostView (groups.filterMap fun _ => prune hostvars) host = hostView groups host) ∧
    (host ∈ (mergeAndFilter ops datasets config params).hostvars →
      (∀ name, Belongs (mergeAndFilter ops datasets config params).groups host name ↔
        Belongs (merge datasets).groups host name) ∧
      hostView (mergeAndFilter ops datasets config params).groups host =
        hostView ((merge datasets).groups.map fun _ => (varSelect config params).group) host) := by
  refine ⟨fun hhost => ⟨belongs_pruned_iff hhost, hostView_pruned hhost⟩, fun hhost => ?_⟩
  cases hfilter : hostFilter ops config params with
  | error e =>
    rw [mergeAndFilter_error hfilter] at hhost
    exact absurd hhost Std.ExtTreeMap.not_mem_empty
  | ok filter =>
    rw [mergeAndFilter_groups hfilter]
    refine ⟨fun name => ?_, hostView_pruned hhost⟩
    rw [belongs_pruned_iff hhost, belongs_shaped_iff]

/-- Two groups below each other, one of which lists a host that is left, and a
group whose only host is gone. -/
def cyclicGroups : StrMap Group :=
  (((∅ : StrMap Group).insert "web" { hosts := ["web1"], children := ["apps"] }).insert "apps"
    { children := ["web"]
      vars := some ((∅ : HostVars).insert "port" (.string "80")) }).insert "old"
    { hosts := ["web0"] }

theorem cyclicGroups_kept :
    Belongs (cyclicGroups.filterMap fun _ => prune ((∅ : StrMap HostVars).insert "web1" ∅))
      "web1" "apps" := by
  have hweb : cyclicGroups["web"]? = some { hosts := ["web1"], children := ["apps"] } := by
    decide +kernel
  have happs : cyclicGroups["apps"]? = some {
      children := ["web"]
      vars := some ((∅ : HostVars).insert "port" (.string "80")) } := by
    decide +kernel
  have hbelow : Belongs cyclicGroups "web1" "apps" :=
    .child happs List.mem_cons_self (.member hweb List.mem_cons_self)
  have hhost : "web1" ∈ (∅ : StrMap HostVars).insert "web1" ∅ := by decide
  exact (((pruning_keeps_groups ⟨id, fun _ => none, fun _ => []⟩ ∅ ∅ .null _ cyclicGroups
    "web1").1 hhost).1 "apps").mpr hbelow

end UnifiedApi.Output
