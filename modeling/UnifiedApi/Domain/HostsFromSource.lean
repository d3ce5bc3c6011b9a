import UnifiedApi.Domain.View

/-! # The hosts a source takes from another's dataset

A pattern selects the hosts to gather. The scope the source advertises is the
same pattern, and a view member's claim is resolved against the same dataset. -/

namespace UnifiedApi

structure HostSpec where
  name : String
  /-- Tried in order. -/
  addresses : List String
  deriving DecidableEq

/-- `Vec::dedup`: equal neighbours become one. -/
def dedup : List String → List String
  | [] => []
  | name :: rest => match dedup rest with
    | [] => [name]
    | next :: others => if name = next then next :: others else name :: next :: others

/-- What is selected so far, and what is said about it. -/
structure Selected (α : Type) where
  items : List α := []
  warnings : List String := []
  deriving DecidableEq

namespace HostsFromSource
variable (hfs : HostsFromSource) (dataset : Dataset)

/-- Group members may lack a hostvars entry. -/
def pickGroup (selected : Selected String) (group : String) : Selected String :=
  match dataset.groups[group]? with
  | some g => { selected with items := selected.items ++ g.hosts }
  | none => { selected with warnings := selected.warnings ++
      ["match_pattern group '" ++ group ++ "' does not exist in source '" ++ hfs.source ++ "'"] }

def pickHost (selected : Selected String) (host : String) : Selected String :=
  if dataset.knows host then { selected with items := selected.items ++ [host] }
  else { selected with warnings := selected.warnings ++
      ["match_pattern host '" ++ host ++ "' does not exist in source '" ++ hfs.source ++ "'"] }

def pick : Selected String :=
  if hfs.matchPattern.isEmpty then { items := dataset.hostvars.keys }
  else hfs.matchPattern.hosts.foldl (hfs.pickHost dataset)
    (hfs.matchPattern.groups.foldl (hfs.pickGroup dataset) {})

/-- None for a host that has no address of the kind asked for. -/
def addresses (host : String) : Option (List String) :=
  let ansibleHost := match dataset.hostvars[host]?.bind (·["ansible_host"]?) with
    | some (.string address) => some address
    | _ => none
  match hfs.connectVia, ansibleHost with
  | .hostname, _ => some [host]
  | .ansibleHost, some address => some [address]
  | .ansibleHost, none => none
  | .ansibleHostThenHostname, some address => some [address, host]
  | .ansibleHostThenHostname, none => some [host]
  | .hostnameThenAnsibleHost, some address => some [host, address]
  | .hostnameThenAnsibleHost, none => some [host]

def addSpec (specs : Selected HostSpec) (host : String) : Selected HostSpec :=
  match hfs.addresses dataset host with
  | some addresses => { specs with items := specs.items ++ [⟨host, dedup addresses⟩] }
  | none => { specs with warnings := specs.warnings ++ ["host '" ++ host ++
      "' has no ansible_host variable and connect_via is ansible_host — skipped"] }

/-- The hosts that the pattern selects, in order, each once. -/
def resolve : Selected HostSpec :=
  let picked := hfs.pick dataset
  (dedup picked.items.mergeSort).foldl (hfs.addSpec dataset) { warnings := picked.warnings }

end HostsFromSource

/-! ## What is selected -/

theorem mem_dedup {names : List String} {name : String} : name ∈ dedup names ↔ name ∈ names := by
  induction names with
  | nil => rfl
  | cons first rest ih =>
    rw [List.mem_cons, ← ih, dedup]
    split
    · rename_i hnil
      simp [hnil]
    · rename_i next others hcons
      rw [hcons]
      split
      · rename_i heq
        simp [heq]
      · exact List.mem_cons

namespace HostsFromSource
variable {hfs : HostsFromSource} {dataset : Dataset} {host : String}

theorem mem_pickGroups (groups : List String) (selected : Selected String) :
    host ∈ (groups.foldl (hfs.pickGroup dataset) selected).items ↔
      host ∈ selected.items ∨ ∃ group ∈ groups, dataset.groupLists group host = true := by
  induction groups generalizing selected with
  | nil => simp
  | cons group rest ih =>
    rw [List.foldl_cons, ih]
    have hgroup : host ∈ (hfs.pickGroup dataset selected group).items ↔
        host ∈ selected.items ∨ dataset.groupLists group host = true := by
      unfold pickGroup Dataset.groupLists
      cases dataset.groups[group]? <;> simp [Group.lists]
    rw [hgroup, or_assoc]
    simp

theorem mem_pickHosts (hosts : List String) (selected : Selected String) :
    host ∈ (hosts.foldl (hfs.pickHost dataset) selected).items ↔
      host ∈ selected.items ∨ (host ∈ hosts ∧ dataset.knows host = true) := by
  induction hosts generalizing selected with
  | nil => simp
  | cons first rest ih =>
    rw [List.foldl_cons, ih]
    have hfirst : host ∈ (hfs.pickHost dataset selected first).items ↔
        host ∈ selected.items ∨ (host = first ∧ dataset.knows host = true) := by
      unfold pickHost
      by_cases hknown : dataset.knows first = true
      · rw [if_pos hknown, List.mem_append, List.mem_singleton]
        refine or_congr_right ⟨fun h => ⟨h, h ▸ hknown⟩, And.left⟩
      · rw [if_neg hknown]
        refine ⟨.inl, fun h => h.resolve_right ?_⟩
        intro h
        obtain ⟨rfl, hknown'⟩ := h
        exact hknown hknown'
    rw [hfirst, or_assoc, List.mem_cons, or_and_right]

theorem mem_pick : host ∈ (hfs.pick dataset).items ↔
    if hfs.matchPattern.isEmpty then host ∈ dataset.hostvars
    else (∃ group ∈ hfs.matchPattern.groups, dataset.groupLists group host = true) ∨
      (host ∈ hfs.matchPattern.hosts ∧ dataset.knows host = true) := by
  unfold pick
  split
  · exact Std.ExtTreeMap.mem_keys
  · rw [mem_pickHosts, mem_pickGroups]
    simp

theorem addSpec_hostname (hvia : hfs.connectVia = .hostname) (hosts : List String)
    (specs : Selected HostSpec) :
    (hosts.foldl (hfs.addSpec dataset) specs).items.map (·.name) =
      specs.items.map (·.name) ++ hosts := by
  induction hosts generalizing specs with
  | nil => simp
  | cons first rest ih =>
    have haddresses : hfs.addresses dataset first = some [first] := by
      unfold addresses
      rw [hvia]
    rw [List.foldl_cons, ih, addSpec, haddresses]
    simp

/-- Dialled by their names, the hosts that are gathered are those picked. -/
theorem mem_resolve (hvia : hfs.connectVia = .hostname) :
    host ∈ (hfs.resolve dataset).items.map (·.name) ↔ host ∈ (hfs.pick dataset).items := by
  rw [resolve, addSpec_hostname hvia]
  simp [mem_dedup]

end HostsFromSource

/-- The member's claim that a scope stands for. -/
def ScopeClaim.owns (claim : ScopeClaim) (source : String) : Ownership where
  source
  groups := claim.groups
  hosts := claim.hosts
  advertised := true

/-- Every host of the inventory that the advertised pattern claims is gathered. -/
def GathersClaimed (source : Source) (hfs : HostsFromSource) (dataset : Dataset) : Prop :=
  ∀ claim, source.advertisedScope = some claim → ∀ host,
    (claim.owns hfs.source).claims dataset host = true → dataset.knows host = true →
      host ∈ (hfs.resolve dataset).items.map (·.name)

/-- **What is advertised is gathered** just when the pattern names something, or
the inventory has variables for every member of its groups. -/
theorem gathersClaimed_iff {source : Source} {hfs : HostsFromSource}
    (hhosts : source.hostsFromSource = some hfs) (hscope : source.advertiseScope = none)
    (hvia : hfs.connectVia = .hostname) (dataset : Dataset) :
    GathersClaimed source hfs dataset ↔
      hfs.matchPattern.isEmpty = false ∨
        ∀ host, dataset.knows host = true → host ∈ dataset.hostvars := by
  have hclaim : source.advertisedScope = some
      ⟨hfs.matchPattern.groups, hfs.matchPattern.hosts, hfs.matchPattern.isEmpty⟩ := by
    rw [Source.advertisedScope, hscope, hhosts]
    rfl
  simp only [GathersClaimed, hclaim, Option.some.injEq, forall_eq',
    HostsFromSource.mem_resolve hvia,
    HostsFromSource.mem_pick, Ownership.claims, Ownership.isCatchAll, ScopeClaim.owns]
  change (∀ host, (if hfs.matchPattern.isEmpty = true then _ else _) = true → _) ↔ _
  cases hempty : hfs.matchPattern.isEmpty with
  | true => simp
  | false =>
    simp only [Bool.false_eq_true, if_false, Bool.or_eq_true, List.any_eq_true, beq_iff_eq,
      true_or, iff_true]
    intro host h hknown
    obtain ⟨_, hhost, rfl⟩ | hgroup := h
    · exact .inr ⟨hhost, hknown⟩
    · exact .inl hgroup

/-- Everything that the inventory has, by name. -/
def everyHost : HostsFromSource := { source := "inventory" }

def gathersEveryHost : Source :=
  { connectorType := .ssh, ttlSeconds := 3600, hostsFromSource := some everyHost }

/-- A host of a group, with or without variables of its own. -/
def inventoryOf (hostvars : StrMap HostVars) : Dataset :=
  { hostvars, groups := (∅ : StrMap Group).insert "web" { hosts := ["web1"] } }

theorem gathersClaimed_withVariables :
    GathersClaimed gathersEveryHost everyHost
        (inventoryOf ((∅ : StrMap HostVars).insert "web1" ∅)) ↔
      everyHost.matchPattern.isEmpty = false ∨
        ∀ host, (inventoryOf ((∅ : StrMap HostVars).insert "web1" ∅)).knows host = true →
          host ∈ (∅ : StrMap HostVars).insert "web1" ∅ :=
  gathersClaimed_iff rfl rfl rfl _

/-- A host known only through its group is claimed and never gathered. -/
theorem memberOnly_not_gathered : ¬GathersClaimed gathersEveryHost everyHost (inventoryOf ∅) := by
  intro h
  have hgathered := h ⟨[], [], true⟩ rfl "web1" (by decide) (by decide)
  rw [HostsFromSource.mem_resolve rfl] at hgathered
  exact absurd hgathered (by decide)

end UnifiedApi
