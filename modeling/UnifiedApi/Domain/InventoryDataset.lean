import UnifiedApi.Domain.InventoryWalk
import UnifiedApi.Domain.JsonPaths

/-! # What an inventory's dataset holds

Of the tree and of the files of variables: which declarations reach the
dataset, and which are lost. -/

namespace UnifiedApi.StaticInventory

section
variable (ops : TextOps) (parser : String → Yaml.Events)

/-- A variable of a name's files. -/
def FileVar (files : VarsFiles) (owner name : String) : Prop :=
  ∃ parts part value, files[owner]? = some parts ∧ part ∈ parts ∧
    Yaml.toJson ops (parser part.2) = .ok value ∧ name ∈ varNames value

end

section
variable {ops : TextOps} {parser : String → Yaml.Events}

/-! ## The files -/

theorem varsFile_done {kind : String} {vars vars' : HostVars} {part : String × String}
    (h : varsFile ops parser kind vars part = .ok vars') :
    ∃ value, Yaml.toJson ops (parser part.2) = .ok value ∧
      ∀ name, name ∈ vars' ↔ name ∈ vars ∨ name ∈ varNames value := by
  unfold varsFile at h
  obtain ⟨_, -, h⟩ := Results.ok_of_bind h
  split at h
  · cases h
  · rename_i value hvalue
    split at h
    · cases h
    · rename_i fileVars hvars
      cases h
      exact ⟨value, hvalue, fun name => by rw [mem_extend, mem_yamlVars hvars]⟩

theorem parts_done {kind : String} {parts : List (String × String)} {vars vars' : HostVars}
    (h : parts.foldlM (varsFile ops parser kind) vars = .ok vars') (name : String) :
    name ∈ vars' ↔ name ∈ vars ∨ ∃ part ∈ parts, ∃ value,
      Yaml.toJson ops (parser part.2) = .ok value ∧ name ∈ varNames value := by
  induction parts generalizing vars with
  | nil =>
    cases h
    simp
  | cons part rest ih =>
    rw [List.foldlM_cons] at h
    obtain ⟨between, hpart, h⟩ := Results.ok_of_bind h
    obtain ⟨value, hvalue, hmem⟩ := varsFile_done hpart
    rw [ih h, hmem, or_assoc]
    simp [hvalue]

theorem entries_done {kind : String} {entries : List (String × List (String × String))}
    {parsed parsed' : StrMap HostVars} (hnodup : (entries.map Prod.fst).Nodup)
    (h : entries.foldlM (fun (parsed : StrMap HostVars) entry => do
      return parsed.insert entry.1 (← entry.2.foldlM (varsFile ops parser kind) ∅)) parsed =
        .ok parsed') (owner : String) :
    match entries.lookup owner with
    | none => parsed'[owner]? = parsed[owner]?
    | some parts => ∃ vars, parsed'[owner]? = some vars ∧
        parts.foldlM (varsFile ops parser kind) ∅ = .ok vars := by
  induction entries generalizing parsed with
  | nil =>
    cases h
    rfl
  | cons entry rest ih =>
    obtain ⟨first, parts⟩ := entry
    obtain ⟨hfresh, hrest⟩ := List.nodup_cons.mp hnodup
    rw [List.foldlM_cons] at h
    obtain ⟨between, hentry, h⟩ := Results.ok_of_bind h
    obtain ⟨vars, hvars, hentry⟩ := Results.ok_of_bind hentry
    cases hentry
    have hdone := ih hrest h
    rw [Json.lookup_cons_ite]
    by_cases hsame : owner = first
    · subst hsame
      rw [StrMap.lookup_eq_none_iff.mpr hfresh] at hdone
      rw [if_pos rfl]
      exact ⟨vars, by simpa using hdone, hvars⟩
    · rw [if_neg hsame]
      simpa [StrMap.getElem?_insert, Ne.symm hsame] using hdone

theorem parseVarsFiles_done {files : VarsFiles} {kind : String} {parsed : StrMap HostVars}
    (h : parseVarsFiles ops parser files kind = .ok parsed) (owner : String) :
    (owner ∈ parsed ↔ owner ∈ files) ∧
      ∀ name, name ∈ parsed[owner]?.getD ∅ ↔ FileVar ops parser files owner name := by
  have hnodup : (files.toList.map Prod.fst).Nodup := by
    rw [Std.ExtTreeMap.map_fst_toList_eq_keys]
    exact Std.ExtTreeMap.nodup_keys
  have hdone := entries_done hnodup h owner
  rw [StrMap.lookup_toList] at hdone
  unfold FileVar
  cases hparts : files[owner]? with
  | none =>
    rw [hparts] at hdone
    have hnone : parsed[owner]? = none := hdone.trans (by simp)
    simp [StrMap.mem_iff, hnone, hparts]
  | some parts =>
    rw [hparts] at hdone
    obtain ⟨vars, hvars, hfold⟩ := hdone
    refine ⟨by simp [StrMap.mem_iff, hvars, hparts], fun name => ?_⟩
    rw [hvars, Option.getD_some, parts_done hfold]
    simp

/-! ## The dataset -/

/-- What there is to an accepted input: a tree, its walk, and the files. -/
structure Parsed (ops : TextOps) (parser : String → Yaml.Events)
    (input : StaticInventoryInput) where
  root : List (String × Json)
  walk : Walk
  groupFileVars : StrMap HostVars
  hostFileVars : StrMap HostVars
  tree : Yaml.toJson ops (parser input.inventory) = .ok (.object root)
  gathers : Gathers root {} walk
  groupFiles : parseVarsFiles ops parser input.groupVars "group_vars" = .ok groupFileVars
  hostFiles : parseVarsFiles ops parser input.hostVars "host_vars" = .ok hostFileVars

namespace Parsed

variable {input : StaticInventoryInput}

def dataset (parsed : Parsed ops parser input) : Dataset :=
  StaticInventory.dataset parsed.walk parsed.groupFileVars parsed.hostFileVars

def warnings (parsed : Parsed ops parser input) : List String :=
  StaticInventory.warnings parsed.walk parsed.groupFileVars parsed.hostFileVars

end Parsed

theorem parse_done {input : StaticInventoryInput} {result : Dataset × List String}
    (h : parse ops parser input = .ok result) :
    ∃ parsed : Parsed ops parser input, result = (parsed.dataset, parsed.warnings) := by
  unfold parse at h
  obtain ⟨_, -, h⟩ := Results.ok_of_bind h
  split at h
  · cases h
  · rename_i root hroot
    obtain ⟨groupFileVars, hgroup, h⟩ := Results.ok_of_bind h
    obtain ⟨hostFileVars, hhost, h⟩ := Results.ok_of_bind h
    obtain ⟨walk, hwalk, h⟩ := Results.ok_of_bind h
    cases h
    exact ⟨⟨root, walk, groupFileVars, hostFileVars, hroot, walk_gathers hwalk, hgroup, hhost⟩,
      rfl⟩
  · cases h

/-- What an emitted group says of itself. -/
def Says (group : Group) : Item → Prop
  | .itself => True
  | .host host => host ∈ group.hosts
  | .child child => child ∈ group.children
  | .var name => ∃ vars, group.vars = some vars ∧ name ∈ vars

def InDataset (dataset : Dataset) (name : String) (item : Item) : Prop :=
  ∃ group, dataset.groups[name]? = some group ∧ Says group item

def HostInDataset (dataset : Dataset) : HostItem → Prop
  | .itself host => host ∈ dataset.hostvars
  | .var host name => ∃ vars, dataset.hostvars[host]? = some vars ∧ name ∈ vars

/-- A record is emitted whole, with the files' variables. -/
theorem says_emit_iff (groupFileVars : StrMap HostVars) (name : String) (info : GroupInfo)
    (item : Item) : Says (emit groupFileVars name info) item ↔
      info.Has item ∨ ∃ var, item = .var var ∧ var ∈ groupFileVars[name]?.getD ∅ := by
  cases item with
  | itself => simp [GroupInfo.Has, Says]
  | host host => simp [GroupInfo.Has, Says, emit]
  | child child => simp [GroupInfo.Has, Says, emit]
  | var var =>
    have hmem : var ∈ effectiveVars groupFileVars name info ↔
        var ∈ info.inlineVars ∨ var ∈ groupFileVars[name]?.getD ∅ := mem_extend
    have hsome : (∃ vars, (emit groupFileVars name info).vars = some vars ∧ var ∈ vars) ↔
        var ∈ effectiveVars groupFileVars name info := by
      simp only [emit, Option.filter_eq_some_iff, Option.some.injEq]
      constructor
      · intro h
        obtain ⟨vars, ⟨rfl, -⟩, hvar⟩ := h
        exact hvar
      · intro hvar
        refine ⟨_, ⟨rfl, ?_⟩, hvar⟩
        rw [Bool.not_eq_true', ← Bool.not_eq_true, Std.ExtTreeMap.isEmpty_iff]
        intro hempty
        rw [hempty] at hvar
        simp at hvar
    rw [Says, hsome, hmem]
    simp [GroupInfo.Has]

theorem DeclaredHost.itself {root : List (String × Json)} {host name : String}
    (h : DeclaredHost root (.var host name)) : DeclaredHost root (.itself host) := by
  obtain ⟨group, fields, hgroup, hosts, hfield, vars, hmem, -⟩ := h
  exact ⟨group, fields, hgroup, hosts, hfield, List.mem_map.mpr ⟨_, hmem, rfl⟩⟩

namespace Parsed

variable {input : StaticInventoryInput}

theorem has_iff (parsed : Parsed ops parser input) (name : String) (item : Item) :
    parsed.walk.Has name item ↔ DeclaredOutermost parsed.root name item := by
  rw [parsed.gathers.groups]
  simp [Walk.Has]

theorem hasHost_iff (parsed : Parsed ops parser input) (item : HostItem) :
    parsed.walk.HasHost item ↔ DeclaredHost parsed.root item := by
  rw [parsed.gathers.hosts]
  cases item <;> simp [Walk.HasHost]

theorem group_iff (parsed : Parsed ops parser input) (name : String) :
    name ∈ parsed.walk.groups ↔ ∃ node, Describes parsed.root name node := by
  have hhas := parsed.has_iff name .itself
  simp only [Walk.Has, GroupInfo.Has, and_true, ← StrMap.mem_iff_exists] at hhas
  rw [hhas]
  constructor
  · intro h
    obtain ⟨node, houter, -⟩ := h
    exact ⟨node, houter.describes⟩
  · intro h
    obtain ⟨node, hnode⟩ := h
    obtain ⟨outer, houter⟩ := hnode.outermost
    refine ⟨outer, houter, ?_⟩
    cases outer <;> simp [Declares]

theorem host_iff (parsed : Parsed ops parser input) (host : String) :
    host ∈ parsed.dataset.hostvars ↔ DeclaredHost parsed.root (.itself host) := by
  rw [← parsed.hasHost_iff]
  simp [dataset, StaticInventory.dataset, Walk.HasHost]

/-- The dataset has what the outermost descriptions declare and what the
files of a described group add, `ungrouped` apart. -/
theorem inDataset_iff (parsed : Parsed ops parser input) (name : String) (item : Item) :
    InDataset parsed.dataset name item ↔ name ≠ "ungrouped" ∧
      (DeclaredOutermost parsed.root name item ∨ (∃ node, Describes parsed.root name node) ∧
        ∃ var, item = .var var ∧ FileVar ops parser input.groupVars name var) := by
  have hfiles := (parseVarsFiles_done parsed.groupFiles name).2
  rw [← parsed.has_iff, ← parsed.group_iff, StrMap.mem_iff_exists]
  unfold InDataset Walk.Has
  simp only [dataset, StaticInventory.dataset, StrMap.getElem?_map, StrMap.getElem?_filter_keys]
  by_cases hname : name = "ungrouped"
  · simp [hname]
  · cases hinfo : parsed.walk.groups[name]? with
    | none => simp [hname]
    | some info => simp [hname, says_emit_iff, hfiles]

theorem hostInDataset_iff (parsed : Parsed ops parser input) (item : HostItem) :
    HostInDataset parsed.dataset item ↔ DeclaredHost parsed.root item ∨
      ∃ host var, item = .var host var ∧ DeclaredHost parsed.root (.itself host) ∧
        FileVar ops parser input.hostVars host var := by
  cases item with
  | itself host =>
    rw [HostInDataset, host_iff]
    simp
  | var host var =>
    have hfiles := (parseVarsFiles_done parsed.hostFiles host).2 var
    have hinline : var ∈ parsed.walk.hostInlineVars[host]?.getD ∅ ↔
        DeclaredHost parsed.root (.var host var) := by
      rw [← parsed.hasHost_iff, Walk.HasHost]
      cases parsed.walk.hostInlineVars[host]? <;> simp
    have hvars : var ∈ hostVarsOf parsed.walk parsed.hostFileVars host ↔
        DeclaredHost parsed.root (.var host var) ∨
          FileVar ops parser input.hostVars host var := by
      rw [hostVarsOf, mem_extend, mem_extend, hfiles, hinline]
      simp
    have hin : HostInDataset parsed.dataset (.var host var) ↔
        host ∈ parsed.dataset.hostvars ∧
          var ∈ hostVarsOf parsed.walk parsed.hostFileVars host := by
      rw [HostInDataset, StrMap.mem_iff_exists]
      simp only [dataset, StaticInventory.dataset, StrMap.getElem?_map]
      cases parsed.walk.hostMemberships[host]? <;> simp
    rw [hin, parsed.host_iff, hvars]
    constructor
    · intro h
      obtain ⟨hhost, hinline | hfile⟩ := h
      · exact .inl hinline
      · exact .inr ⟨host, var, rfl, hhost, hfile⟩
    · intro h
      obtain hinline | ⟨_, _, heq, hhost, hfile⟩ := h
      · exact ⟨hinline.itself, .inl hinline⟩
      · cases heq
        exact ⟨hhost, .inr hfile⟩

end Parsed

/-! ## The structure of the inventory -/

/-- Everything that the tree declares is in the dataset. -/
structure Conserved (root : List (String × Json)) (dataset : Dataset) : Prop where
  hosts : ∀ item, DeclaredHost root item → HostInDataset dataset item
  groups : ∀ name node, Describes root name node → name ≠ "ungrouped" →
    ∀ item, Declares node item → InDataset dataset name item

/-- An inventory's structure is conserved exactly if what a description of a
group declares inside another description of it is also declared by one that
stands in no other, or is a variable of the group's files. -/
theorem conserved_iff {input : StaticInventoryInput} {dataset : Dataset} {warnings : List String}
    (h : parse ops parser input = .ok (dataset, warnings)) :
    ∃ root, Yaml.toJson ops (parser input.inventory) = .ok (.object root) ∧
      (Conserved root dataset ↔ ∀ name node, Describes root name node → name ≠ "ungrouped" →
        ∀ item, Declares node item → DeclaredOutermost root name item ∨
          ∃ var, item = .var var ∧ FileVar ops parser input.groupVars name var) := by
  obtain ⟨parsed, hresult⟩ := parse_done h
  cases hresult
  refine ⟨parsed.root, parsed.tree, ?_⟩
  constructor
  · intro hconserved name node hnode hname item hitem
    obtain ⟨-, houter | ⟨-, hfile⟩⟩ :=
      (parsed.inDataset_iff name item).mp (hconserved.groups name node hnode hname item hitem)
    · exact .inl houter
    · exact .inr hfile
  · intro hdeclared
    refine ⟨fun item hitem => (parsed.hostInDataset_iff item).mpr (.inl hitem), ?_⟩
    intro name node hnode hname item hitem
    refine (parsed.inDataset_iff name item).mpr ⟨hname, ?_⟩
    obtain houter | hfile := hdeclared name node hnode hname item hitem
    · exact .inl houter
    · exact .inr ⟨⟨node, hnode⟩, hfile⟩

end

/-- `{web: {hosts: {web1: }, children: {NAME: {hosts: {web2: }}}}}` -/
def webWithin (name : String) : Yaml.Events :=
  [.streamStart, .documentStart, .mappingStart 0,
    .scalar "web" .plain 0 none, .mappingStart 0,
    .scalar "hosts" .plain 0 none, .mappingStart 0,
    .scalar "web1" .plain 0 none, .scalar "" .plain 0 none, .mappingEnd,
    .scalar "children" .plain 0 none, .mappingStart 0,
    .scalar name .plain 0 none, .mappingStart 0,
    .scalar "hosts" .plain 0 none, .mappingStart 0,
    .scalar "web2" .plain 0 none, .scalar "" .plain 0 none, .mappingEnd,
    .mappingEnd, .mappingEnd, .mappingEnd, .mappingEnd, .documentEnd, .streamEnd].map .ok

def webRoot (name : String) : List (String × Json) :=
  [("web", .object [("children", .object [(name, .object [("hosts", .object [("web2", .null)])])]),
    ("hosts", .object [("web1", .null)])])]

theorem dbWithin_outermost {name : String} {node : Json}
    (h : Describes (webRoot "db") name node) : Outermost name (webRoot "db") node := by
  cases h with
  | here h => exact .here h
  | under hparent hfield h =>
    have hpair := List.mem_singleton.mp hparent
    cases hpair
    obtain hfield | hfield := List.mem_cons.mp hfield
    · cases hfield
      cases h with
      | here h =>
        obtain ⟨rfl, -⟩ := Prod.mk.inj (List.mem_singleton.mp h)
        exact .under List.mem_cons_self (by decide) List.mem_cons_self (.here h)
      | under hparent hfield _ =>
        cases List.mem_singleton.mp hparent
        exact absurd (Prod.mk.inj (List.mem_singleton.mp hfield)).1 (by decide)
    · exact absurd (Prod.mk.inj (List.mem_singleton.mp hfield)).1 (by decide)

theorem dbWithin_conserved : ∃ result,
    parse .wordsOnly (fun _ => webWithin "db") { inventory := "" } = .ok result ∧
      Conserved (webRoot "db") result.1 := by
  have hok : (parse .wordsOnly (fun _ => webWithin "db") { inventory := "" }).toOption.isSome =
      true := by decide +kernel
  have htree : Yaml.toJson .wordsOnly (webWithin "db") = .ok (.object (webRoot "db")) := by
    decide +kernel
  obtain ⟨result, h⟩ := Results.ok_of_isSome hok
  obtain ⟨root, hroot, hiff⟩ := conserved_iff h
  cases htree.symm.trans hroot
  refine ⟨result, h, hiff.mpr ?_⟩
  intro name node hnode _ item hitem
  exact .inl ⟨node, dbWithin_outermost hnode, hitem⟩

/-- The host that the inner description declares is in no group. -/
theorem webWithin_not_conserved : ∃ result,
    parse .wordsOnly (fun _ => webWithin "web") { inventory := "" } = .ok result ∧
      Yaml.toJson .wordsOnly (webWithin "web") = .ok (.object (webRoot "web")) ∧
      ¬ Conserved (webRoot "web") result.1 := by
  have hok : (parse .wordsOnly (fun _ => webWithin "web") { inventory := "" }).toOption.map
      (fun result => result.1.groups["web"]?.map Group.hosts) = some (some ["web1"]) := by
    decide +kernel
  have htree : Yaml.toJson .wordsOnly (webWithin "web") = .ok (.object (webRoot "web")) := by
    decide +kernel
  obtain ⟨result, h, hhosts⟩ := Results.ok_of_toOption_map hok
  refine ⟨result, h, htree, ?_⟩
  intro hconserved
  have hinner : Describes (webRoot "web") "web" (.object [("hosts", .object [("web2", .null)])]) :=
    .under List.mem_cons_self List.mem_cons_self (.here List.mem_cons_self)
  have hitem : Declares (.object [("hosts", .object [("web2", .null)])]) (.host "web2") :=
    .inr ⟨_, List.mem_cons_self, List.mem_cons_self⟩
  obtain ⟨group, hgroup, hhost⟩ := hconserved.groups _ _ hinner (by decide) _ hitem
  rw [hgroup, Option.map_some] at hhosts
  have hmem : "web2" ∈ group.hosts := hhost
  rw [Option.some.inj hhosts] at hmem
  exact absurd hmem (by decide)

end UnifiedApi.StaticInventory
