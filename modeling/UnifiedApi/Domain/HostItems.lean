import UnifiedApi.Domain.SourceDef
import UnifiedApi.Lib.Sorted

/-! # Settings for one host or one group, per source

Items of their own say how long a source's copy of a host stays fresh. They are
folded into the sources when the configuration is loaded, in whatever order the
maps give them. -/

namespace UnifiedApi

inductive ItemKind where
  | host | group
  deriving DecidableEq

def ItemKind.name : ItemKind → String
  | host => "Host"
  | group => "Group"

/-- The part of `ttl_overrides` that the kind is about. -/
def ItemKind.key : ItemKind → String
  | host => "hosts"
  | group => "groups"

structure PerSource where
  ttlSeconds : Nat
  deriving DecidableEq

structure HostDef where
  name : String
  sources : StrMap PerSource := ∅

structure GroupDef where
  name : String
  sources : StrMap PerSource := ∅

/-- What one item says of one source. -/
structure Setting where
  kind : ItemKind
  id : String
  sourceId : String
  ttlSeconds : Nat
  deriving DecidableEq

namespace TtlOverrides

def of (overrides : TtlOverrides) : ItemKind → StrMap Nat
  | .host => overrides.hosts
  | .group => overrides.groups

def add (overrides : TtlOverrides) (kind : ItemKind) (id : String) (ttlSeconds : Nat) :
    TtlOverrides :=
  match kind with
  | .host => { overrides with hosts := overrides.hosts.insert id ttlSeconds }
  | .group => { overrides with groups := overrides.groups.insert id ttlSeconds }

theorem of_add (overrides : TtlOverrides) (kind other : ItemKind) (id name : String)
    (ttlSeconds : Nat) : ((overrides.add kind id ttlSeconds).of other)[name]? =
      if kind = other ∧ id = name then some ttlSeconds else (overrides.of other)[name]? := by
  cases kind <;> cases other <;> simp [add, of, StrMap.getElem?_insert]

theorem ext_of {overrides other : TtlOverrides}
    (h : ∀ kind (name : String), (overrides.of kind)[name]? = (other.of kind)[name]?) :
    overrides = other := by
  obtain ⟨groups, hosts⟩ := overrides
  obtain ⟨groups', hosts'⟩ := other
  congr 1
  · exact Std.ExtTreeMap.ext_getElem? fun name => h .group name
  · exact Std.ExtTreeMap.ext_getElem? fun name => h .host name

end TtlOverrides

section
variable (views : List String)

/-- The sources so far, and the references that do not resolve. -/
structure Folded where
  sources : StrMap ResolvedSource
  errors : List String := []

def Setting.unknown (s : Setting) : String :=
  if views.contains s.sourceId then
    s.kind.name ++ " '" ++ s.id ++ "' names view '" ++ s.sourceId ++ "' — a view holds no copy " ++
      "of its own; name the member source that gathers the host instead"
  else s.kind.name ++ " '" ++ s.id ++ "' references unknown source '" ++ s.sourceId ++ "'"

def Setting.setTwice (s : Setting) : String :=
  s.kind.name ++ " '" ++ s.id ++ "' sets a TTL for source '" ++ s.sourceId ++ "', whose " ++
    "ttl_overrides." ++ s.kind.key ++ " already sets one for it — keep one of the two"

def foldSetting (folded : Folded) (s : Setting) : Folded :=
  match folded.sources[s.sourceId]? with
  | none => { folded with errors := folded.errors ++ [s.unknown views] }
  | some source =>
    if (source.ttlOverrides.of s.kind).contains s.id then
      { folded with errors := folded.errors ++ [s.setTwice] }
    else
      let source := { source with
        ttlOverrides := source.ttlOverrides.add s.kind s.id s.ttlSeconds }
      { folded with sources := folded.sources.insert s.sourceId source }

/-- The items in the order in which they come. -/
def foldIntoSources (settings : List Setting) (sources : StrMap ResolvedSource) : Folded :=
  let folded := settings.foldl (foldSetting views) ⟨sources, []⟩
  { folded with errors := folded.errors.mergeSort }

end

/-- What the items of a kind say. -/
def settingsOf (kind : ItemKind) (items : StrMap (StrMap PerSource)) : List Setting :=
  items.toList.flatMap fun (id, perSource) => perSource.toList.map fun (sourceId, per) =>
    ⟨kind, id, sourceId, per.ttlSeconds⟩

/-- Hosts first. -/
def itemSettings (hosts : StrMap HostDef) (groups : StrMap GroupDef) : List Setting :=
  settingsOf .host (hosts.map fun _ item => item.sources) ++
    settingsOf .group (groups.map fun _ item => item.sources)

/-- What the items of a kind say of a name for a source. -/
def itemTtl (hosts : StrMap HostDef) (groups : StrMap GroupDef) (kind : ItemKind)
    (name sourceId : String) : Option Nat :=
  match kind with
  | .host => (hosts[name]?.bind (·.sources[sourceId]?)).map (·.ttlSeconds)
  | .group => (groups[name]?.bind (·.sources[sourceId]?)).map (·.ttlSeconds)

/-! ## What is folded into a source -/

/-- What a setting does to the source of an id. -/
def addSetting (sourceId : String) (source : ResolvedSource) (s : Setting) : ResolvedSource :=
  if s.sourceId = sourceId ∧ (source.ttlOverrides.of s.kind).contains s.id = false then
    { source with ttlOverrides := source.ttlOverrides.add s.kind s.id s.ttlSeconds }
  else source

theorem addSettings_rest (settings : List Setting) (sourceId : String) (source : ResolvedSource) :
    settings.foldl (addSetting sourceId) source = { source with
      ttlOverrides := (settings.foldl (addSetting sourceId) source).ttlOverrides } := by
  induction settings generalizing source with
  | nil => rfl
  | cons s rest ih =>
    rw [List.foldl_cons, ih]
    unfold addSetting
    split <;> rfl

/-- The first setting of a name counts, where the source has none of its own. -/
theorem addSettings_getElem? (settings : List Setting) (sourceId : String)
    (source : ResolvedSource) (kind : ItemKind) (name : String) :
    ((settings.foldl (addSetting sourceId) source).ttlOverrides.of kind)[name]? =
      ((source.ttlOverrides.of kind)[name]?).or ((settings.find? fun s =>
        s.kind = kind ∧ s.id = name ∧ s.sourceId = sourceId).map (·.ttlSeconds)) := by
  induction settings generalizing source with
  | nil => simp
  | cons s rest ih =>
    rw [List.foldl_cons, ih, List.find?_cons]
    by_cases hkey : s.kind = kind ∧ s.id = name ∧ s.sourceId = sourceId
    · obtain ⟨rfl, rfl, rfl⟩ := hkey
      cases hown : (source.ttlOverrides.of s.kind)[s.id]? with
      | none =>
        have hadds : addSetting s.sourceId source s =
            { source with ttlOverrides := source.ttlOverrides.add s.kind s.id s.ttlSeconds } :=
          if_pos ⟨rfl, by rw [Std.ExtTreeMap.contains_eq_isSome_getElem?, hown]; rfl⟩
        simp [hadds, TtlOverrides.of_add]
      | some own =>
        have hkeeps : addSetting s.sourceId source s = source :=
          if_neg fun h => by simp [Std.ExtTreeMap.contains_eq_isSome_getElem?, hown] at h
        simp [hkeeps, hown]
    · have hsame : ((addSetting sourceId source s).ttlOverrides.of kind)[name]? =
          (source.ttlOverrides.of kind)[name]? := by
        unfold addSetting
        split
        · rename_i hadds
          rw [TtlOverrides.of_add, if_neg fun h => hkey ⟨h.1, h.2, hadds.1⟩]
        · rfl
      rw [hsame]
      simp [hkey]

section
variable {views : List String}

theorem foldSetting_sources (folded : Folded) (s : Setting) (sourceId : String) :
    (foldSetting views folded s).sources[sourceId]? =
      folded.sources[sourceId]?.map (addSetting sourceId · s) := by
  unfold foldSetting
  cases hsource : folded.sources[s.sourceId]? with
  | none =>
    by_cases hid : s.sourceId = sourceId
    · subst hid
      simp [hsource]
    · simp [addSetting, hid]
  | some source =>
    dsimp only
    split
    · rename_i hown
      by_cases hid : s.sourceId = sourceId
      · subst hid
        simp [hsource, addSetting, hown]
      · simp [addSetting, hid]
    · rename_i hown
      rw [StrMap.getElem?_insert]
      by_cases hid : s.sourceId = sourceId
      · subst hid
        simp [hsource, addSetting, hown]
      · simp [addSetting, hid]

theorem foldSettings_sources (settings : List Setting) (folded : Folded) (sourceId : String) :
    (settings.foldl (foldSetting views) folded).sources[sourceId]? =
      folded.sources[sourceId]?.map fun source => settings.foldl (addSetting sourceId) source := by
  induction settings generalizing folded with
  | nil => simp
  | cons s rest ih =>
    rw [List.foldl_cons, ih, foldSetting_sources, Option.map_map]
    rfl

/-! ## What is wrong -/

/-- What identifies a setting. -/
def Setting.key (s : Setting) : ItemKind × String × String := (s.kind, s.id, s.sourceId)

variable (views) in
/-- What is wrong with a setting for these sources. -/
def Setting.error? (sources : StrMap ResolvedSource) (s : Setting) : Option String :=
  match sources[s.sourceId]? with
  | none => some (s.unknown views)
  | some source =>
    if (source.ttlOverrides.of s.kind).contains s.id then some s.setTwice else none

theorem foldSetting_errors (folded : Folded) (s : Setting) :
    (foldSetting views folded s).errors =
      folded.errors ++ (s.error? views folded.sources).toList := by
  unfold foldSetting Setting.error?
  cases folded.sources[s.sourceId]? with
  | none => rfl
  | some source =>
    dsimp only
    split <;> simp

theorem error?_foldSetting {folded : Folded} {s other : Setting} (hne : s.key ≠ other.key) :
    other.error? views (foldSetting views folded s).sources =
      other.error? views folded.sources := by
  unfold Setting.error?
  rw [foldSetting_sources]
  cases folded.sources[other.sourceId]? with
  | none => rfl
  | some source =>
    have hsame : ((addSetting other.sourceId source s).ttlOverrides.of other.kind)[other.id]? =
        (source.ttlOverrides.of other.kind)[other.id]? := by
      unfold addSetting
      split
      · rename_i hadds
        rw [TtlOverrides.of_add, if_neg fun h => hne ?_]
        simp [Setting.key, h.1, h.2, hadds.1]
      · rfl
    simp only [Option.map_some, Std.ExtTreeMap.contains_eq_isSome_getElem?, hsame]

theorem foldSettings_errors {settings : List Setting} (hkeys : (settings.map Setting.key).Nodup)
    (folded : Folded) : (settings.foldl (foldSetting views) folded).errors =
      folded.errors ++ settings.filterMap (·.error? views folded.sources) := by
  induction settings generalizing folded with
  | nil => simp
  | cons s rest ih =>
    obtain ⟨hfresh, hrest⟩ := List.nodup_cons.mp hkeys
    have hsame : rest.filterMap (·.error? views (foldSetting views folded s).sources) =
        rest.filterMap (·.error? views folded.sources) := by
      refine List.filterMap_congr fun other hother => error?_foldSetting fun heq => hfresh ?_
      exact heq ▸ List.mem_map_of_mem hother
    rw [List.foldl_cons, ih hrest, hsame, foldSetting_errors, List.append_assoc]
    cases h : s.error? views folded.sources <;> simp [h]

end

/-! ## All items, in any order -/

variable {hosts : StrMap HostDef} {groups : StrMap GroupDef} {sources : StrMap ResolvedSource}

theorem mem_settingsOf {kind : ItemKind} {items : StrMap (StrMap PerSource)} {s : Setting} :
    s ∈ settingsOf kind items ↔ s.kind = kind ∧
      (items[s.id]?.bind (·[s.sourceId]?)).map (·.ttlSeconds) = some s.ttlSeconds := by
  simp only [settingsOf, List.mem_flatMap, List.mem_map, Prod.exists,
    Std.ExtTreeMap.mem_toList_iff_getElem?_eq_some, Option.map_eq_some_iff, Option.bind_eq_some_iff]
  constructor
  · rintro ⟨id, perSource, hitem, sourceId, per, hper, rfl⟩
    exact ⟨rfl, per, ⟨perSource, hitem, hper⟩, rfl⟩
  · rintro ⟨rfl, per, ⟨perSource, hitem, hper⟩, httl⟩
    exact ⟨s.id, perSource, hitem, s.sourceId, per, hper, by rw [httl]⟩

theorem nodup_settingsOf (kind : ItemKind) (items : StrMap (StrMap PerSource)) :
    ((settingsOf kind items).map Setting.key).Nodup := by
  have hids : items.toList.Pairwise fun a b => a.1 ≠ b.1 := by
    rw [← List.pairwise_map (f := Prod.fst) (R := (· ≠ ·)), Std.ExtTreeMap.map_fst_toList_eq_keys]
    exact Std.ExtTreeMap.nodup_keys
  rw [settingsOf, List.map_flatMap, List.nodup_flatMap]
  refine ⟨fun (id, perSource) _ => ?_, hids.imp fun {a b} hne => ?_⟩
  · have hkeys : (perSource.toList.map Prod.fst).Nodup := by
      rw [Std.ExtTreeMap.map_fst_toList_eq_keys]
      exact Std.ExtTreeMap.nodup_keys
    have hinj : Function.Injective fun sourceId : String => (kind, id, sourceId) :=
      fun _ _ h => (Prod.mk.inj (Prod.mk.inj h).2).2
    have hmap := hkeys.map hinj
    rw [List.map_map] at hmap ⊢
    exact hmap
  · refine List.disjoint_left.mpr fun key ha hb => ?_
    simp only [List.map_map, List.mem_map, Function.comp_apply, Setting.key] at ha hb
    obtain ⟨_, _, rfl⟩ := ha
    obtain ⟨_, _, heq⟩ := hb
    exact hne (Prod.mk.inj (Prod.mk.inj heq).2).1.symm

theorem mem_itemSettings {s : Setting} : s ∈ itemSettings hosts groups ↔
    itemTtl hosts groups s.kind s.id s.sourceId = some s.ttlSeconds := by
  rw [itemSettings, List.mem_append, mem_settingsOf, mem_settingsOf]
  cases hkind : s.kind <;>
    simp [itemTtl, Option.bind_map]

theorem nodup_itemSettings : ((itemSettings hosts groups).map Setting.key).Nodup := by
  rw [itemSettings, List.map_append, List.nodup_append]
  refine ⟨nodup_settingsOf .., nodup_settingsOf .., fun key hhost other hgroup heq => ?_⟩
  obtain ⟨s, hs, rfl⟩ := List.mem_map.mp hhost
  obtain ⟨t, ht, rfl⟩ := List.mem_map.mp hgroup
  have hkind : s.kind = t.kind := (Prod.mk.inj heq).1
  rw [(mem_settingsOf.mp hs).1, (mem_settingsOf.mp ht).1] at hkind
  cases hkind

section
variable {order : List Setting} (horder : order.Perm (itemSettings hosts groups))
include horder

/-- What the first setting of a name says is what its item says. -/
theorem find?_order (kind : ItemKind) (name sourceId : String) :
    (order.find? fun s => s.kind = kind ∧ s.id = name ∧ s.sourceId = sourceId).map (·.ttlSeconds) =
      itemTtl hosts groups kind name sourceId := by
  cases hfind : order.find? fun s => s.kind = kind ∧ s.id = name ∧ s.sourceId = sourceId with
  | some s =>
    have hkey := List.find?_some hfind
    have hmem := mem_itemSettings.mp (horder.mem_iff.mp (List.mem_of_find?_eq_some hfind))
    obtain ⟨rfl, rfl, rfl⟩ := of_decide_eq_true hkey
    exact hmem.symm
  | none =>
    cases hitem : itemTtl hosts groups kind name sourceId with
    | none => rfl
    | some ttl =>
      have hmem : (⟨kind, name, sourceId, ttl⟩ : Setting) ∈ order :=
        horder.mem_iff.mpr (mem_itemSettings.mpr hitem)
      simpa using List.find?_eq_none.mp hfind _ hmem

theorem folded_errors (views : List String) : (foldIntoSources views order sources).errors =
    ((itemSettings hosts groups).filterMap (·.error? views sources)).mergeSort := by
  have hkeys : (order.map Setting.key).Nodup :=
    (horder.map Setting.key).nodup_iff.mpr nodup_itemSettings
  show (order.foldl (foldSetting views) ⟨sources, []⟩).errors.mergeSort = _
  rw [foldSettings_errors hkeys, List.nil_append]
  exact Sorted.mergeSort_eq_of_perm (horder.filterMap _)

omit horder in
theorem folded_sources (views : List String) (sourceId : String) :
    (foldIntoSources views order sources).sources[sourceId]? =
      sources[sourceId]?.map fun source => order.foldl (addSetting sourceId) source :=
  foldSettings_sources order ⟨sources, []⟩ sourceId

theorem folded_overrides (sourceId : String) (source : ResolvedSource) (kind : ItemKind)
    (name : String) :
    ((order.foldl (addSetting sourceId) source).ttlOverrides.of kind)[name]? =
      ((source.ttlOverrides.of kind)[name]?).or (itemTtl hosts groups kind name sourceId) := by
  rw [addSettings_getElem?, find?_order horder]

/-- The order does not matter. -/
theorem foldIntoSources_perm (views : List String) : foldIntoSources views order sources =
    foldIntoSources views (itemSettings hosts groups) sources := by
  have hall : ∀ sourceId source, order.foldl (addSetting sourceId) source =
      (itemSettings hosts groups).foldl (addSetting sourceId) source := by
    intro sourceId source
    rw [addSettings_rest order, addSettings_rest (itemSettings hosts groups)]
    congr 2
    exact TtlOverrides.ext_of fun kind name =>
      (folded_overrides horder sourceId source kind name).trans
      (folded_overrides (.refl _) sourceId source kind name).symm
  have hsources : (foldIntoSources views order sources).sources =
      (foldIntoSources views (itemSettings hosts groups) sources).sources := by
    refine Std.ExtTreeMap.ext_getElem? fun sourceId => ?_
    rw [folded_sources, folded_sources]
    exact congrArg (fun f => sources[sourceId]?.map f) (funext fun source => hall sourceId source)
  have herrors : (foldIntoSources views order sources).errors =
      (foldIntoSources views (itemSettings hosts groups) sources).errors :=
    (folded_errors horder views).trans (folded_errors (.refl _) views).symm
  generalize foldIntoSources views order sources = folded at hsources herrors
  generalize foldIntoSources views (itemSettings hosts groups) sources = other at hsources herrors
  cases folded
  cases other
  exact congrArg₂ _ hsources herrors

/-- **The items land on the sources they name and nowhere else**, in whatever
order they come: each source keeps its own settings and gets those of the items
that name it, the errors are the same, and where there are none every item counts. -/
theorem items_fold_exactly (views : List String) :
    (foldIntoSources views order sources).errors =
      ((itemSettings hosts groups).filterMap (·.error? views sources)).mergeSort ∧
    (∀ sourceId, match sources[sourceId]? with
      | none => (foldIntoSources views order sources).sources[sourceId]? = none
      | some source => ∃ overrides : TtlOverrides,
          (foldIntoSources views order sources).sources[sourceId]? =
            some { source with ttlOverrides := overrides } ∧
          ∀ kind (name : String), (overrides.of kind)[name]? =
            ((source.ttlOverrides.of kind)[name]?).or (itemTtl hosts groups kind name sourceId)) ∧
    ((foldIntoSources views order sources).errors = [] → ∀ name sourceId ttl,
      itemTtl hosts groups .host name sourceId = some ttl →
        ∃ source, (foldIntoSources views order sources).sources[sourceId]? = some source ∧
          ∀ groupTtls fallback, source.effectiveTtl name groupTtls fallback = ttl) := by
  refine ⟨folded_errors horder views, fun sourceId => ?_, fun hnone name sourceId ttl hitem => ?_⟩
  · cases hsource : sources[sourceId]? with
    | none => simp [folded_sources, hsource]
    | some source =>
      refine ⟨_, ?_, folded_overrides horder sourceId source⟩
      rw [folded_sources, hsource, Option.map_some, ← addSettings_rest]
  · have hfine : (⟨.host, name, sourceId, ttl⟩ : Setting).error? views sources = none := by
      have hall := (List.mergeSort_perm ((itemSettings hosts groups).filterMap
        (·.error? views sources)) fun a b => decide (a ≤ b)).symm
      rw [← folded_errors horder views, hnone] at hall
      exact List.filterMap_eq_nil_iff.mp hall.eq_nil _ (mem_itemSettings.mpr hitem)
    unfold Setting.error? at hfine
    cases hsource : sources[sourceId]? with
    | none => simp [hsource] at hfine
    | some source =>
      have hfound : (foldIntoSources views order sources).sources[sourceId]? = _ :=
        folded_sources views sourceId
      rw [hsource, Option.map_some] at hfound
      refine ⟨_, hfound, fun groupTtls fallback => ?_⟩
      have hown : source.ttlOverrides.hosts[name]? = none := by
        simpa [hsource, TtlOverrides.of] using hfine
      have hfolded := folded_overrides horder sourceId source .host name
      rw [show (source.ttlOverrides.of .host)[name]? = none from hown, hitem] at hfolded
      rw [Source.effectiveTtl,
        show (order.foldl (addSetting sourceId) source).ttlOverrides.hosts[name]? = some ttl from
          hfolded]
      rfl

end

/-- A source whose facts of one host are to be fresher than the others'. -/
def factsSource : ResolvedSource where
  name := "Facts"
  connector := "facts"
  connectorType := .ssh
  sshLocation := none
  projectId := none
  scriptPath := "hostname"
  scriptArgs := []
  hostArgs := []
  timeoutSeconds := 300
  schedule := none
  syncIntervalSeconds := none
  ttlSeconds := 14400
  allowOnDemandRefresh := false

def webHosts : StrMap HostDef :=
  ((∅ : StrMap HostDef).insert "web01" ⟨"Web 1", (∅ : StrMap PerSource).insert "facts" ⟨30⟩⟩).insert
    "web02" ⟨"Web 2", (∅ : StrMap PerSource).insert "facts" ⟨60⟩⟩

theorem webHosts_fold : ∃ source,
    (foldIntoSources [] (itemSettings webHosts ∅).reverse
      ((∅ : StrMap ResolvedSource).insert "facts" factsSource)).sources["facts"]? = some source ∧
    source.effectiveTtl "web01" ∅ 14400 = 30 := by
  have hnone : (foldIntoSources [] (itemSettings webHosts ∅).reverse
      ((∅ : StrMap ResolvedSource).insert "facts" factsSource)).errors = [] := by decide +kernel
  obtain ⟨source, hsource, httl⟩ :=
    (items_fold_exactly (List.reverse_perm _) []).2.2 hnone "web01" "facts" 30 (by decide +kernel)
  exact ⟨source, hsource, httl ∅ 14400⟩

end UnifiedApi
