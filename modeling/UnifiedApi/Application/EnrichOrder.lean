import UnifiedApi.Application.Enrich

/-! # Declarative enrichers in either order

An enricher writes the variables it admits and nothing else, so two that admit
different names do not see each other. -/

namespace UnifiedApi
open CacheEntry

namespace Enricher

/-- The names of the variables that are taken. -/
def admitsKey (enricher : Enricher) (key : String) : Bool :=
  admits key enricher.fields enricher.fieldsExcluded

/-- What is taken from one map. -/
def taken (enricher : Enricher) (vars : HostVars) : HostVars :=
  selected vars enricher.fields enricher.fieldsExcluded

/-- What `source` says about a host, as far as it is taken. -/
def ownedByHost (enricher : Enricher) (source : Dataset) (hostname : String) : HostVars :=
  enricher.taken (source.hostvars[hostname]?.getD ∅)

def ownedByGroup (enricher : Enricher) (source : Dataset) (name : String) : HostVars :=
  if admits name enricher.groups enricher.groupsExcluded then
    enricher.taken ((source.groups[name]?.bind (·.vars)).getD ∅)
  else ∅

/-- What is merged into `target`. -/
def part (enricher : Enricher) (target source : Dataset) : Dataset where
  hostvars := hostVarsForTarget target source enricher
  groups := groupVarsForTarget target source enricher

/-- The entry enriched from `source`, if there is one. -/
def enriched (enricher : Enricher) (source : Option CacheEntry) (entry : CacheEntry) : CacheEntry :=
  match source with
  | some source => mergeDeclared (enricher.part entry.dataset source.dataset) entry
  | none => entry

/-- A group an enricher creates has no members but for `all`, which has every host. -/
def created (target : Dataset) (name : String) : Group where
  hosts := if name == "all" then target.hostvars.keys else []

section
variable (enricher : Enricher) (source : Dataset)

theorem getElem?_taken (vars : HostVars) (key : String) :
    (enricher.taken vars)[key]? = if enricher.admitsKey key then vars[key]? else none := by
  unfold taken selected admitsKey
  split
  · rename_i hall
    obtain ⟨hfields, hexcluded⟩ := Bool.and_eq_true_iff.mp hall
    simp [admits, Option.isNone_iff_eq_none.mp hfields, Option.isNone_iff_eq_none.mp hexcluded]
  · exact StrMap.getElem?_filter_keys vars _ key

theorem taken_empty : enricher.taken ∅ = ∅ := by
  apply Std.ExtTreeMap.ext_getElem?
  intro key
  rw [getElem?_taken]
  simp

theorem ownedByHost_of_not_admits {key : String} (h : enricher.admitsKey key = false)
    (hostname : String) : (enricher.ownedByHost source hostname)[key]? = none := by
  rw [ownedByHost, getElem?_taken, h]
  rfl

theorem ownedByGroup_of_not_admits {key : String} (h : enricher.admitsKey key = false)
    (name : String) : (enricher.ownedByGroup source name)[key]? = none := by
  unfold ownedByGroup
  split
  · rw [getElem?_taken, h]
    rfl
  · simp

/-! ## What one run leaves -/

theorem part_hostvars {target : Dataset} {hostname : String} (h : hostname ∈ target.hostvars) :
    (enricher.part target source).hostvars[hostname]?.getD ∅ =
      enricher.ownedByHost source hostname := by
  obtain ⟨old, hold⟩ := (StrMap.mem_iff_exists _ _).mp h
  unfold part hostVarsForTarget ownedByHost
  rw [Std.ExtTreeMap.getElem?_filter', Std.ExtTreeMap.getElem?_filterMap', hold]
  cases source.hostvars[hostname]? with
  | none => exact (taken_empty enricher).symm
  | some vars =>
    change ((some (enricher.taken vars)).filter (!·.isEmpty)).getD ∅ = enricher.taken vars
    by_cases hempty : enricher.taken vars = ∅ <;> simp [Option.filter, hempty]

theorem part_groups (target : Dataset) (name : String) :
    (enricher.part target source).groups[name]? =
      if enricher.ownedByGroup source name = ∅ then none
      else some { created target name with vars := some (enricher.ownedByGroup source name) } := by
  unfold part groupVarsForTarget ownedByGroup
  rw [Std.ExtTreeMap.getElem?_filterMap']
  cases admits name enricher.groups enricher.groupsExcluded with
  | false => cases source.groups[name]? <;> simp
  | true =>
    cases (source.groups[name]?) with
    | none => simp [taken_empty]
    | some group =>
      cases hvars : group.vars with
      | none => simp [hvars, taken_empty]
      | some vars =>
        by_cases hempty : enricher.taken vars = ∅ <;>
          simp_all [created, taken]

variable (entry : CacheEntry)

theorem mergeDeclared_part_hostvars :
    (mergeDeclared (enricher.part entry.dataset source) entry).dataset.hostvars =
      entry.dataset.hostvars.map fun hostname vars =>
        extend vars (enricher.ownedByHost source hostname) := by
  apply Std.ExtTreeMap.ext_getElem?
  intro hostname
  rw [mergeDeclared, mergeHostvarFields_hostvars, StrMap.getElem?_map]
  cases hhost : entry.dataset.hostvars[hostname]? with
  | none => simp [mergeGroupVarFields, hhost]
  | some vars =>
    rw [← part_hostvars enricher source (StrMap.mem_of_some hhost)]
    simp only [mergeGroupVarFields, hhost, Option.map_some]
    cases (enricher.part entry.dataset source).hostvars[hostname]? <;> simp

theorem mergeDeclared_part_groups (name : String) :
    (mergeDeclared (enricher.part entry.dataset source) entry).dataset.groups[name]? =
      if enricher.ownedByGroup source name = ∅ then entry.dataset.groups[name]?
      else some (carrying (created entry.dataset name) (enricher.ownedByGroup source name)
        entry.dataset.groups[name]?) := by
  have hgroups := mergeGroupVarFields_groups entry name
    { groups := (enricher.part entry.dataset source).groups }
  rw [part_groups] at hgroups
  refine hgroups.trans ?_
  split
  · rfl
  · cases entry.dataset.groups[name]? <;> rfl

end

theorem enriched_clock (enricher : Enricher) (source : Option CacheEntry) (entry : CacheEntry) :
    SameClock entry (enricher.enriched source entry) := by
  cases source with
  | none => exact .refl entry
  | some source => exact (mergeGroupVarFields_clock entry _).trans (mergeHostvarFields_clock _ _)

theorem enriched_hostTimestamps (enricher : Enricher) (source : Option CacheEntry)
    (entry : CacheEntry) :
    (enricher.enriched source entry).hostTimestamps = entry.hostTimestamps := by
  cases source with
  | none => rfl
  | some source => rw [enriched, mergeDeclared, mergeHostvarFields, mergeGroupVarFields]

theorem enriched_removeHosts (enricher : Enricher) (source : Option CacheEntry)
    (entry : CacheEntry) :
    (enricher.enriched source entry).dataset.removeHosts = entry.dataset.removeHosts := by
  cases source with
  | none => rfl
  | some source => rw [enriched, mergeDeclared, mergeHostvarFields, mergeGroupVarFields]

/-- A run changes its target's entry, by what its source has cached. -/
theorem executeDeclarativeMerge_get (enricher : Enricher) (cache : MemoryCache) (key : String) :
    (executeDeclarativeMerge enricher cache).2.get key =
      if enricher.targetId = key then
        (cache.get enricher.targetId).map (enricher.enriched (enricher.sourceId.bind cache.get))
      else cache.get key := by
  have hunchanged : ∀ source : Option CacheEntry, source = none →
      cache.get key = if enricher.targetId = key then
        (cache.get enricher.targetId).map (enricher.enriched source) else cache.get key := by
    rintro source rfl
    split
    · rename_i hkey
      rw [hkey]
      cases cache.get key <;> rfl
    · rfl
  unfold executeDeclarativeMerge
  cases hsource : enricher.sourceId with
  | none => exact hunchanged _ rfl
  | some sourceId =>
    dsimp only
    cases htarget : cache.get enricher.targetId with
    | none =>
      by_cases hkey : enricher.targetId = key
      · rw [if_pos hkey, ← hkey]
        exact htarget
      · rw [if_neg hkey]
    | some target =>
      rw [Option.bind_some]
      cases hcached : cache.get sourceId with
      | none => exact (hunchanged none rfl).trans (by rw [htarget])
      | some source =>
        refine (MemoryCache.get_update cache _ _ _).trans ?_
        rw [htarget]
        rfl

/-! ## Two enrichers -/

theorem created_enriched (enricher : Enricher) (source : Option CacheEntry) (entry : CacheEntry) :
    created (enricher.enriched source entry).dataset = created entry.dataset := by
  cases source with
  | none => rfl
  | some source =>
    have hkeys : (enricher.enriched (some source) entry).dataset.hostvars.keys =
        entry.dataset.hostvars.keys := by
      rw [enriched, mergeDeclared_part_hostvars, Std.ExtTreeMap.keys_map]
    funext name
    rw [created, created, hkeys]

theorem carrying_comm {first second : HostVars}
    (h : ∀ key : String, first[key]? = none ∨ second[key]? = none) (created : Group)
    (group : Option Group) :
    carrying created second (some (carrying created first group)) =
      carrying created first (some (carrying created second group)) := by
  unfold carrying
  simp only [Option.getD_some, Option.bind_some]
  rw [extend, extend, StrMap.insertAll_comm h]
  rfl

/-- No variable is taken by both. -/
def Disjoint (first second : Enricher) : Prop :=
  ∀ key : String, first.admitsKey key = false ∨ second.admitsKey key = false

section
variable {first second : Enricher} (h : Disjoint first second)
include h

theorem Disjoint.ownedByHost (source source' : Dataset) (hostname key : String) :
    (first.ownedByHost source hostname)[key]? = none ∨
      (second.ownedByHost source' hostname)[key]? = none :=
  (h key).imp (ownedByHost_of_not_admits first source · hostname)
    (ownedByHost_of_not_admits second source' · hostname)

theorem Disjoint.ownedByGroup (source source' : Dataset) (name key : String) :
    (first.ownedByGroup source name)[key]? = none ∨
      (second.ownedByGroup source' name)[key]? = none :=
  (h key).imp (ownedByGroup_of_not_admits first source · name)
    (ownedByGroup_of_not_admits second source' · name)

theorem Disjoint.hostvars_comm (source source' : CacheEntry) (entry : CacheEntry) :
    (second.enriched (some source') (first.enriched (some source) entry)).dataset.hostvars =
      (first.enriched (some source) (second.enriched (some source') entry)).dataset.hostvars := by
  simp only [enriched, mergeDeclared_part_hostvars]
  apply Std.ExtTreeMap.ext_getElem?
  intro hostname
  simp only [StrMap.getElem?_map]
  cases entry.dataset.hostvars[hostname]? with
  | none => rfl
  | some vars =>
    have hcomm := StrMap.insertAll_comm (h.ownedByHost source.dataset source'.dataset hostname) vars
    exact congrArg some hcomm

theorem Disjoint.groups_comm (source source' : CacheEntry) (entry : CacheEntry) (name : String) :
    (second.enriched (some source') (first.enriched (some source) entry)).dataset.groups[name]? =
      (first.enriched (some source)
        (second.enriched (some source') entry)).dataset.groups[name]? := by
  have hfirst := created_enriched first (some source) entry
  have hsecond := created_enriched second (some source') entry
  simp only [enriched] at hfirst hsecond ⊢
  simp only [mergeDeclared_part_groups, hfirst, hsecond]
  by_cases ho : first.ownedByGroup source.dataset name = ∅
  · simp only [if_pos ho]
  · by_cases ho' : second.ownedByGroup source'.dataset name = ∅
    · simp only [if_pos ho']
    · simp only [if_neg ho, if_neg ho']
      rw [carrying_comm (h.ownedByGroup source.dataset source'.dataset name)]

end

end Enricher

/-- A group's hosts as a set. -/
structure Group.SameUpToOrder (group group' : Group) : Prop where
  hosts : ∀ host, host ∈ group'.hosts ↔ host ∈ group.hosts
  children : group'.children = group.children
  vars : group'.vars = group.vars

structure CacheEntry.SameUpToOrder (entry entry' : CacheEntry) : Prop where
  hostvars : entry'.dataset.hostvars = entry.dataset.hostvars
  groups : ∀ name : String,
    Option.Rel Group.SameUpToOrder entry.dataset.groups[name]? entry'.dataset.groups[name]?
  removeHosts : entry'.dataset.removeHosts = entry.dataset.removeHosts
  clock : SameClock entry entry'
  hostTimestamps : entry'.hostTimestamps = entry.hostTimestamps

theorem Group.SameUpToOrder.refl (group : Group) : SameUpToOrder group group :=
  ⟨fun _ => .rfl, rfl, rfl⟩

theorem CacheEntry.SameUpToOrder.refl (entry : CacheEntry) : SameUpToOrder entry entry where
  hostvars := rfl
  groups name := by
    cases entry.dataset.groups[name]? with
    | none => exact .none
    | some group => exact .some (.refl group)
  removeHosts := rfl
  clock := .refl entry
  hostTimestamps := rfl

namespace Enricher

/-- What a run leaves alone. -/
structure Untouched (enricher : Enricher) (entry entry' : CacheEntry) : Prop where
  hosts : ∀ hostname, hostname ∈ entry'.dataset.hostvars ↔ hostname ∈ entry.dataset.hostvars
  members : ∀ (name : String) (group : Group), entry.dataset.groups[name]? = some group →
    ∃ group', entry'.dataset.groups[name]? = some group' ∧
      group'.hosts = group.hosts ∧ group'.children = group.children
  hostVars : ∀ hostname key : String, enricher.admitsKey key = false →
    (entry'.dataset.hostvars[hostname]?.bind (·[key]?)) =
      entry.dataset.hostvars[hostname]?.bind (·[key]?)
  groupVars : ∀ name key : String, enricher.admitsKey key = false →
    ((entry'.dataset.groups[name]?.bind (·.vars)).bind (·[key]?)) =
      (entry.dataset.groups[name]?.bind (·.vars)).bind (·[key]?)
  clock : SameClock entry entry'
  hostTimestamps : entry'.hostTimestamps = entry.hostTimestamps

theorem untouched (enricher : Enricher) (source : Option CacheEntry) (entry : CacheEntry) :
    enricher.Untouched entry (enricher.enriched source entry) := by
  cases source with
  | none => exact ⟨fun _ => .rfl, fun _ group h => ⟨group, h, rfl, rfl⟩, fun _ _ _ => rfl,
      fun _ _ _ => rfl, .refl entry, rfl⟩
  | some source =>
    constructor
    case hosts =>
      intro hostname
      rw [enriched, mergeDeclared_part_hostvars]
      exact Std.ExtTreeMap.mem_map
    case members =>
      intro name group hgroup
      rw [enriched, mergeDeclared_part_groups, hgroup]
      split
      · exact ⟨group, rfl, rfl, rfl⟩
      · exact ⟨_, rfl, rfl, rfl⟩
    case hostVars =>
      intro hostname key hkey
      rw [enriched, mergeDeclared_part_hostvars, StrMap.getElem?_map]
      cases entry.dataset.hostvars[hostname]? with
      | none => rfl
      | some vars =>
        have howned := ownedByHost_of_not_admits enricher source.dataset hkey hostname
        simp [getElem?_extend, howned]
    case groupVars =>
      intro name key hkey
      rw [enriched, mergeDeclared_part_groups]
      split
      · rfl
      · have howned := ownedByGroup_of_not_admits enricher source.dataset hkey name
        cases hgroup : entry.dataset.groups[name]? with
        | none => simp [carrying, getElem?_extend, howned]
        | some group => cases hvars : group.vars <;> simp [carrying, getElem?_extend, howned, hvars]
    case clock => exact enriched_clock enricher (some source) entry
    case hostTimestamps => exact enriched_hostTimestamps enricher (some source) entry

theorem sameUpToOrder_of_disjoint {first second : Enricher} (h : Disjoint first second)
    (source source' : Option CacheEntry) (entry : CacheEntry) :
    (second.enriched source' (first.enriched source entry)).SameUpToOrder
      (first.enriched source (second.enriched source' entry)) := by
  cases source with
  | none => exact .refl _
  | some source =>
    cases source' with
    | none => exact .refl _
    | some source' =>
      constructor
      case hostvars => exact (h.hostvars_comm source source' entry).symm
      case groups =>
        intro name
        rw [h.groups_comm source source' entry name]
        cases (first.enriched (some source)
          (second.enriched (some source') entry)).dataset.groups[name]? with
        | none => exact .none
        | some group => exact .some (.refl group)
      case removeHosts => simp only [enriched_removeHosts]
      case clock =>
        have hsecond := (enriched_clock first (some source) entry).trans
          (enriched_clock second (some source') _)
        have hfirst := (enriched_clock second (some source') entry).trans
          (enriched_clock first (some source) _)
        exact hsecond.symm.trans hfirst
      case hostTimestamps => simp only [enriched_hostTimestamps]

/-- Where neither reads what the other writes. -/
theorem executeDeclarativeMerge_twice {first second : Enricher} (cache : MemoryCache)
    (htarget : first.targetId = second.targetId) (hsource : second.sourceId ≠ some first.targetId) :
    (executeDeclarativeMerge second (executeDeclarativeMerge first cache).2).2.get first.targetId =
      (cache.get first.targetId).map fun entry =>
        second.enriched (second.sourceId.bind cache.get)
          (first.enriched (first.sourceId.bind cache.get) entry) := by
  have hread : second.sourceId.bind (executeDeclarativeMerge first cache).2.get =
      second.sourceId.bind cache.get := by
    cases hid : second.sourceId with
    | none => rfl
    | some sourceId =>
      have hne : first.targetId ≠ sourceId := fun heq => hsource (by rw [hid, heq])
      rw [Option.bind_some, Option.bind_some, executeDeclarativeMerge_get, if_neg hne]
  rw [executeDeclarativeMerge_get, hread, ← htarget, if_pos rfl, executeDeclarativeMerge_get,
    if_pos rfl, Option.map_map]
  rfl

def ownerEnricher : Enricher where
  targetId := "lab"
  sourceId := some "owners"
  fields := some ["owner"]

def factsEnricher : Enricher where
  targetId := "lab"
  sourceId := some "facts"
  fieldsExcluded := some ["owner"]

/-- Both sources say something about `all`, which the target does not have. -/
def labCache : MemoryCache where
  store :=
    let saying (key value : String) : Dataset :=
      { groups := (∅ : StrMap Group).insert "all"
          { vars := some ((∅ : HostVars).insert key (.string value)) } }
    (((∅ : StrMap CacheEntry).insert "lab"
      (.new { hostvars := (∅ : StrMap HostVars).insert "a" ∅ } 60 0)).insert "owners"
      (.new (saying "owner" "ops") 60 0)).insert "facts" (.new (saying "os" "linux") 60 0)

theorem disjoint_owner_facts : Disjoint ownerEnricher factsEnricher := by
  intro key
  by_cases hkey : key = "owner"
  · right
    simp [admitsKey, admits, factsEnricher, hkey]
  · left
    simpa [admitsKey, admits, ownerEnricher] using Ne.symm hkey

theorem executeDeclarativeMerge_independent (cache : MemoryCache) :
    (∀ first second : Enricher, first.targetId = second.targetId →
      first.sourceId ≠ some first.targetId → second.sourceId ≠ some second.targetId →
      Disjoint first second → Option.Rel CacheEntry.SameUpToOrder
        ((executeDeclarativeMerge second (executeDeclarativeMerge first cache).2).2.get
          first.targetId)
        ((executeDeclarativeMerge first (executeDeclarativeMerge second cache).2).2.get
          first.targetId)) ∧
    ∀ enricher : Enricher, Option.Rel enricher.Untouched (cache.get enricher.targetId)
      ((executeDeclarativeMerge enricher cache).2.get enricher.targetId) := by
  constructor
  · intro first second htarget hfirst hsecond hdisjoint
    have hreverse := executeDeclarativeMerge_twice cache htarget.symm (htarget ▸ hfirst)
    rw [executeDeclarativeMerge_twice cache htarget (htarget ▸ hsecond), htarget, hreverse]
    cases cache.get second.targetId with
    | none => exact .none
    | some entry => exact .some (sameUpToOrder_of_disjoint hdisjoint _ _ entry)
  · intro enricher
    rw [executeDeclarativeMerge_get, if_pos rfl]
    cases cache.get enricher.targetId with
    | none => exact .none
    | some entry => exact .some (untouched enricher _ entry)

theorem executeDeclarativeMerge_independent_lab :
    Option.Rel CacheEntry.SameUpToOrder
      ((executeDeclarativeMerge factsEnricher
        (executeDeclarativeMerge ownerEnricher labCache).2).2.get "lab")
      ((executeDeclarativeMerge ownerEnricher
        (executeDeclarativeMerge factsEnricher labCache).2).2.get "lab") ∧
    Option.Rel factsEnricher.Untouched (labCache.get "lab")
      ((executeDeclarativeMerge factsEnricher labCache).2.get "lab") :=
  ⟨(executeDeclarativeMerge_independent labCache).1 ownerEnricher factsEnricher rfl (by decide)
    (by decide) disjoint_owner_facts,
    (executeDeclarativeMerge_independent labCache).2 factsEnricher⟩

end Enricher

end UnifiedApi
