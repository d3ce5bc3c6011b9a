import UnifiedApi.Application.EnrichOrder
import UnifiedApi.Domain.SyncHealth
import UnifiedApi.Lib.Sorted

/-! # All the enrichers of a target

They run one after another in the order of their ids, so that of two that claim
one variable the winner is a rule and not a race. What declarative ones leave
together is one merge: of what each says, the later id over the earlier. -/

namespace UnifiedApi
open CacheEntry

structure EnrichState where
  cache : MemoryCache
  health : SyncHealthRegistry := {}

/-- A run of a script, with nothing else writing meanwhile. -/
def executeEnricher (answer : Dataset → EnricherResult) (enricher : Enricher) (now : Nat)
    (cache : MemoryCache) : Option EnrichOutcome × MemoryCache :=
  match enricherInput enricher cache with
  | none => (none, cache)
  | some dataset =>
    let (outcome, cache) := mergeAnswer enricher (answer dataset) now cache
    (some outcome, cache)

def runEnricher (answer : Dataset → EnricherResult) (now : Nat) (id : String) (enricher : Enricher)
    (state : EnrichState) : Option EnrichOutcome × EnrichState :=
  let (result, cache) :=
    if enricher.sourceId.isSome then executeDeclarativeMerge enricher state.cache
    else executeEnricher answer enricher now state.cache
  match result with
  | none =>
    let error := "target '" ++ enricher.targetId ++ "' is not in the cache"
    (none, ⟨cache, state.health.recordFailure id error now⟩)
  | some outcome => match outcome.error with
    | none => (some outcome, ⟨cache, state.health.recordSuccess id now⟩)
    | some error => (some outcome, ⟨cache, state.health.recordFailure id error now⟩)

/-- The enrichers of a target, from a map gone through in any order. -/
def matching (enrichers : List (String × Enricher)) (targetId : String) :
    List (String × Enricher) :=
  (enrichers.filter (·.2.targetId == targetId)).mergeSort (·.1 ≤ ·.1)

/-- How many were applied, and what they left. -/
structure EnrichPass where
  applied : Nat := 0
  state : EnrichState

section
variable (answers : String → Dataset → EnricherResult) (now : String → Nat)

def applyNext (pass : EnrichPass) (next : String × Enricher) : EnrichPass :=
  let (outcome, state) := runEnricher (answers next.1) (now next.1) next.1 next.2 pass.state
  ⟨if outcome.isSome then pass.applied + 1 else pass.applied, state⟩

def runEnrichersForTarget (enrichers : List (String × Enricher)) (targetId : String)
    (state : EnrichState) : EnrichPass :=
  (matching enrichers targetId).foldl (applyNext answers now) { state }

end

/-! ## Several maps, the later over the earlier -/

def carried (said : List HostVars) : HostVars := said.foldl extend ∅

theorem extend_assoc (first second third : HostVars) :
    extend (extend first second) third = extend first (extend second third) := by
  apply Std.ExtTreeMap.ext_getElem?
  intro key
  simp only [getElem?_extend, Option.or_assoc]

theorem foldl_extend (said : List HostVars) (vars : HostVars) :
    said.foldl extend vars = extend vars (carried said) := by
  induction said generalizing vars with
  | nil => exact (extend_nothing vars).symm
  | cons first rest ih =>
    rw [carried, List.foldl_cons, List.foldl_cons, ih, ih, extend_empty, extend_assoc]

theorem carried_cons (first : HostVars) (rest : List HostVars) :
    carried (first :: rest) = extend first (carried rest) := by
  rw [carried, List.foldl_cons, extend_empty, foldl_extend]

/-- Of each variable, what the last of them says. -/
theorem getElem?_carried (said : List HostVars) (key : String) :
    (carried said)[key]? = said.reverse.findSome? (·[key]?) := by
  induction said with
  | nil => simp [carried]
  | cons first rest ih =>
    rw [carried_cons, getElem?_extend, ih, List.reverse_cons, List.findSome?_append]
    simp

theorem extend_eq_empty_iff {existing vars : HostVars} :
    extend existing vars = ∅ ↔ existing = ∅ ∧ vars = ∅ := by
  constructor
  · intro h
    have hnone : ∀ key : String, vars[key]? = none ∧ existing[key]? = none := by
      intro key
      have hkey : (extend existing vars)[key]? = none := by rw [h]; simp
      rwa [getElem?_extend, Option.or_eq_none_iff] at hkey
    constructor <;> apply Std.ExtTreeMap.ext_getElem? <;> intro key <;> simp [hnone key]
  · rintro ⟨rfl, rfl⟩
    exact extend_nothing ∅

/-- They say nothing together where none says anything. -/
theorem carried_eq_empty_iff (said : List HostVars) :
    carried said = ∅ ↔ ∀ vars ∈ said, vars = ∅ := by
  induction said with
  | nil => simp [carried]
  | cons first rest ih => rw [carried_cons, extend_eq_empty_iff, ih, List.forall_mem_cons]

theorem extend_self (vars : HostVars) : extend vars vars = vars := by
  apply Std.ExtTreeMap.ext_getElem?
  intro key
  rw [getElem?_extend, Option.or_self]

theorem extend_again (existing vars : HostVars) :
    extend (extend existing vars) vars = extend existing vars := by
  rw [extend_assoc, extend_self]

theorem carrying_extend (created : Group) (first second : HostVars) (group : Option Group) :
    carrying created second (some (carrying created first group)) =
      carrying created (extend first second) group := by
  simp [carrying, extend_assoc]

theorem Group.with_own_vars {group : Group} {vars : HostVars} (h : group.vars = some vars) :
    { group with vars := some vars } = group := by rw [← h]

/-- Entries that differ in nothing are one. -/
theorem CacheEntry.eq_of_same {entry entry' : CacheEntry} (hclock : SameClock entry entry')
    (hstamps : entry'.hostTimestamps = entry.hostTimestamps)
    (hremoved : entry'.dataset.removeHosts = entry.dataset.removeHosts)
    (hhosts : entry'.dataset.hostvars = entry.dataset.hostvars)
    (hgroups : entry'.dataset.groups = entry.dataset.groups) : entry' = entry := by
  obtain ⟨⟨_, _, _⟩, _, _, _, _⟩ := entry
  obtain ⟨⟨_, _, _⟩, _, _, _, _⟩ := entry'
  obtain ⟨rfl, rfl, rfl⟩ := hclock
  obtain rfl : _ = _ := hstamps
  obtain rfl : _ = _ := hremoved
  obtain rfl : _ = _ := hhosts
  obtain rfl : _ = _ := hgroups
  rfl

namespace Enricher

/-! ## One run -/

/-- An enricher that reads its own target writes what is there. -/
theorem enriched_self (enricher : Enricher) (entry : CacheEntry) :
    enricher.enriched (some entry) entry = entry := by
  have htaken : ∀ vars : HostVars, extend vars (enricher.taken vars) = vars := by
    intro vars
    apply Std.ExtTreeMap.ext_getElem?
    intro key
    rw [getElem?_extend, getElem?_taken]
    split
    · exact Option.or_self
    · rfl
  refine CacheEntry.eq_of_same (enriched_clock ..) (enriched_hostTimestamps ..)
    (enriched_removeHosts ..) ?_ ?_
  · rw [enriched, mergeDeclared_part_hostvars]
    apply Std.ExtTreeMap.ext_getElem?
    intro hostname
    rw [StrMap.getElem?_map]
    cases hvars : entry.dataset.hostvars[hostname]? with
    | none => rfl
    | some vars => rw [Option.map_some, ownedByHost, hvars, Option.getD_some, htaken]
  · apply Std.ExtTreeMap.ext_getElem?
    intro name
    rw [enriched, mergeDeclared_part_groups]
    split
    · rfl
    · rename_i hsaid
      unfold ownedByGroup at hsaid ⊢
      cases hadmits : admits name enricher.groups enricher.groupsExcluded with
      | false => simp [hadmits] at hsaid
      | true =>
        cases hgroup : entry.dataset.groups[name]? with
        | none => simp [hgroup, taken_empty] at hsaid
        | some group =>
          cases hvars : group.vars with
          | none => simp [hgroup, hvars, taken_empty] at hsaid
          | some vars => simp [carrying, hvars, htaken, Group.with_own_vars hvars]

/-- What an enricher reads: nothing new where that is its own target. -/
def elsewhere (enricher : Enricher) (cache : MemoryCache) : Option CacheEntry :=
  (enricher.sourceId.filter (· != enricher.targetId)).bind cache.get

theorem executeDeclarativeMerge_elsewhere (enricher : Enricher) (cache : MemoryCache)
    (key : String) : (executeDeclarativeMerge enricher cache).2.get key =
      if enricher.targetId = key then
        (cache.get enricher.targetId).map (enricher.enriched (enricher.elsewhere cache))
      else cache.get key := by
  rw [executeDeclarativeMerge_get]
  congr 1
  unfold elsewhere
  cases hsource : enricher.sourceId with
  | none => rfl
  | some sourceId =>
    by_cases hself : sourceId = enricher.targetId
    · subst hself
      cases hentry : cache.get enricher.targetId with
      | none => rfl
      | some entry =>
        have hnone : (some enricher.targetId).filter (· != enricher.targetId) = none := by
          simp [Option.filter]
        rw [hnone, Option.bind_some, hentry, Option.map_some, enriched_self]
        rfl
    · simp [Option.filter, hself]

theorem isSome_executeDeclarativeMerge {enricher : Enricher} (h : enricher.sourceId.isSome)
    (cache : MemoryCache) :
    (executeDeclarativeMerge enricher cache).1.isSome = (cache.get enricher.targetId).isSome := by
  obtain ⟨sourceId, hsource⟩ := Option.isSome_iff_exists.mp h
  unfold executeDeclarativeMerge
  rw [hsource]
  dsimp only
  cases cache.get enricher.targetId with
  | none => rfl
  | some target => cases cache.get sourceId <;> rfl

/-! ## Several runs -/

/-- Those that have something to read, with what they read. -/
def speaking (cache : MemoryCache) (enrichers : List (String × Enricher)) :
    List (Enricher × Dataset) :=
  enrichers.filterMap fun (_, enricher) =>
    (enricher.elsewhere cache).map fun source => (enricher, source.dataset)

def enrichAll (speakers : List (Enricher × Dataset)) (entry : CacheEntry) : CacheEntry :=
  speakers.foldl (fun entry (enricher, source) =>
    mergeDeclared (enricher.part entry.dataset source) entry) entry

/-- What they say of a host together. -/
def saidOfHost (speakers : List (Enricher × Dataset)) (hostname : String) : HostVars :=
  carried (speakers.map fun (enricher, source) => enricher.ownedByHost source hostname)

def saidOfGroup (speakers : List (Enricher × Dataset)) (name : String) : HostVars :=
  carried (speakers.map fun (enricher, source) => enricher.ownedByGroup source name)

section
variable (speakers : List (Enricher × Dataset)) (entry : CacheEntry)

theorem enrichAll_hostvars : (enrichAll speakers entry).dataset.hostvars =
    entry.dataset.hostvars.map fun hostname vars => extend vars (saidOfHost speakers hostname) := by
  apply Std.ExtTreeMap.ext_getElem?
  intro hostname
  rw [StrMap.getElem?_map]
  induction speakers generalizing entry with
  | nil => simp [enrichAll, saidOfHost, carried]
  | cons first rest ih =>
    obtain ⟨enricher, source⟩ := first
    rw [enrichAll, List.foldl_cons]
    refine (ih _).trans ?_
    rw [mergeDeclared_part_hostvars, StrMap.getElem?_map, Option.map_map]
    refine congrArg (Option.map · _) (funext fun vars => ?_)
    rw [saidOfHost, saidOfHost, List.map_cons, carried_cons, Function.comp_apply, extend_assoc]

theorem enrichAll_groups (name : String) : (enrichAll speakers entry).dataset.groups[name]? =
    if saidOfGroup speakers name = ∅ then entry.dataset.groups[name]?
    else some (carrying (created entry.dataset name) (saidOfGroup speakers name)
      entry.dataset.groups[name]?) := by
  induction speakers generalizing entry with
  | nil => simp [enrichAll, saidOfGroup, carried]
  | cons first rest ih =>
    obtain ⟨enricher, source⟩ := first
    have hcreated : created (mergeDeclared (enricher.part entry.dataset source) entry).dataset =
        created entry.dataset :=
      created_enriched enricher (some { entry with dataset := source }) entry
    rw [enrichAll, List.foldl_cons]
    refine (ih _).trans ?_
    rw [hcreated, mergeDeclared_part_groups]
    have hsaid : saidOfGroup ((enricher, source) :: rest) name =
        extend (enricher.ownedByGroup source name) (saidOfGroup rest name) := by
      rw [saidOfGroup, saidOfGroup, List.map_cons, carried_cons]
    rw [hsaid]
    by_cases hfirst : enricher.ownedByGroup source name = ∅
    · rw [hfirst, extend_empty, if_pos rfl]
    · have hboth : extend (enricher.ownedByGroup source name) (saidOfGroup rest name) ≠ ∅ :=
        fun h => hfirst (extend_eq_empty_iff.mp h).1
      rw [if_neg hfirst, if_neg hboth]
      by_cases hrest : saidOfGroup rest name = ∅
      · rw [if_pos hrest, hrest, extend_nothing]
      · rw [if_neg hrest, carrying_extend]

theorem enrichAll_rest : SameClock entry (enrichAll speakers entry) ∧
    (enrichAll speakers entry).hostTimestamps = entry.hostTimestamps ∧
    (enrichAll speakers entry).dataset.removeHosts = entry.dataset.removeHosts := by
  induction speakers generalizing entry with
  | nil => exact ⟨.refl entry, rfl, rfl⟩
  | cons first rest ih =>
    obtain ⟨enricher, source⟩ := first
    obtain ⟨hclock, hstamps, hremoved⟩ :=
      ih (mergeDeclared (enricher.part entry.dataset source) entry)
    have hsource : mergeDeclared (enricher.part entry.dataset source) entry =
        enricher.enriched (some { entry with dataset := source }) entry := rfl
    rw [enrichAll, List.foldl_cons]
    refine ⟨.trans ?_ hclock, hstamps.trans ?_, hremoved.trans ?_⟩
    · rw [hsource]
      exact enriched_clock ..
    · rw [hsource, enriched_hostTimestamps]
    · rw [hsource, enriched_removeHosts]

/-- A second time nothing changes, whatever the first overwrote. -/
theorem enrichAll_again : enrichAll speakers (enrichAll speakers entry) =
    enrichAll speakers entry := by
  obtain ⟨hclock, hstamps, hremoved⟩ := enrichAll_rest speakers (enrichAll speakers entry)
  refine CacheEntry.eq_of_same hclock hstamps hremoved ?_ ?_
  · apply Std.ExtTreeMap.ext_getElem?
    intro hostname
    rw [enrichAll_hostvars, enrichAll_hostvars, StrMap.getElem?_map, StrMap.getElem?_map,
      Option.map_map]
    exact congrArg (Option.map · _) (funext fun vars => extend_again vars _)
  · apply Std.ExtTreeMap.ext_getElem?
    intro name
    have hcreated : created (enrichAll speakers entry).dataset = created entry.dataset := by
      funext other
      rw [created, created, enrichAll_hostvars, Std.ExtTreeMap.keys_map]
    rw [enrichAll_groups, enrichAll_groups, hcreated]
    split
    · rfl
    · rw [carrying_extend, extend_self]

end

end Enricher

/-! ## The pass -/

open Enricher

section
variable (answers : String → Dataset → EnricherResult) (now : String → Nat)

/-- A declarative run merges and tells its outcome. -/
theorem applyNext_declarative (pass : EnrichPass) {next : String × Enricher}
    (h : next.2.sourceId.isSome) :
    (applyNext answers now pass next).state.cache =
      (executeDeclarativeMerge next.2 pass.state.cache).2 ∧
    (applyNext answers now pass next).applied =
      if (pass.state.cache.get next.2.targetId).isSome then pass.applied + 1
      else pass.applied := by
  rw [← isSome_executeDeclarativeMerge h]
  unfold applyNext runEnricher
  simp only [if_pos h]
  cases (executeDeclarativeMerge next.2 pass.state.cache).1 with
  | none => exact ⟨rfl, rfl⟩
  | some outcome => cases hfailed : outcome.error <;> simp [hfailed]

theorem speaking_congr {cache cache' : MemoryCache} {targetId : String}
    (h : ∀ key, key ≠ targetId → cache'.get key = cache.get key)
    {enrichers : List (String × Enricher)}
    (htarget : ∀ next ∈ enrichers, next.2.targetId = targetId) :
    speaking cache' enrichers = speaking cache enrichers := by
  refine List.filterMap_congr fun next hnext => ?_
  have helsewhere : next.2.elsewhere cache' = next.2.elsewhere cache := by
    refine Option.bind_congr fun sourceId hsource => h sourceId ?_
    have hne : sourceId ≠ next.2.targetId := by simpa using (Option.mem_filter_iff.mp hsource).2
    rwa [htarget next hnext] at hne
  simp only [helsewhere]

theorem enrichAll_speaking_cons (cache : MemoryCache) (next : String × Enricher)
    (rest : List (String × Enricher)) (entry : CacheEntry) :
    enrichAll (speaking cache (next :: rest)) entry =
      enrichAll (speaking cache rest) (next.2.enriched (next.2.elsewhere cache) entry) := by
  unfold speaking
  rw [List.filterMap_cons]
  cases hread : next.2.elsewhere cache with
  | none =>
    simp only [hread, Option.map_none]
    rfl
  | some source =>
    simp only [hread, Option.map_some]
    rfl

/-- All of them one after another, each by what is cached when its turn comes. -/
theorem foldl_applyNext {targetId : String} {enrichers : List (String × Enricher)}
    (htarget : ∀ next ∈ enrichers, next.2.targetId = targetId)
    (hdeclarative : ∀ next ∈ enrichers, next.2.sourceId.isSome) (pass : EnrichPass) :
    (∀ key, (enrichers.foldl (applyNext answers now) pass).state.cache.get key =
      if targetId = key then (pass.state.cache.get targetId).map
        (enrichAll (speaking pass.state.cache enrichers))
      else pass.state.cache.get key) ∧
    (enrichers.foldl (applyNext answers now) pass).applied = pass.applied +
      if (pass.state.cache.get targetId).isSome then enrichers.length else 0 := by
  induction enrichers generalizing pass with
  | nil =>
    refine ⟨fun key => ?_, by simp⟩
    split
    · rename_i hkey
      subst hkey
      exact (Option.map_id' ..).symm
    · rfl
  | cons next rest ih =>
    obtain ⟨hfirst, hrest⟩ := List.forall_mem_cons.mp htarget
    obtain ⟨hsource, hsources⟩ := List.forall_mem_cons.mp hdeclarative
    obtain ⟨hcache, happlied⟩ := applyNext_declarative answers now pass hsource
    obtain ⟨hget, hcount⟩ := ih hrest hsources (applyNext answers now pass next)
    subst hfirst
    have hstep := executeDeclarativeMerge_elsewhere next.2 pass.state.cache
    rw [← hcache] at hstep
    have hothers : ∀ key, key ≠ next.2.targetId →
        (applyNext answers now pass next).state.cache.get key = pass.state.cache.get key :=
      fun key hkey => by rw [hstep, if_neg (Ne.symm hkey)]
    rw [List.foldl_cons]
    constructor
    · intro key
      rw [hget]
      split
      · rw [hstep, if_pos rfl, speaking_congr hothers hrest, Option.map_map]
        exact congrArg (Option.map · _)
          (funext fun entry => (enrichAll_speaking_cons _ next rest entry).symm)
      · rename_i hkey
        exact hothers key (Ne.symm hkey)
    · rw [hcount, happlied, hstep, if_pos rfl]
      cases pass.state.cache.get next.2.targetId with
      | none => rfl
      | some entry => simp [Nat.add_assoc, Nat.add_comm 1]

end

/-- What a pass leaves of its target's entry: each variable of a host it had, and
of any group, is what the last that speaks of it says. -/
structure EnrichedBy (speakers : List (Enricher × Dataset)) (entry entry' : CacheEntry) :
    Prop where
  hosts : ∀ hostname, hostname ∈ entry'.dataset.hostvars ↔ hostname ∈ entry.dataset.hostvars
  hostVars : ∀ hostname ∈ entry.dataset.hostvars, ∀ key : String,
    (entry'.dataset.hostvars[hostname]?.bind (·[key]?)) =
      (speakers.reverse.findSome? fun (enricher, source) =>
        (enricher.ownedByHost source hostname)[key]?).or
        (entry.dataset.hostvars[hostname]?.bind (·[key]?))
  groupVars : ∀ name key : String,
    ((entry'.dataset.groups[name]?.bind (·.vars)).bind (·[key]?)) =
      (speakers.reverse.findSome? fun (enricher, source) =>
        (enricher.ownedByGroup source name)[key]?).or
        ((entry.dataset.groups[name]?.bind (·.vars)).bind (·[key]?))
  /-- The groups are those there were and those that an enricher speaks of. -/
  groups : ∀ name, name ∈ entry'.dataset.groups ↔
    name ∈ entry.dataset.groups ∨ ∃ speaker ∈ speakers, speaker.1.ownedByGroup speaker.2 name ≠ ∅
  /-- Of which none speaks is as it was. -/
  untouched : ∀ name : String, (∀ speaker ∈ speakers, speaker.1.ownedByGroup speaker.2 name = ∅) →
    entry'.dataset.groups[name]? = entry.dataset.groups[name]?
  members : ∀ (name : String) (group' : Group), entry'.dataset.groups[name]? = some group' →
    group'.hosts = (entry.dataset.groups[name]?.getD (created entry.dataset name)).hosts ∧
      group'.children = (entry.dataset.groups[name]?.getD (created entry.dataset name)).children
  clock : SameClock entry entry'
  hostTimestamps : entry'.hostTimestamps = entry.hostTimestamps
  removeHosts : entry'.dataset.removeHosts = entry.dataset.removeHosts

theorem getElem?_saidOfHost (speakers : List (Enricher × Dataset)) (hostname key : String) :
    (saidOfHost speakers hostname)[key]? = speakers.reverse.findSome? fun (enricher, source) =>
      (enricher.ownedByHost source hostname)[key]? := by
  rw [saidOfHost, getElem?_carried, ← List.map_reverse, List.findSome?_map]
  rfl

theorem getElem?_saidOfGroup (speakers : List (Enricher × Dataset)) (name key : String) :
    (saidOfGroup speakers name)[key]? = speakers.reverse.findSome? fun (enricher, source) =>
      (enricher.ownedByGroup source name)[key]? := by
  rw [saidOfGroup, getElem?_carried, ← List.map_reverse, List.findSome?_map]
  rfl

theorem saidOfGroup_eq_empty_iff (speakers : List (Enricher × Dataset)) (name : String) :
    saidOfGroup speakers name = ∅ ↔
      ∀ speaker ∈ speakers, speaker.1.ownedByGroup speaker.2 name = ∅ := by
  rw [saidOfGroup, carried_eq_empty_iff, List.forall_mem_map]

theorem enrichAll_enrichedBy (speakers : List (Enricher × Dataset)) (entry : CacheEntry) :
    EnrichedBy speakers entry (enrichAll speakers entry) := by
  obtain ⟨hclock, hstamps, hremoved⟩ := enrichAll_rest speakers entry
  constructor
  case hosts =>
    intro hostname
    rw [enrichAll_hostvars, Std.ExtTreeMap.mem_map]
  case hostVars =>
    intro hostname hhost key
    obtain ⟨vars, hvars⟩ := (StrMap.mem_iff_exists _ _).mp hhost
    rw [enrichAll_hostvars, StrMap.getElem?_map, hvars, Option.map_some, Option.bind_some,
      Option.bind_some, getElem?_extend, getElem?_saidOfHost]
  case groupVars =>
    intro name key
    rw [enrichAll_groups, ← getElem?_saidOfGroup]
    split
    · rename_i hnone
      rw [hnone]
      simp
    · simp only [carrying, Option.bind_some, getElem?_extend]
      cases entry.dataset.groups[name]? with
      | none => simp
      | some group => cases hvars : group.vars <;> simp [hvars]
  case groups =>
    intro name
    have hspoken : (∃ speaker ∈ speakers, speaker.1.ownedByGroup speaker.2 name ≠ ∅) ↔
        saidOfGroup speakers name ≠ ∅ := by
      rw [Ne, saidOfGroup_eq_empty_iff]
      push Not
      rfl
    rw [hspoken, StrMap.mem_iff_exists, StrMap.mem_iff_exists, enrichAll_groups]
    by_cases hsaid : saidOfGroup speakers name = ∅ <;> simp [hsaid]
  case untouched =>
    intro name hnone
    rw [enrichAll_groups, if_pos ((saidOfGroup_eq_empty_iff speakers name).mpr hnone)]
  case members =>
    intro name group' hgroup
    rw [enrichAll_groups] at hgroup
    split at hgroup
    · rw [hgroup]
      exact ⟨rfl, rfl⟩
    · obtain rfl := Option.some.inj hgroup
      exact ⟨rfl, rfl⟩
  case clock => exact hclock
  case hostTimestamps => exact hstamps
  case removeHosts => exact hremoved

/-- The order of the map is forgotten. -/
theorem matching_perm {enrichers : StrMap Enricher} {order : List (String × Enricher)}
    (h : order.Perm enrichers.toList) (targetId : String) :
    matching order targetId = matching enrichers.toList targetId := by
  refine Sorted.mergeSort_eq_of_perm_of_nodup Prod.fst (h.filter _) ?_
  refine ((h.map Prod.fst).nodup_iff.mpr ?_).sublist (List.filter_sublist.map _)
  rw [Std.ExtTreeMap.map_fst_toList_eq_keys]
  exact Std.ExtTreeMap.nodup_keys

/-- **The winner is a rule.** In whatever order the enrichers of a target stand in
their map, and with all of them declarative: a pass applies each of them if the
target is cached; every variable is then what the last of them by id says of it,
among those whose source is cached, and what it was where none says anything;
nothing else changes, in any entry; and a second pass changes nothing. -/
theorem enrichment_pass (answers : String → Dataset → EnricherResult) (now : String → Nat)
    {enrichers : StrMap Enricher} {order order' : List (String × Enricher)}
    (horder : order.Perm enrichers.toList) (horder' : order'.Perm enrichers.toList)
    {targetId : String}
    (hdeclarative : ∀ (id : String) (enricher : Enricher), enrichers[id]? = some enricher →
      enricher.targetId = targetId → enricher.sourceId.isSome) (state : EnrichState) :
    let pass := runEnrichersForTarget answers now order targetId state
    pass.applied = (if (state.cache.get targetId).isSome then
      (matching enrichers.toList targetId).length else 0) ∧
    (∀ key, key ≠ targetId → pass.state.cache.get key = state.cache.get key) ∧
    Option.Rel (EnrichedBy (speaking state.cache (matching enrichers.toList targetId)))
      (state.cache.get targetId) (pass.state.cache.get targetId) ∧
    ∀ key, (runEnrichersForTarget answers now order' targetId pass.state).state.cache.get key =
      pass.state.cache.get key := by
  have hmatching : ∀ next ∈ matching enrichers.toList targetId,
      next.2.targetId = targetId ∧ next.2.sourceId.isSome := by
    intro next hnext
    obtain ⟨hmem, htarget⟩ := List.mem_filter.mp (List.mem_mergeSort.mp hnext)
    have heq : next.2.targetId = targetId := by simpa using htarget
    exact ⟨heq, hdeclarative next.1 next.2
      (Std.ExtTreeMap.mem_toList_iff_getElem?_eq_some.mp hmem) heq⟩
  have htarget : ∀ next ∈ matching enrichers.toList targetId, next.2.targetId = targetId :=
    fun next hnext => (hmatching next hnext).1
  have hsource : ∀ next ∈ matching enrichers.toList targetId, next.2.sourceId.isSome :=
    fun next hnext => (hmatching next hnext).2
  simp only [runEnrichersForTarget, matching_perm horder, matching_perm horder']
  obtain ⟨hget, happlied⟩ := foldl_applyNext answers now htarget hsource { state }
  obtain ⟨hget', _⟩ := foldl_applyNext answers now htarget hsource
    { state := (List.foldl (applyNext answers now) { state }
      (matching enrichers.toList targetId)).state }
  have hothers : ∀ key, key ≠ targetId → ((matching enrichers.toList targetId).foldl
      (applyNext answers now) { state }).state.cache.get key = state.cache.get key :=
    fun key hkey => by rw [hget, if_neg (Ne.symm hkey)]
  refine ⟨by rw [happlied, Nat.zero_add], hothers, ?_, fun key => ?_⟩
  · rw [hget, if_pos rfl]
    cases state.cache.get targetId with
    | none => exact .none
    | some entry => exact .some (enrichAll_enrichedBy _ entry)
  · rw [hget']
    split
    · rename_i hkey
      subst hkey
      rw [speaking_congr hothers htarget, hget, if_pos rfl, Option.map_map]
      exact congrArg (Option.map · _) (funext fun entry => enrichAll_again _ entry)
    · rfl

/-- Two sources that name the owner of one host. -/
def rivalCache : MemoryCache where
  store :=
    let saying (fields : List (String × Json)) : Dataset :=
      { hostvars := (∅ : StrMap HostVars).insert "a" (Std.ExtTreeMap.ofList fields) }
    (((∅ : StrMap CacheEntry).insert "lab" (.new (saying []) 60 0)).insert "cmdb"
      (.new (saying [("owner", .string "ops")]) 60 0)).insert "scan"
      (.new (saying [("owner", .string "nobody"), ("os", .string "linux")]) 60 0)

def rivalEnrichers : StrMap Enricher :=
  ((∅ : StrMap Enricher).insert "2-owners" { targetId := "lab", sourceId := some "cmdb" }).insert
    "1-facts" { targetId := "lab", sourceId := some "scan" }

theorem rivalEnrichers_pass :
    ∃ entry, (runEnrichersForTarget (fun _ _ => .error "") (fun _ => 0)
      rivalEnrichers.toList.reverse "lab" ⟨rivalCache, {}⟩).state.cache.get "lab" = some entry ∧
      (entry.dataset.hostvars["a"]?.bind (·["owner"]?)) = some (.string "ops") ∧
      (entry.dataset.hostvars["a"]?.bind (·["os"]?)) = some (.string "linux") := by
  have hdeclarative : ∀ (id : String) (enricher : Enricher),
      rivalEnrichers[id]? = some enricher → enricher.targetId = "lab" →
        enricher.sourceId.isSome := by
    intro id enricher henricher _
    simp only [rivalEnrichers, StrMap.getElem?_insert] at henricher
    split at henricher
    · rw [← Option.some.inj henricher]
      rfl
    · split at henricher
      · rw [← Option.some.inj henricher]
        rfl
      · simp at henricher
  obtain ⟨_, _, hrel, _⟩ := enrichment_pass (fun _ _ => .error "") (fun _ => 0)
    rivalEnrichers.toList.reverse_perm (.refl _) hdeclarative ⟨rivalCache, {}⟩
  -- a map is gone through in order here, which leaves nothing to sort
  have hmatching : matching rivalEnrichers.toList "lab" =
      rivalEnrichers.toList.filter (·.2.targetId == "lab") :=
    List.mergeSort_of_pairwise (by decide +kernel)
  rw [hmatching] at hrel
  generalize (runEnrichersForTarget (fun _ _ => .error "") (fun _ => 0)
    rivalEnrichers.toList.reverse "lab" ⟨rivalCache, {}⟩).state.cache.get "lab" = after at hrel
  cases hrel with
  | some hafter =>
    refine ⟨_, rfl, (hafter.hostVars "a" (by decide) "owner").trans ?_,
      (hafter.hostVars "a" (by decide) "os").trans ?_⟩ <;> decide +kernel

end UnifiedApi
