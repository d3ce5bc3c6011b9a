import UnifiedApi.Application.ReplaceKeeping

/-! # What a host-scoped sync does to memberships

Each requested host that the connector returned and placed in a group is moved to
the groups it named. Nobody else moves, `all` and `ungrouped` list whom they listed,
and the same answer a second time changes nothing. -/

namespace UnifiedApi
open CacheEntry

/-! ## One host -/

theorem joined_eq_self {group : Group} {hostname : String} (h : hostname ∈ group.hosts) :
    group.joined hostname = group := by
  have hlisted : (group.hosts.any (· == hostname)) = true :=
    List.any_eq_true.mpr ⟨hostname, h, beq_self_eq_true hostname⟩
  rw [Group.joined, if_pos hlisted]

theorem mem_joined (group : Group) (hostname : String) :
    hostname ∈ (group.joined hostname).hosts := by
  rw [← List.count_pos_iff, count_joined, if_pos rfl]
  omega

theorem without_eq_self {group : Group} {hostname : String} (h : hostname ∉ group.hosts) :
    group.without hostname = group := by
  have hhosts : group.hosts.filter (· != hostname) = group.hosts := by
    refine List.filter_eq_self.mpr fun other hother => bne_iff_ne.mpr ?_
    rintro rfl
    exact h hother
  rw [Group.without, hhosts]

theorem count_without (group : Group) (hostname other : String) :
    (group.without hostname).hosts.count other =
      if hostname = other then 0 else group.hosts.count other := by
  unfold Group.without
  by_cases h : hostname = other
  · subst h
    rw [if_pos rfl, List.count_eq_zero]
    simp
  · rw [if_neg h, List.count_filter (by simpa using Ne.symm h)]

theorem setHostGroups_groups (entry : CacheEntry) (hostname : String) (groups : List String)
    (name : String) :
    (entry.setHostGroups hostname groups).dataset.groups[name]? =
      if isMetaGroup name = true then entry.dataset.groups[name]?
      else if name ∈ groups then some ((entry.dataset.groups[name]?.getD {}).joined hostname)
      else entry.dataset.groups[name]?.map (·.without hostname) := by
  have hstep : StrMap.KeyOnly (fun (all : StrMap Group) name =>
      if isMetaGroup name then all else joinGroup all name hostname) fun name group =>
        if isMetaGroup name then group else some ((group.getD {}).joined hostname) := by
    intro all name other
    dsimp only
    split
    · split <;> rfl
    · exact StrMap.getElem?_alter all name other _
  have hidem : ∀ (name : String) (group : Option Group),
      (if isMetaGroup name then (if isMetaGroup name then group
          else some ((group.getD {}).joined hostname))
        else some (((if isMetaGroup name then group
          else some ((group.getD {}).joined hostname)).getD {}).joined hostname)) =
        if isMetaGroup name then group else some ((group.getD {}).joined hostname) := by
    intro name group
    split
    · rfl
    · rw [Option.getD_some, joined_eq_self (mem_joined _ _)]
  unfold setHostGroups
  rw [StrMap.getElem?_foldl_keys hstep hidem, StrMap.getElem?_map]
  cases hmeta : isMetaGroup name with
  | true => cases entry.dataset.groups[name]? <;> simp
  | false =>
    by_cases hname : name ∈ groups
    · have hkept : (groups.any fun other => other == name) = true :=
        List.any_eq_true.mpr ⟨name, hname, beq_self_eq_true name⟩
      cases entry.dataset.groups[name]? <;> simp [hname]
    · cases entry.dataset.groups[name]? <;> simp [hname]

theorem listings_setHostGroups (entry : CacheEntry) (hostname : String) (groups : List String)
    (name other : String) :
    listings (entry.setHostGroups hostname groups).dataset.groups name other =
      if hostname = other ∧ isMetaGroup name = false then
        if name ∈ groups then max 1 (listings entry.dataset.groups name other) else 0
      else listings entry.dataset.groups name other := by
  unfold listings
  rw [setHostGroups_groups]
  cases hmeta : isMetaGroup name with
  | true => simp
  | false =>
    by_cases hname : name ∈ groups
    · simp only [Bool.false_eq_true, if_false, if_pos hname, Option.map_some, Option.getD_some,
        count_joined, and_true]
      cases entry.dataset.groups[name]? <;> rfl
    · cases entry.dataset.groups[name]? with
      | none => simp [hname]
      | some group => simp [hname, count_without]

/-- The host is where it is to be put already. -/
theorem setHostGroups_settled {entry : CacheEntry} {hostname : String} {groups : List String}
    (h : ∀ name, isMetaGroup name = false →
      (name ∈ groups ↔ 0 < listings entry.dataset.groups name hostname)) :
    (entry.setHostGroups hostname groups).dataset.groups = entry.dataset.groups := by
  apply Std.ExtTreeMap.ext_getElem?
  intro name
  rw [setHostGroups_groups]
  cases hmeta : isMetaGroup name with
  | true => rw [if_pos rfl]
  | false =>
    have hiff := h name hmeta
    unfold listings at hiff
    rw [if_neg Bool.false_ne_true]
    cases hgroup : entry.dataset.groups[name]? with
    | none =>
      rw [hgroup] at hiff
      rw [if_neg fun hname => absurd (hiff.mp hname) (by simp), Option.map_none]
    | some group =>
      rw [hgroup, Option.map_some, Option.getD_some, List.count_pos_iff] at hiff
      by_cases hname : name ∈ groups
      · rw [if_pos hname, Option.getD_some, joined_eq_self (hiff.mp hname)]
      · rw [if_neg hname, Option.map_some, without_eq_self fun hmem => hname (hiff.mpr hmem)]

/-! ## All requested hosts -/

/-- The host was asked for, and the connector returned it and placed it somewhere. -/
def Placed (hosts : List String) (output : ConnectorOutput) (host : String) : Prop :=
  host ∈ hosts ∧ host ∈ output.dataset.hostvars ∧ output.dataset.groupsOf host ≠ []

instance (hosts : List String) (output : ConnectorOutput) (host : String) :
    Decidable (Placed hosts output host) :=
  inferInstanceAs (Decidable (_ ∧ _ ∧ _))

theorem mem_scopedMemberships {hosts : List String} {output : ConnectorOutput}
    {membership : String × List String} :
    membership ∈ scopedMemberships (scopedUpdates hosts output) output.dataset ↔
      Placed hosts output membership.1 ∧ membership.2 = output.dataset.groupsOf membership.1 := by
  unfold scopedMemberships scopedUpdates Placed
  simp only [List.mem_filterMap, Option.map_eq_some_iff, StrMap.mem_iff_exists]
  constructor
  · rintro ⟨_, ⟨host, hhost, vars, hvars, rfl⟩, hmembership⟩
    dsimp only at hmembership
    split at hmembership
    · cases hmembership
    · rename_i hplaced
      obtain rfl := Option.some.inj hmembership
      exact ⟨⟨hhost, ⟨vars, hvars⟩, by simpa using hplaced⟩, rfl⟩
  · obtain ⟨host, groups⟩ := membership
    rintro ⟨⟨hhost, ⟨vars, hvars⟩, hplaced⟩, hgroups⟩
    refine ⟨(host, vars, output.ageOf host), ⟨host, hhost, vars, hvars, rfl⟩, ?_⟩
    rw [if_neg (by simpa using hplaced), ← hgroups]

/-- The moves of the placed hosts, one after the other. -/
def placeHosts (memberships : List (String × List String)) (entry : CacheEntry) : CacheEntry :=
  memberships.foldl (fun entry membership => entry.setHostGroups membership.1 membership.2) entry

theorem listings_placeHosts {dataset : Dataset} {memberships : List (String × List String)}
    (h : ∀ membership ∈ memberships, membership.2 = dataset.groupsOf membership.1)
    (entry : CacheEntry) (name other : String) :
    listings (placeHosts memberships entry).dataset.groups name other =
      if other ∈ memberships.map Prod.fst ∧ isMetaGroup name = false then
        if name ∈ dataset.groupsOf other then max 1 (listings entry.dataset.groups name other)
        else 0
      else listings entry.dataset.groups name other := by
  unfold placeHosts
  induction memberships generalizing entry with
  | nil => simp
  | cons membership rest ih =>
    have hhead := h membership List.mem_cons_self
    rw [List.foldl_cons, ih fun other hother => h other (List.mem_cons_of_mem _ hother),
      listings_setHostGroups, hhead, List.map_cons]
    cases hmeta : isMetaGroup name with
    | true => simp
    | false =>
      by_cases hsame : membership.1 = other
      · subst hsame
        by_cases hname : name ∈ dataset.groupsOf membership.1 <;> simp [hname]
      · have hrest : other ∈ membership.1 :: rest.map Prod.fst ↔ other ∈ rest.map Prod.fst :=
          ⟨fun hmem => (List.mem_cons.mp hmem).resolve_left (Ne.symm hsame), List.mem_cons_of_mem _⟩
        simp only [hrest, hsame, false_and, if_false]

theorem placeHosts_settled {memberships : List (String × List String)} {entry : CacheEntry}
    (h : ∀ membership ∈ memberships, ∀ name, isMetaGroup name = false →
      (name ∈ membership.2 ↔ 0 < listings entry.dataset.groups name membership.1)) :
    (placeHosts memberships entry).dataset.groups = entry.dataset.groups := by
  unfold placeHosts
  induction memberships generalizing entry with
  | nil => rfl
  | cons membership rest ih =>
    have hhead := setHostGroups_settled (h membership List.mem_cons_self)
    rw [List.foldl_cons, ih, hhead]
    rw [hhead]
    exact fun other hother => h other (List.mem_cons_of_mem _ hother)

theorem placeHosts_meta (memberships : List (String × List String)) (entry : CacheEntry)
    {name : String} (hmeta : isMetaGroup name = true) :
    (placeHosts memberships entry).dataset.groups[name]? = entry.dataset.groups[name]? := by
  unfold placeHosts
  induction memberships generalizing entry with
  | nil => rfl
  | cons membership rest ih =>
    rw [List.foldl_cons, ih, setHostGroups_groups, if_pos hmeta]

/-! ## The vars of the groups they landed in -/

theorem scopedGroupVars_groups (memberships : List (String × List String)) (dataset : Dataset)
    (name : String) {group : Group}
    (h : (scopedGroupVars memberships dataset).groups[name]? = some group) : group.hosts = [] := by
  unfold scopedGroupVars at h
  rw [StrMap.getElem?_map] at h
  obtain ⟨found, _, rfl⟩ := Option.map_eq_some_iff.mp h
  rfl

/-- A group that is created by its vars lists nobody, and the others list whom
they listed. -/
theorem mergeGroupVarFields_hosts {part : Dataset}
    (hpart : ∀ (name : String) (group : Group), part.groups[name]? = some group → group.hosts = [])
    (entry : CacheEntry) (name : String) :
    ((entry.mergeGroupVarFields part).dataset.groups[name]?.map (·.hosts)).getD [] =
      (entry.dataset.groups[name]?.map (·.hosts)).getD [] := by
  rw [mergeGroupVarFields_groups]
  cases hgroup : part.groups[name]? with
  | none => rfl
  | some group =>
    rw [Option.bind_some]
    cases group.vars with
    | none => rfl
    | some vars => cases entry.dataset.groups[name]? <;> simp [carrying, hpart name group hgroup]

theorem mergeGroupVarFields_of_some {entry : CacheEntry} (part : Dataset) {name : String}
    {group : Group} (h : entry.dataset.groups[name]? = some group) :
    ∃ group', (entry.mergeGroupVarFields part).dataset.groups[name]? = some group' ∧
      group'.hosts = group.hosts := by
  rw [mergeGroupVarFields_groups, h]
  cases part.groups[name]? with
  | none => exact ⟨group, rfl, rfl⟩
  | some created =>
    rw [Option.bind_some]
    cases created.vars with
    | none => exact ⟨group, rfl, rfl⟩
    | some vars => exact ⟨_, rfl, rfl⟩

theorem listings_eq_count (groups : StrMap Group) (name hostname : String) :
    listings groups name hostname = ((groups[name]?.map (·.hosts)).getD []).count hostname := by
  unfold listings
  cases groups[name]? <;> rfl

theorem carrying_carrying (created : Group) (vars : HostVars) (group : Option Group) :
    carrying created vars (some (carrying created vars group)) = carrying created vars group := by
  have hextend : ∀ existing, extend (extend existing vars) vars = extend existing vars := by
    intro existing
    apply Std.ExtTreeMap.ext_getElem?
    intro key
    simp only [getElem?_extend]
    cases vars[key]? <;> rfl
  simp [carrying, hextend]

/-- The same vars a second time change nothing. -/
theorem mergeGroupVarFields_settled {part : Dataset} {before after : CacheEntry}
    (h : after.dataset.groups = (before.mergeGroupVarFields part).dataset.groups) :
    (after.mergeGroupVarFields part).dataset.groups = after.dataset.groups := by
  apply Std.ExtTreeMap.ext_getElem?
  intro name
  rw [mergeGroupVarFields_groups, h, mergeGroupVarFields_groups]
  cases part.groups[name]? with
  | none => rfl
  | some group =>
    simp only [Option.bind_some]
    cases group.vars with
    | none => rfl
    | some vars => simp [carrying_carrying]

/-! ## A host-scoped sync -/

section
variable (source : Source) (hosts : List String) (output : ConnectorOutput) (now : Nat)

/-- The moves of the placed hosts in the entry whose variables are patched. -/
def movedHosts (entry : CacheEntry) : CacheEntry :=
  placeHosts (scopedMemberships (scopedUpdates hosts output) output.dataset)
    (updateHosts (scopedUpdates hosts output) now entry)

/-- A loop whose body leaves a part of the dataset alone leaves it alone. -/
theorem foldl_unchanged {α β : Type} (part : Dataset → β) {step : CacheEntry → α → CacheEntry}
    (h : ∀ entry x, part (step entry x).dataset = part entry.dataset) (l : List α)
    (entry : CacheEntry) : part (l.foldl step entry).dataset = part entry.dataset := by
  induction l generalizing entry with
  | nil => rfl
  | cons x rest ih => exact (ih (step entry x)).trans (h entry x)

theorem updateHosts_groups (updates : List (String × HostVars × Nat)) (entry : CacheEntry) :
    (updateHosts updates now entry).dataset.groups = entry.dataset.groups := by
  refine foldl_unchanged Dataset.groups ?_ updates entry
  exact fun _ _ => rfl

theorem patchHosts_groups (entry : CacheEntry) :
    (patchHosts source hosts output now entry).dataset.groups =
      if source.hostSyncUpdatesGroupVars then
        ((movedHosts hosts output now entry).mergeGroupVarFields (scopedGroupVars
          (scopedMemberships (scopedUpdates hosts output) output.dataset)
          output.dataset)).dataset.groups
      else (movedHosts hosts output now entry).dataset.groups := by
  unfold patchHosts movedHosts placeHosts
  dsimp only
  split <;> rfl

theorem patchHosts_listed (entry : CacheEntry) (name : String) :
    ((patchHosts source hosts output now entry).dataset.groups[name]?.map (·.hosts)).getD [] =
      ((movedHosts hosts output now entry).dataset.groups[name]?.map (·.hosts)).getD [] := by
  rw [patchHosts_groups]
  split
  · exact mergeGroupVarFields_hosts (fun name group => scopedGroupVars_groups _ _ name) _ name
  · rfl

theorem listings_patchHosts (entry : CacheEntry) (name host : String) :
    listings (patchHosts source hosts output now entry).dataset.groups name host =
      if Placed hosts output host ∧ isMetaGroup name = false then
        if name ∈ output.dataset.groupsOf host then
          max 1 (listings entry.dataset.groups name host)
        else 0
      else listings entry.dataset.groups name host := by
  have hplaced : host ∈ (scopedMemberships (scopedUpdates hosts output)
      output.dataset).map Prod.fst ↔ Placed hosts output host := by
    simp [mem_scopedMemberships]
  rw [listings_eq_count, patchHosts_listed, ← listings_eq_count, movedHosts,
    listings_placeHosts fun membership h => (mem_scopedMemberships.mp h).2, updateHosts_groups]
  simp only [hplaced]

theorem patchHosts_meta (entry : CacheEntry) {name : String} {group : Group}
    (hmeta : isMetaGroup name = true) (hgroup : entry.dataset.groups[name]? = some group) :
    ∃ group', (patchHosts source hosts output now entry).dataset.groups[name]? = some group' ∧
      group'.hosts = group.hosts := by
  have hmoved : (movedHosts hosts output now entry).dataset.groups[name]? = some group := by
    rw [movedHosts, placeHosts_meta _ _ hmeta, updateHosts_groups, hgroup]
  rw [patchHosts_groups]
  split
  · exact mergeGroupVarFields_of_some _ hmoved
  · exact ⟨group, hmoved, rfl⟩

theorem patchHosts_hostvars (entry : CacheEntry) (host : String) :
    (patchHosts source hosts output now entry).dataset.hostvars[host]? =
      if host ∈ hosts then output.dataset.hostvars[host]?.or entry.dataset.hostvars[host]?
      else entry.dataset.hostvars[host]? := by
  rw [(patchHosts_sameHosts hosts output now entry source).1, updateHosts_hostvars]

theorem patchHosts_removeHosts (entry : CacheEntry) :
    (patchHosts source hosts output now entry).dataset.removeHosts =
      entry.dataset.removeHosts := by
  have hmoved : (movedHosts hosts output now entry).dataset.removeHosts =
      entry.dataset.removeHosts := by
    refine (foldl_unchanged Dataset.removeHosts ?_ _ _).trans
      (foldl_unchanged Dataset.removeHosts ?_ (scopedUpdates hosts output) entry)
    · exact fun _ _ => rfl
    · exact fun _ _ => rfl
  unfold patchHosts
  dsimp only
  split
  · exact hmoved
  · exact hmoved

/-- The same answer a second time changes nothing. -/
theorem patchHosts_again {entry entry' : CacheEntry} (later : Nat)
    (h : entry'.dataset = (patchHosts source hosts output now entry).dataset) :
    (patchHosts source hosts output later entry').dataset = entry'.dataset := by
  have hmoved : (movedHosts hosts output later entry').dataset.groups = entry'.dataset.groups := by
    rw [movedHosts, placeHosts_settled, updateHosts_groups]
    intro membership hmembership name hmeta
    obtain ⟨hplaced, hgroups⟩ := mem_scopedMemberships.mp hmembership
    rw [updateHosts_groups, h, listings_patchHosts, if_pos ⟨hplaced, hmeta⟩, hgroups]
    split
    · rename_i hname
      exact iff_of_true hname (by omega)
    · rename_i hname
      exact iff_of_false hname (lt_irrefl 0)
  have hgroups : (patchHosts source hosts output later entry').dataset.groups =
      entry'.dataset.groups := by
    have hbefore : entry'.dataset.groups = _ :=
      (congrArg Dataset.groups h).trans (patchHosts_groups source hosts output now entry)
    rw [patchHosts_groups]
    split
    · rename_i hupdates
      rw [if_pos hupdates] at hbefore
      rw [mergeGroupVarFields_settled (hmoved.trans hbefore), hmoved]
    · exact hmoved
  have hhostvars : (patchHosts source hosts output later entry').dataset.hostvars =
      entry'.dataset.hostvars := by
    apply Std.ExtTreeMap.ext_getElem?
    intro host
    rw [patchHosts_hostvars, h, patchHosts_hostvars]
    split
    · cases output.dataset.hostvars[host]? <;> rfl
    · rfl
  have hremove := patchHosts_removeHosts source hosts output later entry'
  calc (patchHosts source hosts output later entry').dataset
    _ = ⟨_, _, _⟩ := rfl
    _ = ⟨_, _, _⟩ := by rw [hhostvars, hgroups, hremove]
    _ = entry'.dataset := rfl

end

/-- What a host-scoped sync makes of the dataset. A placed host is listed in the
groups the connector named, once unless it was listed there more often before. -/
structure HostSynced (hosts : List String) (output : ConnectorOutput) (before after : Dataset) :
    Prop where
  placed : ∀ host name, Placed hosts output host → isMetaGroup name = false →
    listings after.groups name host =
      if name ∈ output.dataset.groupsOf host then max 1 (listings before.groups name host) else 0
  others : ∀ host name, ¬ Placed hosts output host →
    listings after.groups name host = listings before.groups name host
  metaGroups : ∀ (name : String) (group : Group), isMetaGroup name = true →
    before.groups[name]? = some group →
      ∃ group', after.groups[name]? = some group' ∧ group'.hosts = group.hosts
  hostvars : ∀ host : String, host ∉ hosts → after.hostvars[host]? = before.hostvars[host]?

theorem patchHosts_synced (source : Source) (hosts : List String) (output : ConnectorOutput)
    (now : Nat) (entry : CacheEntry) :
    HostSynced hosts output entry.dataset (patchHosts source hosts output now entry).dataset where
  placed host name hplaced hmeta := by
    rw [listings_patchHosts, if_pos ⟨hplaced, hmeta⟩]
  others host _ hplaced := by
    rw [listings_patchHosts, if_neg fun h => hplaced h.1]
  metaGroups _ _ hmeta hgroup := patchHosts_meta source hosts output now entry hmeta hgroup
  hostvars host hhost := by rw [patchHosts_hostvars, if_neg hhost]

theorem synced_of_nothing {hosts : List String} {output : ConnectorOutput}
    (h : (scopedUpdates hosts output).isEmpty = true) (dataset : Dataset) :
    HostSynced hosts output dataset dataset where
  placed host _ hplaced _ :=
    absurd hplaced.2.1 ((scopedUpdates_isEmpty hosts output).mp h host hplaced.1)
  others _ _ _ := rfl
  metaGroups _ group _ hgroup := ⟨group, hgroup, rfl⟩
  hostvars _ _ := rfl

/-- A host-scoped sync of an entry that was there, once and a second time. -/
theorem hostSync_synced {cache : MemoryCache} {sourceId : String} {entry : CacheEntry}
    (hentry : cache.get sourceId = some entry) (source : Source) (hosts : List String)
    (output : ConnectorOutput) (now later : Nat) :
    ∃ once twice,
      (applyToCache cache sourceId source (.hosts hosts) output now).get sourceId = some once ∧
      (applyToCache (applyToCache cache sourceId source (.hosts hosts) output now) sourceId source
        (.hosts hosts) output later).get sourceId = some twice ∧
      HostSynced hosts output entry.dataset once.dataset ∧
      twice.dataset = once.dataset := by
  by_cases hempty : (scopedUpdates hosts output).isEmpty = true
  · refine ⟨entry, entry, ?_, ?_, synced_of_nothing hempty entry.dataset, rfl⟩
    · rw [get_applyToCache, if_pos rfl, hentry, syncedEntry, if_pos hempty]
    · rw [get_applyToCache, if_pos rfl, get_applyToCache, if_pos rfl, hentry, syncedEntry,
        if_pos hempty, syncedEntry, if_pos hempty]
  · have hsynced := patchHosts_synced source hosts output now (entry.setTtl source.ttlSeconds)
    have hagain : (patchHosts source hosts output later
        ((patchHosts source hosts output now (entry.setTtl source.ttlSeconds)).setTtl
          source.ttlSeconds)).dataset =
        (patchHosts source hosts output now (entry.setTtl source.ttlSeconds)).dataset :=
      patchHosts_again source hosts output now later rfl
    refine ⟨_, _, ?_, ?_, hsynced, hagain⟩
    · rw [get_applyToCache, if_pos rfl, hentry, syncedEntry, if_neg hempty]
    · rw [get_applyToCache, if_pos rfl, get_applyToCache, if_pos rfl, hentry, syncedEntry,
        if_neg hempty, syncedEntry, if_neg hempty]

/-- An entry one of whose groups lists a host twice. -/
def listedTwice : CacheEntry :=
  .new { hostvars := ((∅ : StrMap HostVars).insert "web1" ∅).insert "web2" ∅
         groups := (((∅ : StrMap Group).insert "web" { hosts := ["web1", "web1"] }).insert "db"
           { hosts := ["web1", "web2"] }).insert "ungrouped" { hosts := ["web2"] } } 60 0

/-- An answer that places one host, in that group and in a new one, and says
nothing of where the other belongs. -/
def webAnswer : ConnectorOutput where
  dataset := { hostvars := ((∅ : StrMap HostVars).insert "web1" ∅).insert "web2" ∅
               groups := ((∅ : StrMap Group).insert "web" { hosts := ["web1"] }).insert "dc1"
                 { hosts := ["web1"] } }

def webSource : Source := { ttlSeconds := 60 }

def listedTwiceCache : MemoryCache := ({} : MemoryCache).set "cmdb" listedTwice

theorem get_listedTwiceCache : listedTwiceCache.get "cmdb" = some listedTwice :=
  (MemoryCache.get_set _ _ _ _).trans (if_pos rfl)

theorem listedTwice_synced : ∃ once twice,
    (applyToCache listedTwiceCache "cmdb" webSource (.hosts ["web1", "web2", "web1"]) webAnswer
      0).get "cmdb" = some once ∧
    (applyToCache (applyToCache listedTwiceCache "cmdb" webSource (.hosts ["web1", "web2", "web1"])
      webAnswer 0) "cmdb" webSource (.hosts ["web1", "web2", "web1"]) webAnswer 1).get "cmdb" =
      some twice ∧
    HostSynced ["web1", "web2", "web1"] webAnswer listedTwice.dataset once.dataset ∧
    twice.dataset = once.dataset ∧
    ["web", "db", "dc1"].map (listings once.dataset.groups · "web1") = [2, 0, 1] ∧
    listings once.dataset.groups "db" "web2" = 1 := by
  obtain ⟨once, twice, honce, htwice, hsynced, hsame⟩ := hostSync_synced
    get_listedTwiceCache webSource ["web1", "web2", "web1"] webAnswer 0 1
  refine ⟨once, twice, honce, htwice, hsynced, hsame, ?_, ?_⟩
  · have hplaced : Placed ["web1", "web2", "web1"] webAnswer "web1" := by decide +kernel
    simp only [List.map_cons, List.map_nil]
    rw [hsynced.placed "web1" "web" hplaced (by decide), hsynced.placed "web1" "db" hplaced
      (by decide), hsynced.placed "web1" "dc1" hplaced (by decide)]
    decide +kernel
  · rw [hsynced.others "web2" "db" (by decide +kernel)]
    decide +kernel

theorem listedTwice_stays : ¬ ∀ (cache : MemoryCache) (sourceId : String) (source : Source)
    (hosts : List String) (output : ConnectorOutput) (now : Nat) (entry entry' : CacheEntry),
    cache.get sourceId = some entry →
    (applyToCache cache sourceId source (.hosts hosts) output now).get sourceId = some entry' →
    ∀ host name, Placed hosts output host → isMetaGroup name = false →
      listings entry'.dataset.groups name host =
        if name ∈ output.dataset.groupsOf host then 1 else 0 := by
  intro h
  have hupdates : ¬ (scopedUpdates ["web1"] webAnswer).isEmpty = true := by decide +kernel
  have honce : (applyToCache listedTwiceCache "cmdb" webSource (.hosts ["web1"]) webAnswer
      0).get "cmdb" = some (patchHosts webSource ["web1"] webAnswer 0 (listedTwice.setTtl 60)) := by
    rw [get_applyToCache, if_pos rfl, get_listedTwiceCache, syncedEntry, if_neg hupdates]
    rfl
  have hplaced : Placed ["web1"] webAnswer "web1" := by decide +kernel
  have hbelongs : "web" ∈ webAnswer.dataset.groupsOf "web1" := by decide +kernel
  have hlisted : listings (listedTwice.setTtl 60).dataset.groups "web" "web1" = 2 := by
    decide +kernel
  have hmeta : isMetaGroup "web" = false := by decide
  have hclaimed := h _ _ _ _ _ _ _ _ get_listedTwiceCache honce "web1" "web" hplaced hmeta
  rw [listings_patchHosts, if_pos ⟨hplaced, hmeta⟩, if_pos hbelongs, if_pos hbelongs, hlisted]
    at hclaimed
  omega

end UnifiedApi
