import UnifiedApi.Application.SyncedHosts
import UnifiedApi.Domain.View

/-! # What a replace keeps of the hosts it could not reach

A full sync in replace mode swaps the entry and puts the unreachable hosts of
the old one back: their variables, their groups and their age. -/

namespace UnifiedApi
open Clock CacheEntry

/-! ## Memberships -/

/-- How often the group lists the host. -/
def listings (groups : StrMap Group) (name hostname : String) : Nat :=
  (groups[name]?.map fun group => group.hosts.count hostname).getD 0

theorem count_joined (group : Group) (hostname other : String) :
    (group.joined hostname).hosts.count other =
      if hostname = other then max 1 (group.hosts.count other) else group.hosts.count other := by
  unfold Group.joined
  split
  · rename_i hin
    split
    · rename_i hsame
      subst hsame
      obtain ⟨host, hmem, heq⟩ := List.any_eq_true.mp hin
      have hpos : 0 < group.hosts.count hostname :=
        List.count_pos_iff.mpr (beq_iff_eq.mp heq ▸ hmem)
      omega
    · rfl
  · rename_i hout
    rw [List.count_append]
    split
    · rename_i hsame
      subst hsame
      have hzero : group.hosts.count hostname = 0 := by
        rw [List.count_eq_zero]
        exact fun hmem => hout (List.any_eq_true.mpr ⟨hostname, hmem, beq_self_eq_true hostname⟩)
      rw [hzero, List.count_singleton_self]
      rfl
    · rename_i hne
      rw [List.count_singleton, if_neg (by simpa using hne), Nat.add_zero]

theorem listings_joinGroup (groups : StrMap Group) (name hostname g other : String) :
    listings (joinGroup groups name hostname) g other =
      if hostname = other ∧ name = g then max 1 (listings groups g other)
      else listings groups g other := by
  unfold listings joinGroup
  rw [StrMap.getElem?_alter]
  by_cases hname : name = g
  · subst hname
    rw [if_pos rfl, Option.map_some, Option.getD_some, count_joined]
    cases groups[name]? with
    | none => by_cases hhost : hostname = other <;> simp [hhost]
    | some group => by_cases hhost : hostname = other <;> simp [hhost]
  · rw [if_neg hname, if_neg fun h => hname h.2]

theorem listings_joinGroups (names : List String) (hostname : String) (groups : StrMap Group)
    (g other : String) :
    listings (names.foldl (joinGroup · · hostname) groups) g other =
      if hostname = other ∧ g ∈ names then max 1 (listings groups g other)
      else listings groups g other := by
  induction names generalizing groups with
  | nil => simp
  | cons name rest ih =>
    rw [List.foldl_cons, ih, listings_joinGroup]
    by_cases hhost : hostname = other
    · by_cases hname : name = g
      · simp [hhost, hname]
      · simp [hhost, hname, Ne.symm hname]
    · simp [hhost]

theorem mem_groupsOf {dataset : Dataset} {hostname g : String} :
    g ∈ dataset.groupsOf hostname ↔ dataset.groupLists g hostname = true := by
  unfold Dataset.groupsOf Dataset.groupLists Group.lists
  simp only [List.mem_map, List.mem_filter, Prod.exists, exists_and_right, exists_eq_right,
    Std.ExtTreeMap.mem_toList_iff_getElem?_eq_some]
  cases dataset.groups[g]? with
  | none => simp
  | some group => simp

/-- A host that is put back is listed once more in no group that had it. -/
theorem listings_restoreHost (old : CacheEntry) (host : String) (now : Nat) (entry : CacheEntry)
    (vars : HostVars) (g other : String) :
    listings (entry.restoreHost ⟨host, vars, (old.hostAgeSeconds host now).getD 0,
      old.dataset.groupsOf host⟩ now).dataset.groups g other =
      if host = other ∧ old.dataset.groupLists g host = true then
        max 1 (listings entry.dataset.groups g other)
      else listings entry.dataset.groups g other := by
  have hjoined := listings_joinGroups (old.dataset.groupsOf host) host entry.dataset.groups g other
  simp only [mem_groupsOf] at hjoined
  exact hjoined

/-- Every retained host is put into its groups once, also when it is named
several times. -/
theorem listings_restoreHosts (old : CacheEntry) (hosts : List String) (now : Nat)
    (entry : CacheEntry) (g other : String) :
    listings ((hosts.filterMap (old.captureHost · now)).foldl (fun entry host =>
      entry.restoreHost host now) entry).dataset.groups g other =
      if other ∈ hosts ∧ other ∈ old.dataset.hostvars ∧
          old.dataset.groupLists g other = true then
        max 1 (listings entry.dataset.groups g other)
      else listings entry.dataset.groups g other := by
  induction hosts generalizing entry with
  | nil => simp
  | cons host rest ih =>
    rw [List.filterMap_cons]
    cases hvars : old.dataset.hostvars[host]? with
    | none =>
      have hcapture : old.captureHost host now = none := by simp [captureHost, hvars]
      rw [hcapture]
      dsimp only
      rw [ih]
      by_cases hsame : host = other
      · subst hsame
        simp [StrMap.not_mem_of_none hvars]
      · simp [Ne.symm hsame]
    | some vars =>
      have hcapture : old.captureHost host now = some ⟨host, vars,
          (old.hostAgeSeconds host now).getD 0, old.dataset.groupsOf host⟩ := by
        simp [captureHost, hvars]
      rw [hcapture]
      dsimp only
      rw [List.foldl_cons, ih, listings_restoreHost]
      by_cases hsame : host = other
      · subst hsame
        by_cases hgroup : old.dataset.groupLists g host = true
        · simp [hgroup, StrMap.mem_of_some hvars]
        · simp [hgroup]
      · simp [hsame, Ne.symm hsame]

/-! ## What is kept -/

/-- A host the replace could not reach and has to keep. -/
def Retained (old : CacheEntry) (output : ConnectorOutput) (host : String) : Prop :=
  host ∈ output.unreachable ∧ host ∉ output.dataset.hostvars ∧ host ∈ old.dataset.hostvars

/-- Every group the dataset states names only hosts the dataset carries. -/
def Dataset.NamesOwnHosts (dataset : Dataset) : Prop :=
  ∀ name host, dataset.groupLists name host = true → host ∈ dataset.hostvars

/-- A retained host as it was: its variables, its groups, and no younger than
it was by more than the rounding of ages to whole seconds. -/
structure KeptHost (old entry : CacheEntry) (now : Nat) (host : String) : Prop where
  vars : entry.dataset.hostvars[host]? = old.dataset.hostvars[host]?
  groups : ∀ name, listings entry.dataset.groups name host =
    if old.dataset.groupLists name host = true then 1 else 0
  age : ∀ stamp, old.hostTimestamps[host]? = some stamp →
    ∃ kept, entry.hostTimestamps[host]? = some kept ∧
      elapsed now stamp < elapsed now kept + fromSecs 1
  notFresh : ∀ secs, old.isHostFresh host (some secs) now = false →
    entry.isHostFresh host (some secs) now = false

structure KeepsUnreachable (old : CacheEntry) (output : ConnectorOutput) (now : Nat)
    (entry : CacheEntry) : Prop where
  hosts : ∀ host, host ∈ entry.dataset.hostvars ↔
    host ∈ output.dataset.hostvars ∨ Retained old output host
  kept : ∀ host, Retained old output host → KeptHost old entry now host

/-- With nobody unreachable there is nothing to put back. -/
theorem syncedEntry_replace {source : Source} (hmode : source.syncMode = .replace)
    (output : ConnectorOutput) (now : Nat) (old : CacheEntry) :
    syncedEntry source .full output now (some old) =
      some (replaceKeeping source.ttlSeconds output now (old.setTtl source.ttlSeconds)
        output.dataset) := by
  simp only [syncedEntry, hmode]
  split
  · rename_i hempty
    have hnone : retainedHosts output.unreachable output.dataset now
        (old.setTtl source.ttlSeconds) = [] := by
      rw [List.isEmpty_iff.mp hempty]
      rfl
    rw [replaceKeeping, hnone]
    rfl
  · rfl

theorem replaceKeeping_listings (ttl : Nat) (output : ConnectorOutput) (now : Nat)
    (old : CacheEntry) (name host : String) (hretained : Retained old output host) :
    listings (replaceKeeping ttl output now old output.dataset).dataset.groups name host =
      if old.dataset.groupLists name host = true then
        max 1 (listings output.dataset.groups name host)
      else listings output.dataset.groups name host := by
  obtain ⟨hunreachable, hlacks, hheld⟩ := hretained
  have hkept := mem_unreachable_lacking.mpr ⟨hunreachable, hlacks⟩
  unfold replaceKeeping retainedHosts
  rw [listings_restoreHosts, gatheredEntry_dataset]
  simp [hkept, hheld]

theorem listings_of_namesOwnHosts {dataset : Dataset} (howns : dataset.NamesOwnHosts)
    {host : String} (hlacks : host ∉ dataset.hostvars) (name : String) :
    listings dataset.groups name host = 0 := by
  have hfree := mt (howns name host) hlacks
  unfold listings
  unfold Dataset.groupLists at hfree
  cases hgroup : dataset.groups[name]? with
  | none => rfl
  | some group =>
    simp only [hgroup, Group.lists, List.any_eq_true, not_exists, not_and] at hfree
    rw [Option.map_some, Option.getD_some, List.count_eq_zero]
    exact fun hmem => hfree host hmem (beq_self_eq_true host)

/-- What a host was recorded with is what it is put back with, in whole
seconds. -/
theorem restamp_of_stamp {old : CacheEntry} {host : String} {stamp : Nat} (now : Nat)
    (hstamp : old.hostTimestamps[host]? = some stamp) :
    elapsed now (backdated ((old.hostAgeSeconds host now).getD 0) now) =
      fromSecs (asSecs (elapsed now stamp)) := by
  have hage : (old.hostAgeSeconds host now).getD 0 = asSecs (elapsed now stamp) := by
    rw [hostAgeSeconds, hstamp, Option.map_some, Option.getD_some]
  have hle : fromSecs (asSecs (elapsed now stamp)) ≤ now :=
    (fromSecs_asSecs_le _).trans (Nat.sub_le now stamp)
  rw [hage, backdated_of_le hle, elapsed_sub hle]

section Kept
variable {old : CacheEntry} {output : ConnectorOutput} {host : String}
variable (ttl now : Nat) (hretained : Retained old output host)
include hretained

theorem replaceKeeping_retained :
    (replaceKeeping ttl output now (old.setTtl ttl) output.dataset).hostAt host =
      (old.dataset.hostvars[host]?,
        some (backdated ((old.hostAgeSeconds host now).getD 0) now)) :=
  (replaceKeeping_hostAt output now host ttl (old.setTtl ttl) output.dataset).trans
    (if_pos hretained)

/-- A host nothing ever stamped becomes fresh: it is put back with age zero. -/
theorem replaceKeeping_unstamped (hnever : host ∉ old.hostTimestamps) :
    old.isHostFresh host (some 1) now = false ∧
      (replaceKeeping ttl output now (old.setTtl ttl) output.dataset).isHostFresh host (some 1)
        now = true := by
  have hnone : old.hostTimestamps[host]? = none := by
    simpa using hnever
  have hstamp : (replaceKeeping ttl output now (old.setTtl ttl)
      output.dataset).hostTimestamps[host]? = some now := by
    have hback := congrArg Prod.snd (replaceKeeping_retained ttl now hretained)
    rwa [hostAgeSeconds, hnone, Option.map_none, Option.getD_none, backdated_zero] at hback
  constructor
  · simp [isHostFresh, hnone]
  · simp [isHostFresh, hstamp, fromSecs]

theorem replaceKeeping_stamped (howns : output.dataset.NamesOwnHosts)
    (hstamped : host ∈ old.hostTimestamps) :
    KeptHost old (replaceKeeping ttl output now (old.setTtl ttl) output.dataset) now host := by
  have hback := replaceKeeping_retained ttl now hretained
  obtain ⟨stamp, hstamp⟩ := (StrMap.mem_iff_exists _ _).mp hstamped
  have hage := restamp_of_stamp now hstamp
  constructor
  · exact congrArg Prod.fst hback
  · intro name
    have hlisted := replaceKeeping_listings ttl output now (old.setTtl ttl) name host hretained
    rw [listings_of_namesOwnHosts howns hretained.2.1] at hlisted
    exact hlisted
  · intro other hother
    obtain rfl : stamp = other := Option.some.inj (hstamp.symm.trans hother)
    refine ⟨_, congrArg Prod.snd hback, ?_⟩
    rw [hage]
    exact lt_fromSecs_asSecs _
  · intro secs hstale
    have hold := isHostFresh_eq_false_iff.mp hstale stamp hstamp
    refine isHostFresh_eq_false_iff.mpr fun kept hkept => ?_
    obtain rfl := Option.some.inj ((congrArg Prod.snd hback).symm.trans hkept)
    rw [hage]
    simp only [Option.map_some, Option.getD_some] at hold ⊢
    rwa [← Nat.not_lt, fromSecs_lt, ← lt_fromSecs_iff, Nat.not_lt]

end Kept

theorem replaceKeeping_hosts (ttl : Nat) (output : ConnectorOutput) (now : Nat) (old : CacheEntry)
    (host : String) :
    host ∈ (replaceKeeping ttl output now (old.setTtl ttl) output.dataset).dataset.hostvars ↔
      host ∈ output.dataset.hostvars ∨ Retained old output host := by
  rw [StrMap.mem_iff]
  by_cases hretained : Retained old output host
  · have hback := congrArg Prod.fst (replaceKeeping_retained ttl now hretained)
    refine iff_of_true ?_ (.inr hretained)
    exact hback.trans_ne ((StrMap.mem_iff _ _).mp hretained.2.2)
  · have hnew := congrArg Prod.fst ((replaceKeeping_hostAt output now host ttl (old.setTtl ttl)
      output.dataset).trans (if_neg hretained))
    rw [hostAt, hostAt, gatheredEntry_dataset] at hnew
    rw [or_iff_left hretained, StrMap.mem_iff]
    exact not_congr (Eq.congr_left hnew)

/-- A replace keeps what it could not reach exactly when every host it has to
keep was stamped: one that never was is put back as gathered now. -/
theorem applyToCache_keepsUnreachable_iff (cache : MemoryCache) (sourceId : String)
    (source : Source) (output : ConnectorOutput) (now : Nat) (old : CacheEntry)
    (hold : cache.get sourceId = some old) (hmode : source.syncMode = .replace)
    (howns : output.dataset.NamesOwnHosts) :
    (∃ entry, (applyToCache cache sourceId source .full output now).get sourceId = some entry ∧
        KeepsUnreachable old output now entry) ↔
      ∀ host, Retained old output host → host ∈ old.hostTimestamps := by
  rw [get_applyToCache, if_pos rfl, hold, syncedEntry_replace hmode]
  constructor
  · intro h host hretained
    obtain ⟨entry, hentry, hkeeps⟩ := h
    obtain rfl := Option.some.inj hentry
    by_contra hnever
    obtain ⟨hstale, hfresh⟩ := replaceKeeping_unstamped source.ttlSeconds now hretained hnever
    have hstill := (hkeeps.kept host hretained).notFresh 1 hstale
    rw [hfresh] at hstill
    cases hstill
  · intro hstamped
    refine ⟨_, rfl, ?_, ?_⟩
    · exact replaceKeeping_hosts source.ttlSeconds output now old
    · intro host hretained
      exact replaceKeeping_stamped source.ttlSeconds now hretained howns
        (hstamped host hretained)

/-- One host in one group, and a gather that reached nobody. -/
def webDataset : Dataset where
  hostvars := (∅ : StrMap HostVars).insert "a" ∅
  groups := (∅ : StrMap Group).insert "web" { hosts := ["a"] }

def keepingSource : Source := { connectorType := .ssh, syncMode := .replace, ttlSeconds := 60 }

def silentOutput : ConnectorOutput where
  dataset := {}
  unreachable := ["a", "a"]

theorem silentOutput_namesOwnHosts : silentOutput.dataset.NamesOwnHosts := by
  intro name host hlists
  simp [silentOutput, Dataset.groupLists] at hlists

theorem silent_keepsUnreachable_iff :
    let old := CacheEntry.new webDataset 60 (fromSecs 1)
    (∃ entry, (applyToCache (({} : MemoryCache).set "racks" old) "racks" keepingSource .full
        silentOutput (fromSecs 51)).get "racks" = some entry ∧
        KeepsUnreachable old silentOutput (fromSecs 51) entry) ↔
      ∀ host, Retained old silentOutput host → host ∈ old.hostTimestamps :=
  applyToCache_keepsUnreachable_iff _ "racks" keepingSource silentOutput (fromSecs 51) _ (by decide)
    rfl silentOutput_namesOwnHosts

/-- The entry was read back from disk, and the host's age there is more than
the clock can represent: the host has no timestamp and counts as stale. -/
def rebootedEntry : CacheEntry :=
  .restore webDataset 60 0 ((∅ : StrMap Nat).insert "a" 100) (fromSecs 50)

theorem rebootedEntry_unstamped : "a" ∉ rebootedEntry.hostTimestamps := by
  have hstamp := restore_timestamp "a" webDataset 60 0 ((∅ : StrMap Nat).insert "a" 100)
    (fromSecs 50)
  rw [StrMap.getElem?_insert, if_pos rfl, Option.bind_some, checkedSub_of_lt (by decide)] at hstamp
  exact StrMap.not_mem_of_none hstamp

theorem rebootedEntry_retained : Retained rebootedEntry silentOutput "a" := by
  unfold Retained
  decide

/-- It stays unreachable, and the replace makes it a host gathered now. -/
theorem unstamped_becomesFresh :
    (({} : MemoryCache).set "racks" rebootedEntry).get "racks" = some rebootedEntry ∧
    keepingSource.syncMode = .replace ∧ silentOutput.dataset.NamesOwnHosts ∧
    ¬ ∃ entry, (applyToCache (({} : MemoryCache).set "racks" rebootedEntry) "racks" keepingSource
        .full silentOutput (fromSecs 51)).get "racks" = some entry ∧
      KeepsUnreachable rebootedEntry silentOutput (fromSecs 51) entry := by
  have hold : (({} : MemoryCache).set "racks" rebootedEntry).get "racks" = some rebootedEntry := by
    simp [MemoryCache.get_set]
  refine ⟨hold, rfl, silentOutput_namesOwnHosts, ?_⟩
  intro h
  obtain ⟨entry, hentry, hkeeps⟩ := h
  rw [get_applyToCache, if_pos rfl, hold, syncedEntry_replace rfl] at hentry
  obtain rfl := Option.some.inj hentry
  obtain ⟨hstale, hfresh⟩ := replaceKeeping_unstamped keepingSource.ttlSeconds (fromSecs 51)
    rebootedEntry_retained rebootedEntry_unstamped
  have hstill := (hkeeps.kept "a" rebootedEntry_retained).notFresh 1 hstale
  rw [hfresh] at hstill
  cases hstill

end UnifiedApi
