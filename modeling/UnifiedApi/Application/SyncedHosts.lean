import UnifiedApi.Application.ApplyToCache

/-! # What a sync leaves in the entry

For every write path of a sync, the variables and the timestamp it leaves at
one host, and the clock of the dataset, as a function of the old entry and of
the connector's output. -/

namespace UnifiedApi
open Clock CacheEntry

/-! ## A host-scoped sync -/

section Scoped
variable (hosts : List String) (output : ConnectorOutput) (now : Nat) (entry : CacheEntry)

theorem updateHosts_hostvars (a : String) :
    (updateHosts (scopedUpdates hosts output) now entry).dataset.hostvars[a]? =
      if a ∈ hosts then output.dataset.hostvars[a]?.or entry.dataset.hostvars[a]?
      else entry.dataset.hostvars[a]? := by
  unfold updateHosts scopedUpdates
  rw [List.foldl_filterMap]
  refine StrMap.getElem?_foldl_keys_proj (fun entry : CacheEntry => entry.dataset.hostvars)
    (g := fun k old => output.dataset.hostvars[k]?.or old) ?_ ?_ hosts entry a
  · intro entry k a
    cases hv : output.dataset.hostvars[k]? with
    | none => simp
    | some vars => simp [updateHostAged_hostvars]
  · intro a x
    cases output.dataset.hostvars[a]? <;> rfl

theorem updateHosts_timestamp (a : String) :
    (updateHosts (scopedUpdates hosts output) now entry).hostTimestamps[a]? =
      if a ∈ hosts ∧ a ∈ output.dataset.hostvars then some (backdated (output.ageOf a) now)
      else entry.hostTimestamps[a]? := by
  have hkeys : (updateHosts (scopedUpdates hosts output) now entry).hostTimestamps[a]? =
      if a ∈ hosts then (output.dataset.hostvars[a]?.map fun _ =>
        backdated (output.ageOf a) now).or entry.hostTimestamps[a]?
      else entry.hostTimestamps[a]? := by
    unfold updateHosts scopedUpdates
    rw [List.foldl_filterMap]
    refine StrMap.getElem?_foldl_keys_proj (fun entry : CacheEntry => entry.hostTimestamps)
      (g := fun k old => (output.dataset.hostvars[k]?.map fun _ =>
        backdated (output.ageOf k) now).or old) ?_ ?_ hosts entry a
    · intro entry k a
      cases hv : output.dataset.hostvars[k]? with
      | none => simp
      | some vars =>
        rw [Option.map_some, updateHostAged_timestamp]
        rfl
    · intro a x
      cases output.dataset.hostvars[a]? <;> rfl
  rw [hkeys]
  by_cases hm : a ∈ hosts
  · cases hv : output.dataset.hostvars[a]? with
    | none => simp [StrMap.not_mem_of_none hv]
    | some vars => simp [hm, StrMap.mem_of_some hv]
  · simp [hm]

theorem patchHosts_sameHosts (source : Source) :
    SameHosts (updateHosts (scopedUpdates hosts output) now entry)
      (patchHosts source hosts output now entry) := by
  unfold patchHosts
  have hgroups := SameHosts.foldl (fun entry (membership : String × List String) =>
    (⟨rfl, rfl⟩ : SameHosts entry (entry.setHostGroups membership.1 membership.2)))
    (scopedMemberships (scopedUpdates hosts output) output.dataset)
    (updateHosts (scopedUpdates hosts output) now entry)
  dsimp only
  split
  · exact hgroups.trans ⟨rfl, rfl⟩
  · exact hgroups

theorem updateHosts_hostAt (a : String) :
    (updateHosts (scopedUpdates hosts output) now entry).hostAt a =
      if a ∈ hosts ∧ a ∈ output.dataset.hostvars then
        (output.dataset.hostvars[a]?, some (backdated (output.ageOf a) now))
      else entry.hostAt a := by
  unfold hostAt
  rw [updateHosts_hostvars, updateHosts_timestamp]
  by_cases hm : a ∈ hosts
  · cases hv : output.dataset.hostvars[a]? with
    | none => simp [StrMap.not_mem_of_none hv]
    | some vars => simp [hm, StrMap.mem_of_some hv]
  · simp [hm]

theorem patchHosts_hostAt (source : Source) (a : String) :
    (patchHosts source hosts output now entry).hostAt a =
      if a ∈ hosts ∧ a ∈ output.dataset.hostvars then
        (output.dataset.hostvars[a]?, some (backdated (output.ageOf a) now))
      else entry.hostAt a := by
  rw [(patchHosts_sameHosts hosts output now entry source).hostAt, updateHosts_hostAt]

theorem patchHosts_clock (source : Source) :
    SameClock entry (patchHosts source hosts output now entry) := by
  have hupdates : SameClock entry (updateHosts (scopedUpdates hosts output) now entry) :=
    SameClock.foldl (fun entry update => updateHostAged_clock entry _ _ _ _) _ entry
  have hgroups := SameClock.foldl (fun entry (membership : String × List String) =>
    setHostGroups_clock entry membership.1 membership.2)
    (scopedMemberships (scopedUpdates hosts output) output.dataset)
    (updateHosts (scopedUpdates hosts output) now entry)
  unfold patchHosts
  dsimp only
  split
  · exact (hupdates.trans hgroups).trans (mergeGroupVarFields_clock _ _)
  · exact hupdates.trans hgroups

/-- Writing back the variables that are already there only changes ages. -/
theorem correctAges_eq (updates : List (String × HostVars × Nat)) (entry : CacheEntry)
    (h : ∀ update ∈ updates, entry.dataset.hostvars[update.1]? = some update.2.1) :
    correctAges updates now entry = updateHosts updates now entry := by
  induction updates generalizing entry with
  | nil => rfl
  | cons update rest ih =>
    have hhead := h update List.mem_cons_self
    have hsame : (entry.updateHostAged update.1 update.2.1 update.2.2 now).dataset.hostvars =
        entry.dataset.hostvars := StrMap.insert_of_getElem? hhead
    have hrest : ∀ other ∈ rest, (entry.updateHostAged update.1 update.2.1 update.2.2
        now).dataset.hostvars[other.1]? = some other.2.1 := by
      intro other hother
      rw [hsame]
      exact h other (List.mem_cons_of_mem _ hother)
    have hih := ih _ hrest
    unfold correctAges updateHosts at hih ⊢
    rw [List.foldl_cons, List.foldl_cons, hhead]
    exact hih

/-- The entry a host-scoped sync creates holds the connector's whole dataset,
so correcting it is updating the requested hosts. -/
theorem correctCreated_eq (ttl : Nat) :
    correctCreated hosts output now (.new output.dataset ttl now) =
      (updateHosts (scopedUpdates hosts output) now (.new output.dataset ttl now)).markPartial := by
  unfold correctCreated
  rw [correctAges_eq]
  intro update hupdate
  obtain ⟨host, _, hhost⟩ := List.mem_filterMap.mp hupdate
  obtain ⟨vars, hvars, rfl⟩ := Option.map_eq_some_iff.mp hhost
  exact hvars

theorem correctCreated_hostAt (ttl : Nat) (a : String) :
    (correctCreated hosts output now (.new output.dataset ttl now)).hostAt a =
      if a ∈ hosts ∧ a ∈ output.dataset.hostvars then
        (output.dataset.hostvars[a]?, some (backdated (output.ageOf a) now))
      else (CacheEntry.new output.dataset ttl now).hostAt a := by
  rw [correctCreated_eq, ← updateHosts_hostAt]
  rfl

theorem scopedUpdates_isEmpty :
    (scopedUpdates hosts output).isEmpty = true ↔
      ∀ host ∈ hosts, host ∉ output.dataset.hostvars := by
  unfold scopedUpdates
  rw [List.isEmpty_iff, List.filterMap_eq_nil_iff]
  constructor
  · intro h host hhost hmem
    obtain ⟨vars, hvars⟩ := (StrMap.mem_iff_exists _ _).mp hmem
    have hnone := h host hhost
    rw [hvars] at hnone
    cases hnone
  · intro h host hhost
    cases hv : output.dataset.hostvars[host]? with
    | none => rfl
    | some vars => exact absurd (StrMap.mem_of_some hv) (h host hhost)

end Scoped

/-! ## A full sync -/

section Full
variable (output : ConnectorOutput) (now : Nat) (a : String)

theorem gatheredEntry_dataset (ttl : Nat) (dataset : Dataset) (ages : Option DatasetAges) :
    (gatheredEntry ttl dataset ages now).dataset = dataset := by
  cases ages <;> rfl

/-- What a replace retains is the old entry's, for the hosts it kept. -/
theorem restoreHosts_hostvars (old : CacheEntry) (hosts : List String) (entry : CacheEntry) :
    ((hosts.filterMap (old.captureHost · now)).foldl (fun entry host =>
      entry.restoreHost host now) entry).dataset.hostvars[a]? =
      if a ∈ hosts then old.dataset.hostvars[a]?.or entry.dataset.hostvars[a]?
      else entry.dataset.hostvars[a]? := by
  rw [List.foldl_filterMap]
  refine StrMap.getElem?_foldl_keys_proj (fun entry : CacheEntry => entry.dataset.hostvars)
    (g := fun k old' => old.dataset.hostvars[k]?.or old') ?_ ?_ hosts entry a
  · intro entry k a
    cases hv : old.dataset.hostvars[k]? with
    | none => simp [captureHost, hv]
    | some vars => simp [captureHost, hv, restoreHost, updateHostAged_hostvars]
  · intro a x
    cases old.dataset.hostvars[a]? <;> rfl

theorem restoreHosts_timestamp (old : CacheEntry) (hosts : List String) (entry : CacheEntry) :
    ((hosts.filterMap (old.captureHost · now)).foldl (fun entry host =>
      entry.restoreHost host now) entry).hostTimestamps[a]? =
      if a ∈ hosts ∧ a ∈ old.dataset.hostvars then
        some (backdated ((old.hostAgeSeconds a now).getD 0) now)
      else entry.hostTimestamps[a]? := by
  have hkeys : ((hosts.filterMap (old.captureHost · now)).foldl (fun entry host =>
      entry.restoreHost host now) entry).hostTimestamps[a]? =
      if a ∈ hosts then (old.dataset.hostvars[a]?.map fun _ =>
        backdated ((old.hostAgeSeconds a now).getD 0) now).or entry.hostTimestamps[a]?
      else entry.hostTimestamps[a]? := by
    rw [List.foldl_filterMap]
    refine StrMap.getElem?_foldl_keys_proj (fun entry : CacheEntry => entry.hostTimestamps)
      (g := fun k old' => (old.dataset.hostvars[k]?.map fun _ =>
        backdated ((old.hostAgeSeconds k now).getD 0) now).or old') ?_ ?_ hosts entry a
    · intro entry k a
      cases hv : old.dataset.hostvars[k]? with
      | none => simp [captureHost, hv]
      | some vars =>
        simp only [captureHost, hv, Option.map_some, restoreHost, updateHostAged_timestamp]
        rfl
    · intro a x
      cases old.dataset.hostvars[a]? <;> rfl
  rw [hkeys]
  by_cases hm : a ∈ hosts
  · cases hv : old.dataset.hostvars[a]? with
    | none => simp [StrMap.not_mem_of_none hv]
    | some vars => simp [hm, StrMap.mem_of_some hv]
  · simp [hm]

variable (ttl : Nat) (entry : CacheEntry) (dataset : Dataset)

theorem mem_unreachable_lacking {unreachable : List String} {dataset : Dataset} {a : String} :
    a ∈ (unreachable.filter fun host => !dataset.hostvars.contains host) ↔
      a ∈ unreachable ∧ a ∉ dataset.hostvars := by
  rw [List.mem_filter, Bool.not_eq_true', Bool.eq_false_iff, ne_eq,
    Std.ExtTreeMap.contains_iff_mem]

theorem replaceKeeping_hostAt :
    (replaceKeeping ttl output now entry dataset).hostAt a =
      if a ∈ output.unreachable ∧ a ∉ dataset.hostvars ∧ a ∈ entry.dataset.hostvars then
        (entry.dataset.hostvars[a]?, some (backdated ((entry.hostAgeSeconds a now).getD 0) now))
      else (gatheredEntry ttl dataset output.ages now).hostAt a := by
  unfold hostAt replaceKeeping retainedHosts
  rw [restoreHosts_hostvars, restoreHosts_timestamp]
  simp only [mem_unreachable_lacking, and_assoc]
  by_cases hk : a ∈ output.unreachable ∧ a ∉ dataset.hostvars
  · cases hv : entry.dataset.hostvars[a]? with
    | none => simp [StrMap.not_mem_of_none hv]
    | some vars => simp [hk.1, hk.2, StrMap.mem_of_some hv]
  · have hfree : ¬ (a ∈ output.unreachable ∧ a ∉ dataset.hostvars ∧
        a ∈ entry.dataset.hostvars) := fun h => hk ⟨h.1, h.2.1⟩
    rw [if_neg hk, if_neg hfree, if_neg hfree]

theorem replaceKeeping_clock :
    SameClock (gatheredEntry ttl dataset output.ages now)
      (replaceKeeping ttl output now entry dataset) :=
  SameClock.foldl (fun entry host => restoreHost_clock entry host now) _ _

end Full

/-! ## The dataset's clock -/

/-- A scope that covers a slice writes something: a group sync always does, a
host sync when the connector returned a requested host. -/
def SyncScope.Writes (scope : SyncScope) (output : ConnectorOutput) : Prop :=
  match scope with
  | .hosts requested => (scopedUpdates requested output).isEmpty = false
  | .group _ | .full => True

/-- A scoped sync of an entry that is there only brings its TTL up to date. -/
theorem syncedEntry_scoped_some (source : Source) {scope : SyncScope} (output : ConnectorOutput)
    (now : Nat) (previous : CacheEntry) (hscope : scope ≠ .full) :
    ∃ entry, syncedEntry source scope output now (some previous) = some entry ∧
      (scope.Writes output → SameClock (previous.setTtl source.ttlSeconds) entry) ∧
      (¬ scope.Writes output → entry = previous) := by
  cases scope with
  | full => exact absurd rfl hscope
  | group group =>
    refine ⟨_, rfl, fun _ => ?_, fun hno => absurd trivial hno⟩
    exact updateGroup_clock (previous.setTtl source.ttlSeconds) group output.dataset now
  | hosts hosts =>
    cases hu : (scopedUpdates hosts output).isEmpty with
    | true =>
      refine ⟨previous, by simp [syncedEntry, hu], fun hw => ?_, fun _ => rfl⟩
      rw [SyncScope.Writes, hu] at hw
      cases hw
    | false =>
      refine ⟨_, by simp only [syncedEntry, hu]; rfl, fun _ => ?_, fun hno => absurd hu hno⟩
      exact patchHosts_clock hosts output now (previous.setTtl source.ttlSeconds) source

/-- An entry that a scoped sync had to create is not complete. -/
theorem syncedEntry_scoped_none {source : Source} {scope : SyncScope} {output : ConnectorOutput}
    {now : Nat} {entry : CacheEntry} (hscope : scope ≠ .full)
    (h : syncedEntry source scope output now none = some entry) : entry.complete = false := by
  cases syncedEntry_ways h with
  | created _ => rfl
  | groupCreated => rfl
  | replaced _ _ => exact absurd rfl hscope
  | inserted => exact absurd rfl hscope

theorem gatheredEntry_ttl (ttlSeconds : Nat) (dataset : Dataset) (ages : Option DatasetAges)
    (now : Nat) : (gatheredEntry ttlSeconds dataset ages now).ttl = fromSecs ttlSeconds ∨
      (gatheredEntry ttlSeconds dataset ages now).ttl = 0 := by
  unfold gatheredEntry
  cases ages with
  | none => exact .inl rfl
  | some ages =>
    dsimp only
    rw [restore_ttl]
    split
    · exact .inl rfl
    · exact .inr rfl

/-- Every entry a sync writes has the source's TTL, or none at all when it was
restored from an age the clock cannot represent. -/
theorem syncedEntry_ttl {source : Source} {scope : SyncScope} {output : ConnectorOutput}
    {now : Nat} {old : Option CacheEntry} {entry : CacheEntry}
    (h : syncedEntry source scope output now old = some entry) :
    old = some entry ∨ entry.ttl = fromSecs source.ttlSeconds ∨ entry.ttl = 0 := by
  cases syncedEntry_ways h with
  | kept _ => exact .inl rfl
  | patched _ => exact .inr (.inl (patchHosts_clock _ output now _ source).2.1)
  | created _ =>
    rw [correctCreated_eq]
    exact .inr (.inl (SameClock.foldl (fun entry update => updateHostAged_clock entry _ _ _ _)
      (scopedUpdates _ output) (.new output.dataset source.ttlSeconds now)).2.1)
  | groupUpdated => exact .inr (.inl (updateGroup_clock _ _ output.dataset now).2.1)
  | groupCreated => exact .inr (.inl rfl)
  | replaced _ _ => exact .inr (gatheredEntry_ttl _ _ _ _)
  | keeping _ =>
    rw [(replaceKeeping_clock output now source.ttlSeconds _ output.dataset).2.1]
    exact .inr (gatheredEntry_ttl _ _ _ _)
  | merged _ => exact .inr (.inl rfl)
  | inserted => exact .inr (.inl rfl)

end UnifiedApi
