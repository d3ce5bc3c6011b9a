import UnifiedApi.Application.SyncedHosts

/-! # The ages a sync records

A connector that federates another instance's cache reports how old its data
already was. Each write path of a sync stamps hosts its own way: some carry
the reported ages into the entry, the others stamp the moment of the write. -/

namespace UnifiedApi
open Clock CacheEntry

/-- The host's variables in the entry are those of the connector's output. -/
def WritesHost (source : Source) (scope : SyncScope) (output : ConnectorOutput)
    (old : Option CacheEntry) (host : String) : Prop :=
  host ∈ output.dataset.hostvars ∧ match scope, old with
    | .hosts hosts, some _ => host ∈ hosts
    | .hosts hosts, none => (scopedUpdates hosts output).isEmpty = false
    | .group group, some entry => host ∈ entry.membersOf group
    | .group _, none => True
    | .full, some _ => source.syncMode = .merge → host ∉ output.dataset.removeHosts
    | .full, none => True

instance (source : Source) (scope : SyncScope) (output : ConnectorOutput)
    (old : Option CacheEntry) (host : String) :
    Decidable (WritesHost source scope output old host) :=
  match scope, old with
  | .hosts hosts, some _ => inferInstanceAs (Decidable (_ ∧ host ∈ hosts))
  | .hosts hosts, none =>
    inferInstanceAs (Decidable (_ ∧ (scopedUpdates hosts output).isEmpty = false))
  | .group group, some entry => inferInstanceAs (Decidable (_ ∧ host ∈ entry.membersOf group))
  | .full, some _ => inferInstanceAs
    (Decidable (_ ∧ (source.syncMode = .merge → host ∉ output.dataset.removeHosts)))
  | .group _, none | .full, none => inferInstanceAs (Decidable (_ ∧ True))

/-- The write path stamps the host with the age the connector reports. -/
def KeepsHostAge (source : Source) (scope : SyncScope) (output : ConnectorOutput)
    (old : Option CacheEntry) (host : String) : Prop :=
  match scope, old with
  | .hosts _, some _ => True
  | .hosts hosts, none => host ∈ hosts
  | .group _, _ => False
  | .full, some _ => source.syncMode = .replace
  | .full, none => source.syncMode = .replace ∧ output.unreachable.isEmpty = true

/-- The full sync starts the dataset's clock at the age the connector reports. -/
def KeepsDatasetAge (source : Source) (output : ConnectorOutput) (old : Option CacheEntry) :
    Prop :=
  source.syncMode = .replace ∧ (output.unreachable.isEmpty = true ∨ old.isSome = true)

/-- The clock reaches back as far as every reported age. -/
def DatasetAges.Representable (ages : DatasetAges) (now : Nat) : Prop :=
  fromSecs ages.datasetAgeSeconds ≤ now ∧
    ∀ host age, ages.hostAges[(host : String)]? = some age → fromSecs age ≤ now

/-! ## What was written -/

/-- The host is gone, or as it was before, with its stamp moved when a replace
kept it. -/
def Framed (output : ConnectorOutput) (now : Nat) (old : Option CacheEntry) (host : String)
    (entry : CacheEntry) : Prop :=
  (entry.dataset.hostvars[host]? = none ∧
    (output.ages = none → entry.hostTimestamps[host]? = none)) ∨
  ∃ previous, old = some previous ∧
    (entry.hostAt host = previous.hostAt host ∨ entry.hostAt host =
      (previous.dataset.hostvars[host]?,
        some (backdated ((previous.hostAgeSeconds host now).getD 0) now)))

section Frame
variable {source : Source} {output : ConnectorOutput} {now : Nat} {old : Option CacheEntry}
  {entry : CacheEntry} {host : String}

theorem Framed.gone (h : entry.hostAt host = (none, none)) : Framed output now old host entry :=
  .inl ⟨congrArg Prod.fst h, fun _ => congrArg Prod.snd h⟩

theorem Framed.kept {previous : CacheEntry} (h : entry.hostAt host = previous.hostAt host) :
    Framed output now (some previous) host entry :=
  .inr ⟨previous, rfl, .inl h⟩

/-- A replace writes every host there is in the dataset. -/
theorem writesHost_replace (hmode : source.syncMode = .replace)
    (hmem : host ∈ output.dataset.hostvars) : WritesHost source .full output old host := by
  refine ⟨hmem, ?_⟩
  cases old with
  | none => trivial
  | some previous => exact fun hmerge => by rw [hmode] at hmerge; cases hmerge

theorem gatheredEntry_unlisted (ttl : Nat) (hfree : host ∉ output.dataset.hostvars) :
    (gatheredEntry ttl output.dataset output.ages now).dataset.hostvars[host]? = none ∧
      (output.ages = none → (gatheredEntry ttl output.dataset output.ages
        now).hostTimestamps[host]? = none) := by
  refine ⟨?_, fun hages => ?_⟩
  · rw [gatheredEntry_dataset]
    by_contra hv
    exact hfree ((StrMap.mem_iff _ _).mpr hv)
  · have hat := new_hostAt host output.dataset ttl now
    rw [if_neg hfree] at hat
    rw [hages]
    exact congrArg Prod.snd hat

/-- Where a sync does not write, the host is framed. -/
theorem syncedEntry_frame {scope : SyncScope}
    (h : syncedEntry source scope output now old = some entry)
    (hw : ¬ WritesHost source scope output old host) : Framed output now old host entry := by
  have hnew := new_hostAt host output.dataset source.ttlSeconds now
  cases syncedEntry_ways h with
  | kept _ => exact .kept rfl
  | @patched hosts previous hempty =>
    have hat := patchHosts_hostAt hosts output now (previous.setTtl source.ttlSeconds) source host
    rw [if_neg fun hm => hw ⟨hm.2, hm.1⟩] at hat
    exact .kept hat
  | @created hosts hempty =>
    have hfree : host ∉ output.dataset.hostvars := fun hm => hw ⟨hm, hempty⟩
    have hat := correctCreated_hostAt hosts output now source.ttlSeconds host
    rw [if_neg fun hm => hfree hm.2, new_hostAt, if_neg hfree] at hat
    exact .gone hat
  | @groupUpdated group previous =>
    have hat := updateGroup_hostAt (previous.setTtl source.ttlSeconds) host group output.dataset now
    rw [if_neg fun hm => hw ⟨hm.2, hm.1⟩] at hat
    exact .kept hat
  | groupCreated =>
    rw [if_neg fun hm => hw ⟨hm, trivial⟩] at hnew
    exact .gone hnew
  | replaced hmode _ =>
    have hfree : host ∉ output.dataset.hostvars := fun hm => hw (writesHost_replace hmode hm)
    exact .inl (gatheredEntry_unlisted _ hfree)
  | @keeping previous hmode =>
    have hfree : host ∉ output.dataset.hostvars := fun hm => hw (writesHost_replace hmode hm)
    have hat := replaceKeeping_hostAt output now host source.ttlSeconds
      (previous.setTtl source.ttlSeconds) output.dataset
    split at hat
    · exact .inr ⟨_, rfl, .inr hat⟩
    · obtain ⟨hvars, hstamp⟩ := gatheredEntry_unlisted source.ttlSeconds hfree
      exact .inl ⟨(congrArg Prod.fst hat).trans hvars,
        fun hages => (congrArg Prod.snd hat).trans (hstamp hages)⟩
  | @merged previous hmode =>
    have hat := mergeDataset_hostAt (previous.setTtl source.ttlSeconds) host output.dataset now
    by_cases hr : host ∈ output.dataset.removeHosts
    · rw [if_pos hr] at hat
      exact .gone hat
    · rw [if_neg hr, if_neg fun hm => hw ⟨hm, fun _ => hr⟩] at hat
      exact .kept hat
  | inserted =>
    rw [if_neg fun hm => hw ⟨hm, trivial⟩] at hnew
    exact .gone hnew

end Frame

/-- The stamp of a host whose reported age the write path carries: a full
replace gives none to a host without a representable age, the others stamp it
now. -/
def carriedStamp (scope : SyncScope) (output : ConnectorOutput) (host : String) (now : Nat) :
    Option Nat :=
  match scope, output.ages with
  | .full, some ages => ages.hostAges[host]?.bind fun age => checkedSub now (fromSecs age)
  | _, _ => some (backdated (output.ageOf host) now)

theorem carriedStamp_listed {scope : SyncScope} {output : ConnectorOutput} {ages : DatasetAges}
    {host : String} {age now : Nat} (hages : output.ages = some ages)
    (hlisted : ages.hostAges[host]? = some age) (hrep : fromSecs age ≤ now) :
    carriedStamp scope output host now = some (backdated age now) := by
  have hage : output.ageOf host = age := by simp [ConnectorOutput.ageOf, hages, hlisted]
  cases scope with
  | full =>
    simp only [carriedStamp, hages, hlisted, Option.bind_some]
    rw [checkedSub_of_le hrep, backdated_of_le hrep]
  | hosts hosts => simp only [carriedStamp, hage]
  | group group => simp only [carriedStamp, hage]

/-- A gather that reports no ages happened now. -/
theorem carriedStamp_ageless {scope : SyncScope} {output : ConnectorOutput} {host : String}
    {now : Nat} (hages : output.ages = none) : carriedStamp scope output host now = some now := by
  have hage : output.ageOf host = 0 := by simp [ConnectorOutput.ageOf, hages]
  cases scope <;> simp only [carriedStamp, hages, hage, backdated_zero]

theorem gatheredEntry_stamp {output : ConnectorOutput} {host : String} {now : Nat} (ttl : Nat)
    (hmem : host ∈ output.dataset.hostvars) :
    (gatheredEntry ttl output.dataset output.ages now).hostTimestamps[host]? =
      carriedStamp .full output host now := by
  cases hages : output.ages with
  | none =>
    have hat := new_hostAt host output.dataset ttl now
    rw [if_pos hmem] at hat
    rw [carriedStamp_ageless hages]
    exact congrArg Prod.snd hat
  | some ages =>
    simp only [carriedStamp, hages]
    exact restore_timestamp host output.dataset ttl _ ages.hostAges now

/-- The entry has the host's variables from the output, and a stamp that says
whether its write path carries the reported age. -/
def WrittenIn (entry : CacheEntry) (source : Source) (scope : SyncScope) (output : ConnectorOutput)
    (old : Option CacheEntry) (now : Nat) (host : String) : Prop :=
  entry.dataset.hostvars[host]? = output.dataset.hostvars[host]? ∧
    (KeepsHostAge source scope output old host →
      entry.hostTimestamps[host]? = carriedStamp scope output host now) ∧
    (¬ KeepsHostAge source scope output old host → entry.hostTimestamps[host]? = some now)

section Written
variable {source : Source} {output : ConnectorOutput} {old : Option CacheEntry} {host : String}

theorem syncedEntry_hosts_written {hosts : List String} (now : Nat)
    (hw : WritesHost source (.hosts hosts) output old host) :
    ∃ entry, syncedEntry source (.hosts hosts) output now old = some entry ∧
      WrittenIn entry source (.hosts hosts) output old now host := by
  obtain ⟨hmem, hpath⟩ := hw
  cases old with
  | some previous =>
    have hhost : host ∈ hosts := hpath
    have hne : ¬ (scopedUpdates hosts output).isEmpty = true := fun he =>
      (scopedUpdates_isEmpty hosts output).mp he host hhost hmem
    have hat := patchHosts_hostAt hosts output now (previous.setTtl source.ttlSeconds) source host
    rw [if_pos ⟨hhost, hmem⟩] at hat
    exact ⟨_, if_neg hne, congrArg Prod.fst hat, fun _ => congrArg Prod.snd hat,
      fun hk => absurd trivial hk⟩
  | none =>
    have hne : ¬ (scopedUpdates hosts output).isEmpty = true := by simpa using hpath
    have hat := correctCreated_hostAt hosts output now source.ttlSeconds host
    by_cases hhost : host ∈ hosts
    · rw [if_pos ⟨hhost, hmem⟩] at hat
      exact ⟨_, if_neg hne, congrArg Prod.fst hat, fun _ => congrArg Prod.snd hat,
        fun hk => absurd hhost hk⟩
    · rw [if_neg fun h => hhost h.1, new_hostAt, if_pos hmem] at hat
      exact ⟨_, if_neg hne, congrArg Prod.fst hat, fun hk => absurd hk hhost,
        fun _ => congrArg Prod.snd hat⟩

theorem syncedEntry_group_written {group : String} (now : Nat)
    (hw : WritesHost source (.group group) output old host) :
    ∃ entry, syncedEntry source (.group group) output now old = some entry ∧
      WrittenIn entry source (.group group) output old now host := by
  obtain ⟨hmem, hpath⟩ := hw
  cases old with
  | some previous =>
    have hat := updateGroup_hostAt (previous.setTtl source.ttlSeconds) host group output.dataset now
    rw [if_pos ⟨hpath, hmem⟩] at hat
    exact ⟨_, rfl, congrArg Prod.fst hat, False.elim, fun _ => congrArg Prod.snd hat⟩
  | none =>
    have hat := new_hostAt host output.dataset source.ttlSeconds now
    rw [if_pos hmem] at hat
    exact ⟨_, rfl, congrArg Prod.fst hat, False.elim, fun _ => congrArg Prod.snd hat⟩

theorem syncedEntry_replace_written (now : Nat) (hm : source.syncMode = .replace)
    (hw : WritesHost source .full output old host) :
    ∃ entry, syncedEntry source .full output now old = some entry ∧
      WrittenIn entry source .full output old now host := by
  obtain ⟨hmem, -⟩ := hw
  cases old with
  | some previous =>
    have hkeeps : KeepsHostAge source .full output (some previous) host := hm
    simp only [syncedEntry, hm]
    split
    · exact ⟨_, rfl, by rw [gatheredEntry_dataset], fun _ => gatheredEntry_stamp _ hmem,
        fun hk => absurd hkeeps hk⟩
    · have hat := replaceKeeping_hostAt output now host source.ttlSeconds
        (previous.setTtl source.ttlSeconds) output.dataset
      rw [if_neg fun h => h.2.1 hmem] at hat
      refine ⟨_, rfl, ?_, fun _ => ?_, fun hk => absurd hkeeps hk⟩
      · refine (congrArg Prod.fst hat).trans ?_
        unfold hostAt
        rw [gatheredEntry_dataset]
      · exact (congrArg Prod.snd hat).trans (gatheredEntry_stamp _ hmem)
  | none =>
    have hnew := new_hostAt host output.dataset source.ttlSeconds now
    rw [if_pos hmem] at hnew
    simp only [syncedEntry, hm]
    split
    · rename_i hu
      exact ⟨_, rfl, by rw [gatheredEntry_dataset], fun _ => gatheredEntry_stamp _ hmem,
        fun hk => absurd ⟨hm, hu⟩ hk⟩
    · rename_i hu
      exact ⟨_, rfl, rfl, fun hk => absurd hk.2 hu, fun _ => congrArg Prod.snd hnew⟩

theorem syncedEntry_merge_written (now : Nat) (hm : source.syncMode = .merge)
    (hw : WritesHost source .full output old host) :
    ∃ entry, syncedEntry source .full output now old = some entry ∧
      WrittenIn entry source .full output old now host := by
  obtain ⟨hmem, hpath⟩ := hw
  cases old with
  | some previous =>
    have hat := mergeDataset_hostAt (previous.setTtl source.ttlSeconds) host output.dataset now
    rw [if_neg (hpath hm), if_pos hmem] at hat
    simp only [syncedEntry, hm]
    refine ⟨_, rfl, congrArg Prod.fst hat, fun hk => ?_, fun _ => congrArg Prod.snd hat⟩
    rw [KeepsHostAge, hm] at hk
    cases hk
  | none =>
    have hnew := new_hostAt host output.dataset source.ttlSeconds now
    rw [if_pos hmem] at hnew
    simp only [syncedEntry, hm]
    refine ⟨_, rfl, rfl, fun hk => ?_, fun _ => congrArg Prod.snd hnew⟩
    rw [KeepsHostAge, hm] at hk
    cases hk.1

end Written

/-- Every write path writes the host, and stamps it one way or the other. -/
theorem syncedEntry_written {source : Source} {scope : SyncScope} {output : ConnectorOutput}
    {old : Option CacheEntry} {host : String} (now : Nat)
    (hw : WritesHost source scope output old host) :
    ∃ entry, syncedEntry source scope output now old = some entry ∧
      WrittenIn entry source scope output old now host := by
  cases scope with
  | hosts hosts => exact syncedEntry_hosts_written now hw
  | group group => exact syncedEntry_group_written now hw
  | full =>
    cases hm : source.syncMode with
    | replace => exact syncedEntry_replace_written now hm hw
    | merge => exact syncedEntry_merge_written now hm hw

/-- The dataset's clock after a full sync: the reported age or the instant of
the write. -/
theorem syncedEntry_full_fetchedAt {source : Source} {output : ConnectorOutput}
    {ages : DatasetAges} (old : Option CacheEntry) (now : Nat) (hages : output.ages = some ages) :
    ∃ entry, syncedEntry source .full output now old = some entry ∧
      (KeepsDatasetAge source output old →
        entry.fetchedAt = backdated ages.datasetAgeSeconds now) ∧
      (¬ KeepsDatasetAge source output old → entry.fetchedAt = now) := by
  have hgathered : (gatheredEntry source.ttlSeconds output.dataset output.ages now).fetchedAt =
      backdated ages.datasetAgeSeconds now := by
    rw [hages]
    rfl
  cases hm : source.syncMode with
  | merge =>
    have hno : ¬ KeepsDatasetAge source output old := fun hk => by
      rw [KeepsDatasetAge, hm] at hk
      cases hk.1
    cases old <;> simp only [syncedEntry, hm] <;>
      exact ⟨_, rfl, fun hk => absurd hk hno, fun _ => rfl⟩
  | replace =>
    by_cases hu : output.unreachable.isEmpty = true
    · have hkeeps : KeepsDatasetAge source output old := ⟨hm, .inl hu⟩
      cases old <;> simp only [syncedEntry, hm, hu, if_true] <;>
        exact ⟨_, rfl, fun _ => hgathered, fun hk => absurd hkeeps hk⟩
    · cases old with
      | none =>
        have hno : ¬ KeepsDatasetAge source output none := by
          rintro ⟨_, hempty | hsome⟩
          · exact hu hempty
          · cases hsome
        simp only [syncedEntry, hm, hu]
        exact ⟨_, rfl, fun hk => absurd hk hno, fun _ => rfl⟩
      | some previous =>
        have hkeeps : KeepsDatasetAge source output (some previous) := ⟨hm, .inr rfl⟩
        simp only [syncedEntry, hm, hu]
        refine ⟨_, rfl, fun _ => ?_, fun hk => absurd hkeeps hk⟩
        exact (replaceKeeping_clock output now _ _ _).1.trans hgathered

/-! ## Truthful ages -/

/-- Right after the write, no written host and no fully gathered dataset is
recorded younger than the connector reported. -/
def TruthfulAges (source : Source) (scope : SyncScope) (output : ConnectorOutput)
    (ages : DatasetAges) (now : Nat) (old new : Option CacheEntry) : Prop :=
  (∀ host age,
    ages.hostAges[(host : String)]? = some age → WritesHost source scope output old host →
    ∃ entry recorded, new = some entry ∧ entry.hostAgeSeconds host now = some recorded ∧
      age ≤ recorded) ∧
  (scope = .full → ∃ entry, new = some entry ∧ ages.datasetAgeSeconds ≤ entry.ageSeconds now)

section Truthful
variable {source : Source} {output : ConnectorOutput} {ages : DatasetAges} {now : Nat}

theorem hostAgeSeconds_of_stamped_now {entry : CacheEntry} {host : String}
    (h : entry.hostTimestamps[host]? = some now) : entry.hostAgeSeconds host now = some 0 := by
  rw [hostAgeSeconds, h, Option.map_some, elapsed_self]
  rfl

/-- A written host's reported age survives where the path carries it, and where
it is none. -/
theorem truthful_host_iff {scope : SyncScope} (old : Option CacheEntry) {host : String} {age : Nat}
    (hages : output.ages = some ages) (hlisted : ages.hostAges[host]? = some age)
    (hrep : fromSecs age ≤ now) (hw : WritesHost source scope output old host) :
    (∃ entry recorded, syncedEntry source scope output now old = some entry ∧
        entry.hostAgeSeconds host now = some recorded ∧ age ≤ recorded) ↔
      KeepsHostAge source scope output old host ∨ age = 0 := by
  obtain ⟨entry, hentry, _, hkept, hlost⟩ := syncedEntry_written now hw
  constructor
  · rintro ⟨entry', recorded, hentry', hrecorded, hle⟩
    obtain rfl : entry' = entry := Option.some.inj (hentry'.symm.trans hentry)
    by_cases hk : KeepsHostAge source scope output old host
    · exact .inl hk
    · rw [hostAgeSeconds_of_stamped_now (hlost hk)] at hrecorded
      obtain rfl := Option.some.inj hrecorded
      exact .inr (Nat.le_zero.mp hle)
  · intro h
    by_cases hk : KeepsHostAge source scope output old host
    · have hstamp := (hkept hk).trans (carriedStamp_listed hages hlisted hrep)
      refine ⟨entry, age, hentry, ?_, le_refl age⟩
      rw [hostAgeSeconds, hstamp, Option.map_some, asSecs_elapsed_backdated hrep]
    · have hzero := h.resolve_left hk
      exact ⟨entry, 0, hentry, hostAgeSeconds_of_stamped_now (hlost hk), Nat.le_zero.mpr hzero⟩

theorem truthful_dataset_iff (old : Option CacheEntry) (hages : output.ages = some ages)
    (hrep : fromSecs ages.datasetAgeSeconds ≤ now) :
    (∃ entry, syncedEntry source .full output now old = some entry ∧
        ages.datasetAgeSeconds ≤ entry.ageSeconds now) ↔
      KeepsDatasetAge source output old ∨ ages.datasetAgeSeconds = 0 := by
  obtain ⟨entry, hentry, hkept, hlost⟩ := syncedEntry_full_fetchedAt old now hages
  constructor
  · rintro ⟨entry', hentry', hle⟩
    obtain rfl : entry' = entry := Option.some.inj (hentry'.symm.trans hentry)
    by_cases hk : KeepsDatasetAge source output old
    · exact .inl hk
    · rw [ageSeconds, hlost hk, elapsed_self] at hle
      exact .inr (Nat.le_zero.mp hle)
  · intro h
    refine ⟨entry, hentry, ?_⟩
    by_cases hk : KeepsDatasetAge source output old
    · rw [ageSeconds, hkept hk, asSecs_elapsed_backdated hrep]
    · rw [h.resolve_left hk]
      exact Nat.zero_le _

end Truthful

/-- Ages survive a sync exactly on the paths that carry them, and elsewhere
when there is no age to lose. -/
theorem applyToCache_truthfulAges_iff (cache : MemoryCache) (sourceId : String) (source : Source)
    (scope : SyncScope) (output : ConnectorOutput) (ages : DatasetAges) (now : Nat)
    (hages : output.ages = some ages) (hrep : ages.Representable now) :
    TruthfulAges source scope output ages now (cache.get sourceId)
        ((applyToCache cache sourceId source scope output now).get sourceId) ↔
      (∀ host age, ages.hostAges[host]? = some age →
        WritesHost source scope output (cache.get sourceId) host →
        KeepsHostAge source scope output (cache.get sourceId) host ∨ age = 0) ∧
      (scope = .full →
        KeepsDatasetAge source output (cache.get sourceId) ∨ ages.datasetAgeSeconds = 0) := by
  rw [get_applyToCache, if_pos rfl]
  generalize cache.get sourceId = old
  refine and_congr (forall_congr' fun host => forall_congr' fun age => ?_) ⟨?_, ?_⟩
  · exact forall_congr' fun hlisted => forall_congr' fun hw =>
      truthful_host_iff old hages hlisted (hrep.2 host age hlisted) hw
  · intro h hfull
    subst hfull
    exact (truthful_dataset_iff old hages hrep.1).mp (h rfl)
  · intro h hfull
    subst hfull
    exact (truthful_dataset_iff old hages hrep.1).mpr (h rfl)

/-- A remote source in merge mode, and what it fetched: one host, a hundred
seconds old. -/
def federatedSource : Source := { connectorType := .remote, syncMode := .merge, ttlSeconds := 60 }

def federatedAges : DatasetAges where
  datasetAgeSeconds := 100
  hostAges := (∅ : StrMap Nat).insert "a" 100

def federatedOutput : ConnectorOutput where
  dataset := { hostvars := (∅ : StrMap HostVars).insert "a" ∅ }
  ages := some federatedAges

theorem federatedAges_representable : federatedAges.Representable (fromSecs 1000) := by
  refine ⟨by decide, fun host age h => ?_⟩
  rw [federatedAges, StrMap.getElem?_insert] at h
  split at h
  · obtain rfl := Option.some.inj h
    decide
  · simp at h

theorem federated_truthfulAges_iff :
    TruthfulAges federatedSource .full federatedOutput federatedAges (fromSecs 1000)
        (({} : MemoryCache).get "edge")
        ((applyToCache {} "edge" federatedSource .full federatedOutput
          (fromSecs 1000)).get "edge") ↔
      (∀ host age, federatedAges.hostAges[host]? = some age →
        WritesHost federatedSource .full federatedOutput (({} : MemoryCache).get "edge") host →
        KeepsHostAge federatedSource .full federatedOutput (({} : MemoryCache).get "edge") host ∨
          age = 0) ∧
      (SyncScope.full = .full →
        KeepsDatasetAge federatedSource federatedOutput (({} : MemoryCache).get "edge") ∨
          federatedAges.datasetAgeSeconds = 0) :=
  applyToCache_truthfulAges_iff {} "edge" federatedSource .full federatedOutput federatedAges
    (fromSecs 1000) rfl federatedAges_representable

/-- Merge mode forgets the ages: data a hundred seconds old is recorded as
gathered now, and its sixty-second TTL starts over. -/
theorem merge_forgets_ages :
    federatedOutput.ages = some federatedAges ∧ federatedAges.Representable (fromSecs 1000) ∧
    ¬ TruthfulAges federatedSource .full federatedOutput federatedAges (fromSecs 1000)
      (({} : MemoryCache).get "edge")
      ((applyToCache {} "edge" federatedSource .full federatedOutput
        (fromSecs 1000)).get "edge") := by
  refine ⟨rfl, federatedAges_representable, fun h => ?_⟩
  obtain ⟨entry, hentry, hage⟩ := h.2 rfl
  have hnow : ((applyToCache {} "edge" federatedSource .full federatedOutput
      (fromSecs 1000)).get "edge").map (·.ageSeconds (fromSecs 1000)) = some 0 := by decide
  rw [hentry, Option.map_some, Option.some.injEq] at hnow
  rw [hnow] at hage
  exact absurd hage (by decide)

end UnifiedApi
