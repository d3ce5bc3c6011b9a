import UnifiedApi.Lib.Runs
import UnifiedApi.Domain.EntryOps
import UnifiedApi.Cache.Persistence
import UnifiedApi.Application.SyncedHosts
import UnifiedApi.Application.Enrich
import UnifiedApi.Adapters.Http.Hosts

/-! # An instance and everything that writes its cache

The cache, the snapshot on disk, and the operations that change them: syncs,
host writes, enricher merges, removals, snapshots and restarts. What holds of
every entry is proved over whole runs of them. -/

namespace UnifiedApi
open Clock CacheEntry

structure Instance where
  cache : MemoryCache := {}
  disk : SnapshotFile := ⟨snapshotVersion, ∅⟩
  deriving DecidableEq

/-- One write, as the cache sees it. -/
inductive CacheOp where
  | sync (sourceId : String) (source : Source) (scope : SyncScope) (output : ConnectorOutput)
  | putHost (sourceId hostname : String) (vars : HostVars)
  | deleteHost (sourceId hostname : String)
  | mergeDeclared (targetId : String) (part : Dataset)
  | mergeAnswer (targetId : String) (answer : Dataset)
  | remove (sourceId : String)
  | snapshot
  | restart (path : String)

namespace CacheOp

/-- The operation at the instant it reads the clock. A restart reads the new
process's. -/
def apply (now : Nat) (inst : Instance) : CacheOp → Instance
  | .sync sourceId source scope output =>
    { inst with cache := applyToCache inst.cache sourceId source scope output now }
  | .putHost sourceId hostname vars =>
    { inst with
      cache := (inst.cache.update sourceId fun entry => entry.updateHost hostname vars now).2 }
  | .deleteHost sourceId hostname =>
    { inst with cache := (inst.cache.update sourceId (removeHostIfPresent hostname)).2 }
  | .mergeDeclared targetId part =>
    { inst with cache := (inst.cache.update targetId (UnifiedApi.mergeDeclared part)).2 }
  | .mergeAnswer targetId answer =>
    { inst with
      cache := (inst.cache.update targetId fun entry => entry.mergeEnrichment answer now).2 }
  | .remove sourceId => { inst with cache := inst.cache.remove sourceId }
  | .snapshot => { inst with disk := save inst.cache now }
  | .restart path => { inst with cache := boot inst.disk path now }

/-- A write of one source's entry that is not a sync of the whole source. -/
def Partial : CacheOp → Prop
  | .sync _ _ scope _ => scope ≠ .full
  | .putHost .. | .deleteHost .. | .mergeDeclared .. | .mergeAnswer .. => True
  | .remove _ | .snapshot | .restart _ => False

/-- Syncs run with the TTL that is configured for their source. -/
def UsesTtl (ttl : String → Nat) : CacheOp → Prop
  | .sync sourceId source _ _ => source.ttlSeconds = ttl sourceId
  | _ => True

end CacheOp

def Instance.step (inst : Instance) (event : CacheOp × Nat) : Option Instance :=
  some (event.1.apply event.2 inst)

/-- The instances reached from an empty cache by operations that all meet `ok`. -/
abbrev Instance.Reachable (ok : Instance → CacheOp × Nat → Prop) : Instance → Prop :=
  Runs.Reach Instance.step ok {}

/-! ## What one operation leaves at one key -/

/-- The handler of a host write leaves the cache of `CacheOp.putHost`. -/
theorem putHost_apply {config : Config} {permissions : Permissions} {id hostname : String}
    {vars : HostVars} {now : Nat} {inst : Instance} {cache : MemoryCache}
    (h : putHost config permissions id hostname vars now inst.cache = .ok cache) :
    (CacheOp.putHost id hostname vars).apply now inst = { inst with cache } := by
  rw [putHost_ok h]
  rfl

/-- What an entry of the loaded cache came from. -/
theorem get_boot {file : SnapshotFile} {path : String} {now : Nat} {key : String}
    {entry : CacheEntry} (h : (boot file path now).get key = some entry) :
    ∃ saved, file.entries[key]? = some saved ∧ entry = restoreEntry saved now := by
  unfold boot load at h
  split at h
  · rename_i cache hload
    split at hload
    · cases hload
    · obtain ⟨_, rfl⟩ := Prod.mk.inj (Except.ok.inj hload)
      rw [get_loadEntries] at h
      have hempty : (({} : MemoryCache).get key) = none := rfl
      rw [hempty, Option.or_none] at h
      obtain ⟨saved, hsaved, hentry⟩ := Option.map_eq_some_iff.mp h
      exact ⟨saved, hsaved, hentry.symm⟩
  · cases h

/-- Where an entry of the cache comes from after one operation. -/
inductive EntryFrom (inst : Instance) (op : CacheOp) (now : Nat) (key : String)
    (entry : CacheEntry) : Prop
  | kept (h : inst.cache.get key = some entry)
  | synced (source : Source) (scope : SyncScope) (output : ConnectorOutput)
      (hop : op = .sync key source scope output)
      (h : syncedEntry source scope output now (inst.cache.get key) = some entry)
  | changed (old : CacheEntry) (hold : inst.cache.get key = some old)
      (hclock : SameClock old entry) (hstamped : old.Stamped → entry.Stamped)
  | restored (path : String) (saved : SnapshotEntry) (hop : op = .restart path)
      (hdisk : inst.disk.entries[key]? = some saved) (h : entry = restoreEntry saved now)

/-- An operation that runs `f` on one present entry. -/
theorem entryFrom_update {inst : Instance} {op : CacheOp} {now : Nat} {id key : String}
    {f : CacheEntry → CacheEntry} {entry : CacheEntry}
    (hclock : ∀ old, SameClock old (f old)) (hstamped : ∀ old, old.Stamped → (f old).Stamped)
    (h : (inst.cache.update id f).2.get key = some entry) : EntryFrom inst op now key entry := by
  rw [MemoryCache.get_update] at h
  split at h
  · rename_i hid
    subst hid
    obtain ⟨old, hold, hf⟩ := Option.map_eq_some_iff.mp h
    subst hf
    exact .changed old hold (hclock old) (hstamped old)
  · exact .kept h

theorem entryFrom_apply {inst : Instance} {op : CacheOp} {now : Nat} {key : String}
    {entry : CacheEntry} (h : (op.apply now inst).cache.get key = some entry) :
    EntryFrom inst op now key entry := by
  cases op with
  | sync sourceId source scope output =>
    have hsync := get_applyToCache inst.cache sourceId source scope output now key
    rw [show (applyToCache inst.cache sourceId source scope output now).get key = some entry from h]
      at hsync
    by_cases hid : sourceId = key
    · subst hid
      rw [if_pos rfl] at hsync
      exact .synced source scope output rfl hsync.symm
    · rw [if_neg hid] at hsync
      exact .kept hsync.symm
  | putHost sourceId hostname vars =>
    exact entryFrom_update (fun old => updateHostAged_clock old hostname vars 0 now)
      (fun old hold => updateHostAged_stamped hold hostname vars 0 now) h
  | deleteHost sourceId hostname =>
    refine entryFrom_update (fun old => ?_) (fun old hold => ?_) h
    · unfold removeHostIfPresent
      split
      · exact removeHost_clock old hostname
      · exact .refl old
    · unfold removeHostIfPresent
      split
      · exact removeHost_stamped hold hostname
      · exact hold
  | mergeDeclared targetId part =>
    refine entryFrom_update (fun old => ?_) (fun old hold => ?_) h
    · exact (mergeGroupVarFields_clock old _).trans (mergeHostvarFields_clock _ _)
    · exact mergeHostvarFields_stamped (SameHosts.stamped ⟨rfl, rfl⟩ hold) _
  | mergeAnswer targetId answer =>
    exact entryFrom_update (fun old => mergeInto_clock old answer false now)
      (fun old hold => mergeInto_stamped hold answer false now) h
  | remove sourceId =>
    have hremove := MemoryCache.get_remove inst.cache sourceId key
    rw [show (inst.cache.remove sourceId).get key = some entry from h] at hremove
    split at hremove
    · cases hremove
    · exact .kept hremove.symm
  | snapshot => exact .kept h
  | restart path =>
    obtain ⟨saved, hsaved, hentry⟩ := get_boot h
    exact .restored path saved rfl hsaved hentry

/-- Only a snapshot writes the disk. -/
theorem disk_apply {inst : Instance} {op : CacheOp} {now : Nat} {key : String}
    {saved : SnapshotEntry} (h : (op.apply now inst).disk.entries[key]? = some saved) :
    inst.disk.entries[key]? = some saved ∨
      ∃ entry, inst.cache.get key = some entry ∧ saved = snapshotEntry entry now := by
  cases op with
  | snapshot =>
    have hsave : (save inst.cache now).entries[key]? = some saved := h
    rw [save, StrMap.getElem?_map] at hsave
    obtain ⟨entry, hentry, hsaved⟩ := Option.map_eq_some_iff.mp hsave
    exact .inr ⟨entry, hentry, hsaved.symm⟩
  | _ => exact .inl h

/-! ## Every host keeps exactly one timestamp -/

/-- The operation builds no entry whose hosts and reported ages disagree: a
full replace that federates ages, or a restart. -/
def CacheOp.BuildsStamped (inst : Instance) (event : CacheOp × Nat) : Prop :=
  match event.1 with
  | .sync _ source _ output => ∀ ages, output.ages = some ages → (EntryBuild.restore output.dataset
      source.ttlSeconds ages.datasetAgeSeconds ages.hostAges event.2).StampsEveryHost
  | .restart _ => ∀ key saved, inst.disk.entries[(key : String)]? = some saved →
      (EntryBuild.restore saved.dataset saved.ttlSeconds saved.ageSeconds saved.hostAges
        event.2).StampsEveryHost
  | _ => True

theorem gatheredEntry_stamped {source : Source} {output : ConnectorOutput} {now : Nat}
    (h : ∀ ages, output.ages = some ages → (EntryBuild.restore output.dataset source.ttlSeconds
      ages.datasetAgeSeconds ages.hostAges now).StampsEveryHost) :
    (gatheredEntry source.ttlSeconds output.dataset output.ages now).Stamped := by
  cases hages : output.ages with
  | none => exact new_stamped output.dataset source.ttlSeconds now
  | some ages => exact (entry_stamped_iff _).mpr (h ages hages)

theorem updateHosts_stamped {entry : CacheEntry} (updates : List (String × HostVars × Nat))
    (now : Nat) (h : entry.Stamped) : (updateHosts updates now entry).Stamped := by
  induction updates generalizing entry with
  | nil => exact h
  | cons update rest ih => exact ih (updateHostAged_stamped h update.1 update.2.1 update.2.2 now)

theorem restoreHosts_stamped {entry : CacheEntry} (retained : List RetainedHost) (now : Nat)
    (h : entry.Stamped) :
    (retained.foldl (fun entry host => entry.restoreHost host now) entry).Stamped := by
  induction retained generalizing entry with
  | nil => exact h
  | cons host rest ih => exact ih (restoreHost_stamped h host now)

/-- A sync keeps the timestamps in step on every path, given that a full
replace restores from ages that cover the dataset. -/
theorem syncedEntry_stamped {source : Source} {scope : SyncScope} {output : ConnectorOutput}
    {now : Nat} {old : Option CacheEntry} {entry : CacheEntry}
    (hbuild : ∀ ages, output.ages = some ages → (EntryBuild.restore output.dataset
      source.ttlSeconds ages.datasetAgeSeconds ages.hostAges now).StampsEveryHost)
    (hold : ∀ previous, old = some previous → previous.Stamped)
    (h : syncedEntry source scope output now old = some entry) : entry.Stamped := by
  have hnew := new_stamped output.dataset source.ttlSeconds now
  have hset : ∀ previous, old = some previous → (previous.setTtl source.ttlSeconds).Stamped :=
    fun previous hp => SameHosts.stamped ⟨rfl, rfl⟩ (hold previous hp)
  cases syncedEntry_ways h with
  | kept _ => exact hold _ rfl
  | patched _ =>
    exact SameHosts.stamped (patchHosts_sameHosts _ output now _ source)
      (updateHosts_stamped _ now (hset _ rfl))
  | created _ =>
    rw [correctCreated_eq]
    exact SameHosts.stamped ⟨rfl, rfl⟩ (updateHosts_stamped _ now hnew)
  | groupUpdated => exact updateGroup_stamped (hset _ rfl) _ output.dataset now
  | groupCreated => exact SameHosts.stamped ⟨rfl, rfl⟩ hnew
  | replaced _ _ => exact gatheredEntry_stamped hbuild
  | keeping _ => exact restoreHosts_stamped _ now (gatheredEntry_stamped hbuild)
  | merged _ =>
    exact SameHosts.stamped ⟨rfl, rfl⟩ (mergeInto_stamped (hset _ rfl) output.dataset true now)
  | inserted => exact hnew

/-- Over a whole run, a host without a timestamp or a timestamp without a
host enters only through `restore`. -/
theorem reachable_stamped {inst : Instance} (h : Instance.Reachable CacheOp.BuildsStamped inst) :
    ∀ key entry, inst.cache.get key = some entry → entry.Stamped := by
  refine Runs.Reach.invariant
    (P := fun inst => ∀ key entry, inst.cache.get key = some entry → entry.Stamped) ?_ ?_ h
  · intro key entry hentry
    cases hentry
  · intro inst event inst' ih hok hstep key entry hentry
    obtain rfl := Option.some.inj hstep
    obtain ⟨op, now⟩ := event
    cases entryFrom_apply hentry with
    | kept hkept => exact ih key entry hkept
    | synced source scope output hop hsync =>
      subst hop
      exact syncedEntry_stamped hok (ih key) hsync
    | changed old hold _ hstamped => exact hstamped (ih key old hold)
    | restored path saved hop hdisk heq =>
      subst hop heq
      have hrestored := (entry_stamped_iff _).mpr (hok key saved hdisk)
      unfold restoreEntry
      dsimp only
      split
      · exact hrestored
      · exact SameHosts.stamped ⟨rfl, rfl⟩ hrestored

/-- A remote source whose origin lists no age for the host it returns. -/
def unlistedOutput : ConnectorOutput where
  dataset := { hostvars := (∅ : StrMap HostVars).insert "a" ∅ }
  ages := some { datasetAgeSeconds := 0 }

/-- A full replace stores that host without a timestamp. -/
theorem unlisted_not_stamped :
    ∃ entry, (applyToCache {} "edge" { connectorType := .remote, ttlSeconds := 60 } .full
      unlistedOutput (fromSecs 1000)).get "edge" = some entry ∧ ¬ entry.Stamped := by
  refine ⟨.restore unlistedOutput.dataset 60 0 ∅ (fromSecs 1000), by decide, fun h => ?_⟩
  have hstamp := (h "a").mpr (by decide)
  exact absurd hstamp (by decide)

/-! ## Only a full sync makes a dataset fresh or complete -/

def MemoryCache.FreshAt (cache : MemoryCache) (key : String) (now : Nat) : Prop :=
  ∃ entry, cache.get key = some entry ∧ entry.isFresh now = true

def MemoryCache.CompleteAt (cache : MemoryCache) (key : String) : Prop :=
  ∃ entry, cache.get key = some entry ∧ entry.isComplete = true

/-- The operation turns no dataset fresh and none complete. -/
def NeverPromotes (inst : Instance) (op : CacheOp) (now : Nat) : Prop :=
  ∀ key, ((op.apply now inst).cache.FreshAt key now → inst.cache.FreshAt key now) ∧
    ((op.apply now inst).cache.CompleteAt key → inst.cache.CompleteAt key)

/-- A scoped sync that writes meets an entry that `restore` left without a
TTL, less than the source's TTL after the restore. -/
def RevivesExpired (inst : Instance) (op : CacheOp) (now : Nat) : Prop :=
  ∃ id source scope output entry, op = .sync id source scope output ∧ scope.Writes output ∧
    inst.cache.get id = some entry ∧ entry.complete = true ∧ entry.ttl = 0 ∧
    elapsed now entry.fetchedAt < fromSecs source.ttlSeconds

/-- Every entry, cached or saved, has its source's TTL or none. -/
def TtlKnown (ttl : String → Nat) (inst : Instance) : Prop :=
  (∀ key entry, inst.cache.get key = some entry →
    entry.ttl = fromSecs (ttl key) ∨ entry.ttl = 0) ∧
  ∀ key saved, inst.disk.entries[(key : String)]? = some saved →
    saved.ttlSeconds = ttl key ∨ saved.ttlSeconds = 0

theorem reachable_ttlKnown {ttl : String → Nat} {inst : Instance}
    (h : Instance.Reachable (fun _ event => event.1.UsesTtl ttl) inst) : TtlKnown ttl inst := by
  refine Runs.Reach.invariant (P := TtlKnown ttl) ?_ ?_ h
  · constructor
    · intro key entry hentry
      cases hentry
    · intro key saved hsaved
      have hempty : (∅ : StrMap SnapshotEntry)[key]? = none := Std.ExtTreeMap.getElem?_empty
      exact absurd (hempty.symm.trans hsaved) (by simp)
  · intro inst event inst' ih hok hstep
    obtain rfl := Option.some.inj hstep
    obtain ⟨op, now⟩ := event
    constructor
    · intro key entry hentry
      cases entryFrom_apply hentry with
      | kept hkept => exact ih.1 key entry hkept
      | synced source scope output hop hsync =>
        subst hop
        have hused : source.ttlSeconds = ttl key := hok
        rcases syncedEntry_ttl hsync with hkept | hconfigured | hnone
        · exact ih.1 key entry hkept
        · exact .inl (by rw [hconfigured, hused])
        · exact .inr hnone
      | changed old hold hclock _ =>
        rw [hclock.2.1]
        exact ih.1 key old hold
      | restored path saved _ hdisk heq =>
        rw [heq, restoreEntry_ttl_eq]
        rcases ih.2 key saved hdisk with hknown | hzero
        · rw [hknown]
          split
          · exact .inl rfl
          · exact .inr rfl
        · rw [hzero, fromSecs_zero]
          exact .inr (by split <;> rfl)
    · intro key saved hsaved
      rcases disk_apply hsaved with hkept | ⟨entry, hentry, hsaved⟩
      · exact ih.2 key saved hkept
      · rw [hsaved, snapshotEntry]
        dsimp only
        rcases ih.1 key entry hentry with hknown | hzero
        · rw [hknown, asSecs_fromSecs]
          exact .inl rfl
        · rw [hzero]
          exact .inr rfl

theorem isFresh_iff {entry : CacheEntry} {now : Nat} :
    entry.isFresh now = true ↔
      entry.complete = true ∧ elapsed now entry.fetchedAt < entry.ttl := by
  rw [isFresh, Bool.and_eq_true, decide_eq_true_iff]

/-- An entry that an operation short of a full sync leaves fresh or complete
was so before, unless the operation revived it. -/
theorem not_promoted {ttl : String → Nat} {inst : Instance} {op : CacheOp} {now : Nat}
    {key : String} {entry : CacheEntry} (hknown : TtlKnown ttl inst) (hop : op.Partial)
    (hrevives : ¬ RevivesExpired inst op now)
    (httl : op.UsesTtl ttl) (hentry : (op.apply now inst).cache.get key = some entry)
    (hcomplete : entry.complete = true) :
    ∃ old, inst.cache.get key = some old ∧ old.complete = true ∧
      (entry.isFresh now = true → old.isFresh now = true) := by
  cases entryFrom_apply hentry with
  | kept hkept => exact ⟨entry, hkept, hcomplete, id⟩
  | changed old hold hclock _ =>
    refine ⟨old, hold, hclock.2.2 ▸ hcomplete, fun hfresh => ?_⟩
    rw [← hclock.isFresh]
    exact hfresh
  | restored path saved hop' _ _ =>
    subst hop'
    exact hop.elim
  | synced source scope output hop' hsync =>
    subst hop'
    have hscope : scope ≠ .full := hop
    have hused : source.ttlSeconds = ttl key := httl
    cases hold : inst.cache.get key with
    | none =>
      rw [hold] at hsync
      rw [syncedEntry_scoped_none hscope hsync] at hcomplete
      cases hcomplete
    | some old =>
      rw [hold] at hsync
      obtain ⟨entry', hentry', hwrites, hkeeps⟩ :=
        syncedEntry_scoped_some source output now old hscope
      obtain rfl := Option.some.inj (hentry'.symm.trans hsync)
      by_cases hw : scope.Writes output
      · have hclock := hwrites hw
        have hold' : old.complete = true := hclock.2.2 ▸ hcomplete
        refine ⟨old, rfl, hold', fun hfresh => ?_⟩
        rw [hclock.isFresh, isFresh_iff] at hfresh
        have hlt : elapsed now old.fetchedAt < fromSecs source.ttlSeconds := hfresh.2
        rcases hknown.1 key old hold with hsame | hzero
        · rw [isFresh_iff, hsame, ← hused]
          exact ⟨hold', hlt⟩
        · exact absurd ⟨key, source, scope, output, old, rfl, hw, hold, hold', hzero, hlt⟩ hrevives
      · rw [hkeeps hw] at hcomplete ⊢
        exact ⟨old, rfl, hcomplete, id⟩

/-- At any instant, an operation that is not a full sync promotes nothing
exactly when it does not put a TTL back on an entry too old to date. -/
theorem neverPromotes_iff {ttl : String → Nat} {inst : Instance} {op : CacheOp} (now : Nat)
    (hreach : Instance.Reachable (fun _ event => event.1.UsesTtl ttl) inst) (hop : op.Partial)
    (httl : op.UsesTtl ttl) : NeverPromotes inst op now ↔ ¬ RevivesExpired inst op now := by
  have hknown := reachable_ttlKnown hreach
  constructor
  · intro h hrevives
    obtain ⟨id, source, scope, output, old, hsync, hw, hold, hcomplete, hzero, hlt⟩ := hrevives
    subst hsync
    obtain ⟨entry, hentry, hwrites, _⟩ :=
      syncedEntry_scoped_some source output now old hop
    have hafter : ((CacheOp.sync id source scope output).apply now inst).cache.get id =
        some entry := by
      refine (get_applyToCache inst.cache id source scope output now id).trans ?_
      rw [if_pos rfl, hold, hentry]
    have hfresh : entry.isFresh now = true := by
      rw [(hwrites hw).isFresh, isFresh_iff]
      exact ⟨hcomplete, hlt⟩
    obtain ⟨old', hold', hfresh'⟩ := (h id).1 ⟨entry, hafter, hfresh⟩
    obtain rfl := Option.some.inj (hold.symm.trans hold')
    rw [isFresh_iff, hzero] at hfresh'
    exact Nat.not_lt_zero _ hfresh'.2
  · intro hrevives key
    constructor
    · intro ⟨entry, hentry, hfresh⟩
      obtain ⟨old, hold, _, hkept⟩ :=
        not_promoted hknown hop hrevives httl hentry (isFresh_iff.mp hfresh).1
      exact ⟨old, hold, hkept hfresh⟩
    · intro ⟨entry, hentry, hcomplete⟩
      obtain ⟨old, hold, hkept, _⟩ := not_promoted hknown hop hrevives httl hentry hcomplete
      exact ⟨old, hold, hkept⟩

/-- A federated dataset older than the clock, and then one of its hosts
gathered ten seconds later. -/
def edgeSource : Source := { connectorType := .remote, ttlSeconds := 3600 }

def ancientGather : CacheOp := .sync "edge" edgeSource .full
  { dataset := { hostvars := (∅ : StrMap HostVars).insert "a" ∅ }
    ages := some { datasetAgeSeconds := 100, hostAges := (∅ : StrMap Nat).insert "a" 5 } }

def hostGather : CacheOp := .sync "edge" edgeSource (.hosts ["a"])
  { dataset := { hostvars := (∅ : StrMap HostVars).insert "a" ∅ } }

def ancientInstance : Instance := ancientGather.apply (fromSecs 10) {}

theorem ancientInstance_reachable :
    Instance.Reachable (fun _ event => event.1.UsesTtl fun _ => 3600) ancientInstance :=
  Runs.Reach.start.step (l := (ancientGather, fromSecs 10)) (by exact rfl) rfl

theorem hostGather_neverPromotes_iff :
    NeverPromotes ancientInstance hostGather (fromSecs 20) ↔
      ¬ RevivesExpired ancientInstance hostGather (fromSecs 20) :=
  neverPromotes_iff (fromSecs 20) ancientInstance_reachable (fun h => nomatch h) rfl

/-- The host-scoped sync makes the whole dataset fresh. -/
theorem hostGather_promotes :
    Instance.Reachable (fun _ event => event.1.UsesTtl fun _ => 3600) ancientInstance ∧
    hostGather.Partial ∧ hostGather.UsesTtl (fun _ => 3600) ∧
    ¬ NeverPromotes ancientInstance hostGather (fromSecs 20) := by
  refine ⟨ancientInstance_reachable, (fun h => nomatch h), rfl, fun h => ?_⟩
  have hbefore : (ancientInstance.cache.get "edge").map (·.isFresh (fromSecs 20)) =
      some false := by decide
  have hafter : ((hostGather.apply (fromSecs 20) ancientInstance).cache.get "edge").map
      (·.isFresh (fromSecs 20)) = some true := by decide
  obtain ⟨entry, hentry, hfresh⟩ := Option.map_eq_some_iff.mp hafter
  obtain ⟨old, hold, hfresh'⟩ := (h "edge").1 ⟨entry, hentry, hfresh⟩
  rw [hold, Option.map_some, hfresh'] at hbefore
  cases hbefore

end UnifiedApi
