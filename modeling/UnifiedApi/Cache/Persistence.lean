import UnifiedApi.Cache.MemoryCache

/-! # The cache snapshot on disk

Instants belong to one process, so a snapshot stores ages in whole seconds.
Loading turns them back into instants of the new process. -/

namespace UnifiedApi
open Clock CacheEntry

structure SnapshotEntry where
  dataset : Dataset
  ttlSeconds : Nat
  ageSeconds : Nat
  hostAges : StrMap Nat
  /-- True in a file written before the field existed. -/
  complete : Bool := true
  deriving DecidableEq

structure SnapshotFile where
  version : Nat
  entries : StrMap SnapshotEntry
  deriving DecidableEq

def snapshotVersion : Nat := 1

def snapshotEntry (entry : CacheEntry) (now : Nat) : SnapshotEntry where
  dataset := entry.dataset
  ttlSeconds := asSecs entry.ttl
  ageSeconds := entry.ageSeconds now
  hostAges := entry.dataset.hostvars.filterMap fun host _ => entry.hostAgeSeconds host now
  complete := entry.isComplete

def save (cache : MemoryCache) (now : Nat) : SnapshotFile where
  version := snapshotVersion
  entries := cache.store.map fun _ entry => snapshotEntry entry now

def restoreEntry (entry : SnapshotEntry) (now : Nat) : CacheEntry :=
  let restored :=
    CacheEntry.restore entry.dataset entry.ttlSeconds entry.ageSeconds entry.hostAges now
  if entry.complete then restored else restored.markPartial

def loadEntries (entries : StrMap SnapshotEntry) (now : Nat) (cache : MemoryCache) : MemoryCache :=
  entries.foldl (fun cache key entry => cache.set key (restoreEntry entry now)) cache

/-- How many entries were loaded, and the cache with each of them set. -/
def load (file : SnapshotFile) (path : String) (now : Nat) (cache : MemoryCache) :
    Except String (Nat × MemoryCache) :=
  if file.version ≠ snapshotVersion then
    .error ("snapshot '" ++ path ++ "' has version " ++ toString file.version ++
      " but this binary writes version " ++ toString snapshotVersion ++ " — ignoring it")
  else
    .ok (file.entries.size, loadEntries file.entries now cache)

/-- A process that starts from a snapshot file; one it cannot use leaves the
cache empty. -/
def boot (file : SnapshotFile) (path : String) (now : Nat) : MemoryCache :=
  match load file path now {} with
  | .ok (_, cache) => cache
  | .error _ => {}

/-! ## What a restart keeps -/

theorem get_loadEntries (entries : StrMap SnapshotEntry) (now : Nat) (cache : MemoryCache)
    (key : String) : (loadEntries entries now cache).get key =
      (entries[key]?.map (restoreEntry · now)).or (cache.get key) := by
  have hloop := StrMap.getElem?_foldl_proj (fun cache : MemoryCache => cache.store)
    (g := fun _ entry _ => some (restoreEntry entry now))
    (fun cache key entry other => MemoryCache.get_set cache key other (restoreEntry entry now))
    entries cache key
  refine hloop.trans ?_
  cases entries[key]? <;> rfl

/-- Booting from what was saved: each entry restored, and no other. -/
theorem get_boot_save (cache : MemoryCache) (path : String) (now now' : Nat) (key : String) :
    (boot (save cache now) path now').get key =
      (cache.get key).map fun entry => restoreEntry (snapshotEntry entry now) now' := by
  have hload : boot (save cache now) path now' = loadEntries (save cache now).entries now' {} := by
    unfold boot load
    rw [if_neg fun hne => hne rfl]
  rw [hload, get_loadEntries, save, StrMap.getElem?_map, Option.map_map]
  exact Option.or_none

/-! ## Freshness across a restart -/

theorem restoreEntry_ttl_eq (saved : SnapshotEntry) (now : Nat) :
    (restoreEntry saved now).ttl =
      if fromSecs saved.ageSeconds ≤ now then fromSecs saved.ttlSeconds else 0 := by
  rw [← restore_ttl saved.dataset saved.ttlSeconds saved.ageSeconds saved.hostAges now]
  unfold restoreEntry
  dsimp only
  split <;> rfl

section Restore
variable (entry : CacheEntry) (now now' : Nat)

theorem restoreEntry_timestamp (host : String) :
    (restoreEntry (snapshotEntry entry now) now').hostTimestamps[host]? =
      (entry.dataset.hostvars[host]?.bind fun _ => entry.hostAgeSeconds host now).bind
        fun age => checkedSub now' (fromSecs age) := by
  have hmark : (restoreEntry (snapshotEntry entry now) now').hostTimestamps =
      (CacheEntry.restore entry.dataset (asSecs entry.ttl) (entry.ageSeconds now)
        (snapshotEntry entry now).hostAges now').hostTimestamps := by
    unfold restoreEntry
    dsimp only
    split <;> rfl
  rw [hmark, restore_timestamp, snapshotEntry, Std.ExtTreeMap.getElem?_filterMap']

theorem exists_timestamp_of_restored {entry : CacheEntry} {now now' : Nat} {host : String}
    {restored : Nat}
    (hnew : (restoreEntry (snapshotEntry entry now) now').hostTimestamps[host]? = some restored) :
    ∃ instant, entry.hostTimestamps[host]? = some instant := by
  rw [restoreEntry_timestamp] at hnew
  obtain ⟨age, hage, _⟩ := Option.bind_eq_some_iff.mp hnew
  obtain ⟨_, _, hage⟩ := Option.bind_eq_some_iff.mp hage
  obtain ⟨instant, hinstant, _⟩ := Option.map_eq_some_iff.mp hage
  exact ⟨instant, hinstant⟩

/-- A timestamp that comes back is set back by the saved age. -/
theorem restoreEntry_timestamp_eq {host : String} {instant restored : Nat}
    (hold : entry.hostTimestamps[host]? = some instant)
    (hnew : (restoreEntry (snapshotEntry entry now) now').hostTimestamps[host]? = some restored) :
    host ∈ entry.dataset.hostvars ∧ fromSecs (asSecs (elapsed now instant)) ≤ now' ∧
      elapsed now' restored = fromSecs (asSecs (elapsed now instant)) := by
  rw [restoreEntry_timestamp] at hnew
  obtain ⟨age, hage, hback⟩ := Option.bind_eq_some_iff.mp hnew
  obtain ⟨vars, hvars, hage⟩ := Option.bind_eq_some_iff.mp hage
  rw [hostAgeSeconds, hold, Option.map_some, Option.some.injEq] at hage
  subst hage
  have hle : fromSecs (asSecs (elapsed now instant)) ≤ now' := by
    rw [← checkedSub_isSome, hback]
    rfl
  rw [checkedSub_of_le hle, Option.some.injEq] at hback
  refine ⟨StrMap.mem_of_some hvars, hle, ?_⟩
  rw [← hback, elapsed_sub hle]

theorem restoreEntry_complete :
    (restoreEntry (snapshotEntry entry now) now').complete = entry.complete := by
  unfold restoreEntry snapshotEntry isComplete
  cases hc : entry.complete <;> rfl

theorem restoreEntry_fetchedAt :
    (restoreEntry (snapshotEntry entry now) now').fetchedAt =
      backdated (entry.ageSeconds now) now' := by
  unfold restoreEntry snapshotEntry
  dsimp only
  split
  · rw [restore_fetchedAt]
  · unfold markPartial
    dsimp only
    rw [restore_fetchedAt]

theorem restoreEntry_ttl (h : fromSecs (entry.ageSeconds now) ≤ now') :
    (restoreEntry (snapshotEntry entry now) now').ttl = fromSecs (asSecs entry.ttl) := by
  rw [restoreEntry_ttl_eq, snapshotEntry, if_pos h]

end Restore

/-- Every age has grown by the downtime, less than a second of rounding
excepted, and nothing that was stale or went stale meanwhile is fresh. -/
structure AgesAcross (downtime now now' : Nat) (entry entry' : CacheEntry) : Prop where
  dataset : elapsed now entry.fetchedAt + downtime < elapsed now' entry'.fetchedAt + fromSecs 1
  host : ∀ host instant restored, entry.hostTimestamps[(host : String)]? = some instant →
    entry'.hostTimestamps[host]? = some restored →
    elapsed now instant + downtime < elapsed now' restored + fromSecs 1
  stale : entry.isFresh now = false ∨ entry.ttl ≤ elapsed now entry.fetchedAt + downtime →
    entry'.isFresh now' = false
  staleHost : ∀ host ttlOverride, entry.isHostFresh host ttlOverride now = false ∨
      (∃ instant, entry.hostTimestamps[(host : String)]? = some instant ∧
        (ttlOverride.map fromSecs).getD entry.ttl ≤ elapsed now instant + downtime) →
    entry'.isHostFresh host ttlOverride now' = false

/-- The downtime fits in what rounding to whole seconds may lose, for the
dataset and for each host whose age comes back, and the new clock can go back
as far as the dataset's age. -/
structure DowntimeWithinRounding (downtime now now' : Nat) (entry : CacheEntry) : Prop where
  representable : fromSecs (entry.ageSeconds now) ≤ now'
  dataset : fraction (elapsed now entry.fetchedAt) + downtime < fromSecs 1
  host : ∀ host instant, entry.hostTimestamps[(host : String)]? = some instant →
    host ∈ entry.dataset.hostvars → fromSecs (asSecs (elapsed now instant)) ≤ now' →
    fraction (elapsed now instant) + downtime < fromSecs 1

theorem AgesAcross.withinRounding {entry : CacheEntry} {downtime now now' : Nat}
    (h : AgesAcross downtime now now' entry (restoreEntry (snapshotEntry entry now) now')) :
    DowntimeWithinRounding downtime now now' entry := by
  have hdataset := h.dataset
  rw [restoreEntry_fetchedAt] at hdataset
  have hrep : fromSecs (entry.ageSeconds now) ≤ now' := by
    by_contra hno
    rw [backdated_of_not_le hno, elapsed_self] at hdataset
    have hzero : entry.ageSeconds now = 0 := by
      unfold ageSeconds asSecs
      unfold fromSecs at hdataset
      omega
    rw [hzero, fromSecs_zero] at hno
    exact hno (Nat.zero_le now')
  refine ⟨hrep, ?_, ?_⟩
  · rw [backdated_of_le hrep, elapsed_sub hrep] at hdataset
    exact add_lt_asSecs_iff.mp hdataset
  · intro host instant hold hvars hle
    have hnew : (restoreEntry (snapshotEntry entry now) now').hostTimestamps[host]? =
        some (now' - fromSecs (asSecs (elapsed now instant))) := by
      obtain ⟨vars, hvars⟩ := (StrMap.mem_iff_exists _ _).mp hvars
      rw [restoreEntry_timestamp, hvars, Option.bind_some, hostAgeSeconds, hold, Option.map_some,
        Option.bind_some, checkedSub_of_le hle]
    have hhost := h.host host instant _ hold hnew
    rw [elapsed_sub hle] at hhost
    exact add_lt_asSecs_iff.mp hhost

section Within
variable {entry : CacheEntry} {downtime now now' : Nat}

theorem DowntimeWithinRounding.age (h : DowntimeWithinRounding downtime now now' entry) :
    elapsed now' (restoreEntry (snapshotEntry entry now) now').fetchedAt =
      fromSecs (asSecs (elapsed now entry.fetchedAt)) := by
  rw [restoreEntry_fetchedAt, backdated_of_le h.representable, elapsed_sub h.representable]
  rfl

/-- A TTL that runs out by the end of the downtime has run out on what comes
back. -/
theorem DowntimeWithinRounding.expired (h : DowntimeWithinRounding downtime now now' entry)
    (hexpired : entry.ttl ≤ elapsed now entry.fetchedAt + downtime) :
    (restoreEntry (snapshotEntry entry now) now').isFresh now' = false := by
  rw [isFresh, restoreEntry_ttl _ _ _ h.representable, h.age]
  have hle := fromSecs_le_of_fraction h.dataset hexpired
  rw [decide_eq_false (Nat.not_lt.mpr hle), Bool.and_false]

theorem DowntimeWithinRounding.host_expired (h : DowntimeWithinRounding downtime now now' entry)
    {host : String} {ttlOverride : Option Nat}
    (hexpired : ∀ instant, entry.hostTimestamps[host]? = some instant →
      (ttlOverride.map fromSecs).getD entry.ttl ≤ elapsed now instant + downtime) :
    (restoreEntry (snapshotEntry entry now) now').isHostFresh host ttlOverride now' = false := by
  refine isHostFresh_eq_false_iff.mpr fun restored hnew => ?_
  obtain ⟨instant, hold⟩ := exists_timestamp_of_restored hnew
  obtain ⟨hvars, hrep, hback⟩ := restoreEntry_timestamp_eq entry now now' hold hnew
  have hle := fromSecs_le_of_fraction (h.host host instant hold hvars hrep) (hexpired instant hold)
  rw [hback]
  cases ttlOverride with
  | none =>
    rw [restoreEntry_ttl _ _ _ h.representable]
    exact hle
  | some secs => rwa [Option.map_some, Option.getD_some, asSecs_fromSecs] at hle

theorem DowntimeWithinRounding.agesAcross (h : DowntimeWithinRounding downtime now now' entry) :
    AgesAcross downtime now now' entry (restoreEntry (snapshotEntry entry now) now') where
  dataset := by
    rw [h.age]
    exact add_lt_asSecs_iff.mpr h.dataset
  host host instant restored hold hnew := by
    obtain ⟨hvars, hle, hback⟩ := restoreEntry_timestamp_eq entry now now' hold hnew
    rw [hback]
    exact add_lt_asSecs_iff.mpr (h.host host instant hold hvars hle)
  stale hstale := by
    cases hc : entry.complete with
    | false => rw [isFresh, restoreEntry_complete, hc, Bool.false_and]
    | true =>
      refine h.expired ?_
      rcases hstale with hstale | hexpired
      · rw [isFresh, hc, Bool.true_and, decide_eq_false_iff_not] at hstale
        omega
      · exact hexpired
  staleHost host ttlOverride hstale := by
    refine h.host_expired fun instant hold => ?_
    rcases hstale with hstale | ⟨instant', hold', hexpired⟩
    · exact (isHostFresh_eq_false_iff.mp hstale instant hold).trans (Nat.le_add_right _ _)
    · rw [hold] at hold'
      obtain rfl := Option.some.inj hold'
      exact hexpired

end Within

/-- Freshness survives a restart exactly as far as rounding can hide the
downtime: no snapshot records when it was taken. -/
theorem boot_save_agesAcross_iff (cache : MemoryCache) (path : String) (downtime now now' : Nat) :
    (∀ key entry, cache.get key = some entry →
      ∃ entry', (boot (save cache now) path now').get key = some entry' ∧
        AgesAcross downtime now now' entry entry') ↔
    ∀ key entry, cache.get key = some entry → DowntimeWithinRounding downtime now now' entry := by
  have hboot : ∀ {key entry}, cache.get key = some entry →
      (boot (save cache now) path now').get key =
        some (restoreEntry (snapshotEntry entry now) now') := by
    intro key entry hentry
    rw [get_boot_save, hentry, Option.map_some]
  constructor
  · intro h key entry hentry
    obtain ⟨entry', hentry', hages⟩ := h key entry hentry
    rw [hboot hentry] at hentry'
    obtain rfl := Option.some.inj hentry'
    exact hages.withinRounding
  · intro h key entry hentry
    exact ⟨_, hboot hentry, (h key entry hentry).agesAcross⟩

/-- An entry gathered forty seconds ago with a sixty-second TTL. -/
def fortySecondsOld : MemoryCache := MemoryCache.set {} "src" (.new {} 60 0)

/-- After thirty seconds of downtime it is still forty seconds old, and fresh. -/
theorem downtime_forgotten : ¬ ∀ key entry, fortySecondsOld.get key = some entry →
    ∃ entry', (boot (save fortySecondsOld (fromSecs 40)) "cache.json" (fromSecs 100)).get key =
      some entry' ∧ AgesAcross (fromSecs 30) (fromSecs 40) (fromSecs 100) entry entry' := by
  intro h
  obtain ⟨entry', hentry', hages⟩ := h "src" (.new {} 60 0) (by decide)
  have hfresh : ((boot (save fortySecondsOld (fromSecs 40)) "cache.json" (fromSecs 100)).get
      "src").map (·.isFresh (fromSecs 100)) = some true := by decide
  have hstale := hages.stale (.inr (by decide))
  rw [hentry', Option.map_some, hstale] at hfresh
  cases hfresh

end UnifiedApi
