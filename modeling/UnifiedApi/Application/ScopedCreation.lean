import UnifiedApi.Application.SyncedHosts
import UnifiedApi.Cache.Writes
import UnifiedApi.Lib.Runs

/-! # A sync as its cache operations

A sync writes with one atomic operation after the other and holds nothing in
between: whoever reads or exports the cache there sees what the operations so
far have made of it. A scoped sync that finds no entry needs two. -/

namespace UnifiedApi
open Clock CacheEntry

/-- The operations of a sync, by whether the source had an entry. -/
def syncWrites (sourceId : String) (source : Source) (scope : SyncScope)
    (output : ConnectorOutput) (now : Nat) (occupied : Bool) : List CacheWrite :=
  let ttl := source.ttlSeconds
  match scope with
  | .hosts hosts =>
    if (scopedUpdates hosts output).isEmpty then []
    else
      .mergeOrInsert sourceId output.dataset ttl now
          (fun entry _ => patchHosts source hosts output now entry) ::
        if occupied then [] else [.update sourceId (correctCreated hosts output now)]
  | .group group =>
    .mergeOrInsert sourceId output.dataset ttl now
        (fun entry new => entry.updateGroup group new now) ::
      if occupied then [] else [.update sourceId CacheEntry.markPartial]
  | .full => match source.syncMode with
    | .replace =>
      if output.unreachable.isEmpty then
        [.set sourceId (gatheredEntry ttl output.dataset output.ages now)]
      else
        [.mergeOrInsert sourceId output.dataset ttl now (replaceKeeping ttl output now)]
    | .merge =>
      [.mergeOrInsert sourceId output.dataset ttl now
        fun entry new => (entry.mergeDataset new now).markGathered now]

def runWrites (cache : MemoryCache) (writes : List CacheWrite) : MemoryCache :=
  writes.foldl (fun cache write => write.run cache) cache

/-- Undisturbed, the operations are the sync. -/
theorem runWrites_syncWrites (cache : MemoryCache) (sourceId : String) (source : Source)
    (scope : SyncScope) (output : ConnectorOutput) (now : Nat) :
    runWrites cache (syncWrites sourceId source scope output now (cache.get sourceId).isSome) =
      applyToCache cache sourceId source scope output now := by
  unfold syncWrites applyToCache
  cases scope with
  | hosts hosts =>
    dsimp only
    split
    · rfl
    · split <;> rfl
  | group group =>
    dsimp only
    split <;> rfl
  | full =>
    dsimp only
    cases source.syncMode with
    | replace =>
      dsimp only
      split <;> rfl
    | merge => rfl

/-- A sync under way: the operations it still has to make. -/
structure SyncInProgress where
  cache : MemoryCache
  todo : List CacheWrite

/-- The sync's next operation, or somebody else's read. -/
inductive CacheStep where
  | write
  | get (key : String)
  | export

namespace SyncInProgress

def start (cache : MemoryCache) (sourceId : String) (source : Source) (scope : SyncScope)
    (output : ConnectorOutput) (now : Nat) : SyncInProgress where
  cache := cache
  todo := syncWrites sourceId source scope output now (cache.get sourceId).isSome

def step (s : SyncInProgress) : CacheStep → Option SyncInProgress
  | .write => match s.todo with
    | [] => none
    | write :: todo => some { cache := write.run s.cache, todo }
  | .get _ | .export => some s

theorem exec_writes (cache : MemoryCache) (done todo : List CacheWrite) :
    Runs.exec step { cache, todo := done ++ todo } (done.map fun _ => .write) =
      some { cache := runWrites cache done, todo } := by
  induction done generalizing cache with
  | nil => rfl
  | cons write done ih => exact ih (write.run cache)

/-- The operations left are always the rest of the sync's, and the cache is
what the ones before have made of it. -/
theorem reach_iff (cache : MemoryCache) (writes : List CacheWrite) (s : SyncInProgress) :
    Runs.Reach step Runs.Any { cache, todo := writes } s ↔
      ∃ done, writes = done ++ s.todo ∧ s.cache = runWrites cache done := by
  constructor
  · intro h
    refine h.invariant (P := fun s => ∃ done, writes = done ++ s.todo ∧
      s.cache = runWrites cache done) ⟨[], rfl, rfl⟩ ?_
    intro s event s' hdone _ hstep
    obtain ⟨done, hwrites, hcache⟩ := hdone
    cases event with
    | get | «export» =>
      obtain rfl := Option.some.inj hstep
      exact ⟨done, hwrites, hcache⟩
    | write =>
      simp only [step] at hstep
      split at hstep
      · cases hstep
      · rename_i write todo htodo
        obtain rfl := Option.some.inj hstep
        refine ⟨done ++ [write], ?_, ?_⟩
        · rw [hwrites, htodo, List.append_assoc, List.singleton_append]
        · rw [hcache, runWrites, runWrites, List.foldl_append]
          rfl
  · intro h
    obtain ⟨done, hwrites, hcache⟩ := h
    subst hwrites
    have hexec := exec_writes cache done s.todo
    rw [← hcache] at hexec
    exact Runs.Reach.start.of_exec hexec

end SyncInProgress

/-! ## What can be caught half way -/

/-- An entry that does not pass for a gathered source: it is not complete, and
after a sync of hosts no host is younger than reported. -/
structure NotGathered (scope : SyncScope) (output : ConnectorOutput) (now : Nat)
    (entry : CacheEntry) : Prop where
  incomplete : entry.isComplete = false
  ages : ∀ hosts, scope = .hosts hosts → ∀ ages, output.ages = some ages →
    ∀ host age recorded, ages.hostAges[(host : String)]? = some age →
      entry.hostAgeSeconds host now = some recorded → age ≤ recorded

theorem syncWrites_nothing (sourceId : String) (source : Source) {scope : SyncScope}
    {output : ConnectorOutput} (now : Nat) (occupied : Bool) (hnothing : ¬ scope.Writes output) :
    syncWrites sourceId source scope output now occupied = [] := by
  cases scope with
  | full => exact absurd trivial hnothing
  | group group => exact absurd trivial hnothing
  | hosts hosts =>
    have hempty : (scopedUpdates hosts output).isEmpty = true := by
      simpa [SyncScope.Writes] using hnothing
    exact if_pos hempty

/-- The first operation of a scoped sync that writes. -/
theorem syncWrites_first (sourceId : String) (source : Source) {scope : SyncScope}
    {output : ConnectorOutput} (now : Nat) (occupied : Bool) (hscope : scope ≠ .full)
    (hwrites : scope.Writes output) :
    ∃ f rest, syncWrites sourceId source scope output now occupied =
      .mergeOrInsert sourceId output.dataset source.ttlSeconds now f :: rest := by
  cases scope with
  | full => exact absurd rfl hscope
  | group group => exact ⟨_, _, rfl⟩
  | hosts hosts =>
    have hupdates : ¬ (scopedUpdates hosts output).isEmpty = true := by
      simpa [SyncScope.Writes] using hwrites
    exact ⟨_, _, if_neg hupdates⟩

/-- A scoped sync that writes at all first makes an entry like a full gather's,
and corrects it with its second operation. -/
theorem vacant_neverGathered_iff (cache : MemoryCache) (sourceId : String) (source : Source)
    (scope : SyncScope) (output : ConnectorOutput) (now : Nat)
    (hvacant : cache.get sourceId = none) (hscope : scope ≠ .full) :
    (∀ s, Runs.Reach SyncInProgress.step Runs.Any
        (.start cache sourceId source scope output now) s →
      ∀ entry, s.cache.get sourceId = some entry → NotGathered scope output now entry) ↔
      ¬ scope.Writes output := by
  constructor
  · intro h hwrites
    obtain ⟨f, rest, hfirst⟩ := syncWrites_first sourceId source now (cache.get sourceId).isSome
      hscope hwrites
    -- the state between the two operations
    have hreach : Runs.Reach SyncInProgress.step Runs.Any
        (.start cache sourceId source scope output now)
        { cache := cache.mergeOrInsert sourceId output.dataset source.ttlSeconds now f,
          todo := rest } := by
      rw [SyncInProgress.start, hfirst]
      exact Runs.Reach.start.step (l := CacheStep.write) trivial rfl
    have hentry := MemoryCache.get_mergeOrInsert cache sourceId sourceId output.dataset
      source.ttlSeconds now f
    rw [if_pos rfl, hvacant] at hentry
    have hcomplete := (h _ hreach _ hentry).incomplete
    cases hcomplete
  · intro hnothing s hreach entry hentry
    rw [SyncInProgress.start, syncWrites_nothing sourceId source now _ hnothing,
      SyncInProgress.reach_iff] at hreach
    obtain ⟨done, hdone, hcache⟩ := hreach
    obtain ⟨rfl, _⟩ := List.append_eq_nil_iff.mp hdone.symm
    rw [hcache, runWrites, List.foldl_nil, hvacant] at hentry
    cases hentry

/-- A host the origin gathered a hundred seconds ago, asked for at an instance
that has never synced the source. -/
def coldOutput : ConnectorOutput where
  dataset := { hostvars := (∅ : StrMap HostVars).insert "a" ∅ }
  ages := some { datasetAgeSeconds := 100, hostAges := (∅ : StrMap Nat).insert "a" 100 }

def coldSource : Source := { connectorType := .remote, ttlSeconds := 60 }

theorem cold_neverGathered_iff :
    (∀ s, Runs.Reach SyncInProgress.step Runs.Any
        (.start {} "edge" coldSource (.hosts ["a"]) coldOutput (fromSecs 1000)) s →
      ∀ entry, s.cache.get "edge" = some entry →
        NotGathered (.hosts ["a"]) coldOutput (fromSecs 1000) entry) ↔
      ¬ SyncScope.Writes (.hosts ["a"]) coldOutput :=
  vacant_neverGathered_iff {} "edge" coldSource (.hosts ["a"]) coldOutput (fromSecs 1000) rfl
    (by decide)

/-- Between the two operations the entry is complete and fresh, and its host
has just been gathered. -/
theorem cold_passesForGathered :
    ∃ s entry, Runs.Reach SyncInProgress.step Runs.Any
        (.start {} "edge" coldSource (.hosts ["a"]) coldOutput (fromSecs 1000)) s ∧
      s.cache.get "edge" = some entry ∧
      entry.isFresh (fromSecs 1000) = true ∧
      entry.hostAgeSeconds "a" (fromSecs 1000) = some 0 ∧
      ¬ NotGathered (.hosts ["a"]) coldOutput (fromSecs 1000) entry := by
  have hreach : Runs.Reach SyncInProgress.step Runs.Any
      (.start {} "edge" coldSource (.hosts ["a"]) coldOutput (fromSecs 1000)) _ :=
    Runs.Reach.start.step (l := CacheStep.write) trivial rfl
  refine ⟨_, .new coldOutput.dataset 60 (fromSecs 1000), hreach, by decide, by decide, by decide,
    ?_⟩
  intro h
  cases h.incomplete

end UnifiedApi
