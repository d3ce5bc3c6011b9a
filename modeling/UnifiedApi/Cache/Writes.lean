import UnifiedApi.Cache.MemoryCache

/-! # Writes, seen from outside

A write changes the store and then bumps the generation. `update` does both
under the guard of the entry, so that nobody reads in between; the others bump
after the guard is gone. -/

namespace UnifiedApi

inductive CacheWrite where
  | set (key : String) (entry : CacheEntry)
  | update (key : String) (f : CacheEntry → CacheEntry)
  | mergeOrInsert (key : String) (dataset : Dataset) (ttlSeconds now : Nat)
      (f : CacheEntry → Dataset → CacheEntry)
  | remove (key : String)

namespace CacheWrite

/-- The whole operation. -/
def run (cache : MemoryCache) : CacheWrite → MemoryCache
  | set key entry => cache.set key entry
  | update key f => (cache.update key f).2
  | mergeOrInsert key dataset ttlSeconds now f => cache.mergeOrInsert key dataset ttlSeconds now f
  | remove key => cache.remove key

/-- The store after the change, if there is one. -/
def store (cache : MemoryCache) : CacheWrite → Option (StrMap CacheEntry)
  | set key entry => some (cache.store.insert key entry)
  | update key f => cache.store[key]?.map fun entry => cache.store.insert key (f entry)
  | mergeOrInsert key dataset ttlSeconds now f => some <| cache.store.insert key <|
      match cache.store[key]? with
      | some entry => f (entry.setTtl ttlSeconds) dataset
      | none => .new dataset ttlSeconds now
  | remove key => cache.store[key]?.map fun _ => cache.store.erase key

/-- The key it changes. -/
def key : CacheWrite → String
  | set key _ | update key _ | mergeOrInsert key .. | remove key => key

/-- The bump happens before the guard is gone. -/
def guarded : CacheWrite → Bool
  | update .. => true
  | _ => false

/-- An operation is its change followed by a bump, or nothing. -/
theorem run_eq (cache : MemoryCache) (write : CacheWrite) :
    write.run cache = match write.store cache with
      | some store => { cache with store }.bumpGeneration
      | none => cache := by
  cases write with
  | set key entry => rfl
  | update key f =>
    show (cache.update key f).2 = _
    rw [MemoryCache.update, store]
    cases cache.store[key]? <;> rfl
  | mergeOrInsert key dataset ttlSeconds now f =>
    show cache.mergeOrInsert key dataset ttlSeconds now f = _
    rw [MemoryCache.mergeOrInsert, store]
    cases cache.store[key]? <;> rfl
  | remove key =>
    show cache.remove key = _
    rw [MemoryCache.remove, store]
    cases cache.store[key]? <;> rfl

theorem run_of_store {cache : MemoryCache} {write : CacheWrite} {store : StrMap CacheEntry}
    (h : write.store cache = some store) : (write.run cache).store = store := by
  rw [run_eq, h]
  rfl

/-- A write changes nothing but its key. -/
theorem store_of_ne {cache : MemoryCache} {write : CacheWrite} {store : StrMap CacheEntry}
    {other : String} (h : write.store cache = some store) (hne : other ≠ write.key) :
    store[other]? = cache.store[other]? := by
  cases write with
  | set key entry =>
    obtain rfl := Option.some.inj h
    exact (StrMap.getElem?_insert _ _ _ _).trans (if_neg (Ne.symm hne))
  | update key f =>
    obtain ⟨entry, _, rfl⟩ := Option.map_eq_some_iff.mp h
    exact (StrMap.getElem?_insert _ _ _ _).trans (if_neg (Ne.symm hne))
  | mergeOrInsert key dataset ttlSeconds now f =>
    obtain rfl := Option.some.inj h
    exact (StrMap.getElem?_insert _ _ _ _).trans (if_neg (Ne.symm hne))
  | remove key =>
    obtain ⟨entry, _, rfl⟩ := Option.map_eq_some_iff.mp h
    exact (StrMap.getElem?_erase _ _ _).trans (if_neg (Ne.symm hne))

theorem get_run_of_ne {write : CacheWrite} {other : String} (h : other ≠ write.key)
    (cache : MemoryCache) : (write.run cache).get other = cache.get other := by
  rw [run_eq]
  cases hstore : write.store cache with
  | none => rfl
  | some store => exact store_of_ne hstore h

end CacheWrite

end UnifiedApi
