import UnifiedApi.Domain.CacheEntry

/-! # The in-memory cache

The store and its generation counter, which wraps. Each operation is one atomic
change of the store followed by a bump; `update` and `remove` bump only when
the key was there. -/

namespace UnifiedApi

structure MemoryCache where
  store : StrMap CacheEntry := ∅
  generation : UInt64 := 0
  deriving DecidableEq

namespace MemoryCache

def bumpGeneration (cache : MemoryCache) : MemoryCache :=
  { cache with generation := cache.generation + 1 }

def set (cache : MemoryCache) (key : String) (entry : CacheEntry) : MemoryCache :=
  { cache with store := cache.store.insert key entry }.bumpGeneration

def get (cache : MemoryCache) (key : String) : Option CacheEntry := cache.store[key]?

def remove (cache : MemoryCache) (key : String) : MemoryCache :=
  match cache.store[key]? with
  | some _ => { cache with store := cache.store.erase key }.bumpGeneration
  | none => cache

def keys (cache : MemoryCache) : List String := cache.store.keys

/-- Whether the key existed, and the cache with `f` run on the live entry. -/
def update (cache : MemoryCache) (key : String) (f : CacheEntry → CacheEntry) :
    Bool × MemoryCache :=
  match cache.store[key]? with
  | some entry => (true, { cache with store := cache.store.insert key (f entry) }.bumpGeneration)
  | none => (false, cache)

/-- `f` runs on an existing entry that has first adopted the configured TTL;
a vacant key gets `CacheEntry.new` and `f` does not run. -/
def mergeOrInsert (cache : MemoryCache) (key : String) (dataset : Dataset) (ttlSeconds now : Nat)
    (f : CacheEntry → Dataset → CacheEntry) : MemoryCache :=
  match cache.store[key]? with
  | some entry =>
    { cache with
      store := cache.store.insert key (f (entry.setTtl ttlSeconds) dataset) }.bumpGeneration
  | none =>
    { cache with store := cache.store.insert key (.new dataset ttlSeconds now) }.bumpGeneration

variable (cache : MemoryCache) (key other : String)

theorem get_set (entry : CacheEntry) :
    (cache.set key entry).get other = if key = other then some entry else cache.get other :=
  StrMap.getElem?_insert cache.store key other entry

theorem get_remove :
    (cache.remove key).get other = if key = other then none else cache.get other := by
  unfold remove get
  cases h : cache.store[key]? with
  | some entry => exact StrMap.getElem?_erase cache.store key other
  | none =>
    by_cases hk : key = other
    · simp [← hk, h]
    · simp [hk]

theorem get_update (f : CacheEntry → CacheEntry) :
    (cache.update key f).2.get other =
      if key = other then (cache.get key).map f else cache.get other := by
  unfold update get
  cases h : cache.store[key]? with
  | some entry => exact StrMap.getElem?_insert cache.store key other (f entry)
  | none =>
    by_cases hk : key = other
    · simp [← hk, h]
    · simp [hk]

theorem get_mergeOrInsert (dataset : Dataset) (ttlSeconds now : Nat)
    (f : CacheEntry → Dataset → CacheEntry) :
    (cache.mergeOrInsert key dataset ttlSeconds now f).get other =
      if key = other then
        some (match cache.get key with
          | some entry => f (entry.setTtl ttlSeconds) dataset
          | none => .new dataset ttlSeconds now)
      else cache.get other := by
  unfold mergeOrInsert get
  cases h : cache.store[key]? with
  | some entry => exact StrMap.getElem?_insert cache.store key other _
  | none => exact StrMap.getElem?_insert cache.store key other _

end MemoryCache

end UnifiedApi
