import UnifiedApi.Cache.Persistence

/-! # Saving and loading again

Ages travel as whole seconds and limits are whole seconds, so an entry that is
saved and loaded at once answers every question about freshness as before, any
number of times. -/

namespace UnifiedApi
open Clock CacheEntry

namespace CacheEntry

theorem isFresh_eq_age {entry : CacheEntry} {secs : Nat} (h : entry.ttl = fromSecs secs)
    (now : Nat) : entry.isFresh now = (entry.complete && decide (entry.ageSeconds now < secs)) := by
  rw [isFresh, h, decide_eq_decide.mpr lt_fromSecs_iff, ageSeconds]

theorem isHostFresh_eq_age {entry : CacheEntry} {secs : Nat} (h : entry.ttl = fromSecs secs)
    (host : String) (ttlOverride : Option Nat) (now : Nat) :
    entry.isHostFresh host ttlOverride now =
      (entry.hostAgeSeconds host now).any fun age => decide (age < ttlOverride.getD secs) := by
  unfold isHostFresh hostAgeSeconds
  cases entry.hostTimestamps[host]? with
  | none => rfl
  | some timestamp =>
    cases ttlOverride <;> simp [h, lt_fromSecs_iff]

end CacheEntry

/-- Read by their two clocks, the entries tell the same of their data. -/
structure SameAges (now now' : Nat) (entry entry' : CacheEntry) : Prop where
  dataset : entry'.dataset = entry.dataset
  ttl : entry'.ttl = entry.ttl
  complete : entry'.complete = entry.complete
  age : entry'.ageSeconds now' = entry.ageSeconds now
  hostAge : ∀ host ∈ entry.dataset.hostvars,
    entry'.hostAgeSeconds host now' = entry.hostAgeSeconds host now

/-- The same dataset, TTL and complete flag, and the same verdicts for every
limit. -/
structure SameVerdicts (now now' : Nat) (entry entry' : CacheEntry) : Prop where
  dataset : entry'.dataset = entry.dataset
  ttl : entry'.ttl = entry.ttl
  complete : entry'.isComplete = entry.isComplete
  fresh : entry'.isFresh now' = entry.isFresh now
  freshWithin : ∀ secs, (entry'.setTtl secs).isFresh now' = (entry.setTtl secs).isFresh now
  hostFresh : ∀ host ∈ entry.dataset.hostvars, ∀ ttlOverride,
    entry'.isHostFresh host ttlOverride now' = entry.isHostFresh host ttlOverride now

/-- The clock can go back as far as the entry's ages. -/
structure Representable (now now' : Nat) (entry : CacheEntry) : Prop where
  age : fromSecs (entry.ageSeconds now) ≤ now'
  hostAge : ∀ host ∈ entry.dataset.hostvars, ∀ age, entry.hostAgeSeconds host now = some age →
    fromSecs age ≤ now'

/-- A process can represent the ages of what it has gathered itself. -/
theorem Representable.refl (now : Nat) (entry : CacheEntry) : Representable now now entry := by
  have hle : ∀ instant, fromSecs (asSecs (elapsed now instant)) ≤ now := by
    intro instant
    have hround := fromSecs_asSecs_le (elapsed now instant)
    unfold elapsed at hround ⊢
    omega
  refine ⟨hle _, fun host _ age hage => ?_⟩
  obtain ⟨instant, _, rfl⟩ := Option.map_eq_some_iff.mp hage
  exact hle instant

namespace SameAges

theorem refl (now : Nat) (entry : CacheEntry) : SameAges now now entry entry :=
  ⟨rfl, rfl, rfl, rfl, fun _ _ => rfl⟩

theorem trans {now now' now'' : Nat} {entry entry' entry'' : CacheEntry}
    (h : SameAges now now' entry entry') (h' : SameAges now' now'' entry' entry'') :
    SameAges now now'' entry entry'' := by
  refine ⟨h'.dataset.trans h.dataset, h'.ttl.trans h.ttl, h'.complete.trans h.complete,
    h'.age.trans h.age, fun host hhost => ?_⟩
  rw [h'.hostAge host (h.dataset ▸ hhost), h.hostAge host hhost]

theorem representable {now now' later : Nat} {entry entry' : CacheEntry}
    (h : SameAges now now' entry entry') (hrep : Representable now later entry) :
    Representable now' later entry' := by
  constructor
  · rw [h.age]
    exact hrep.age
  · intro host hhost age hage
    rw [h.dataset] at hhost
    rw [h.hostAge host hhost] at hage
    exact hrep.hostAge host hhost age hage

/-- Whole-second limits cannot tell the entries apart. -/
theorem sameVerdicts {now now' : Nat} {entry entry' : CacheEntry}
    (h : SameAges now now' entry entry') {secs : Nat} (httl : entry.ttl = fromSecs secs) :
    SameVerdicts now now' entry entry' := by
  have httl' : entry'.ttl = fromSecs secs := h.ttl.trans httl
  refine ⟨h.dataset, h.ttl, h.complete, ?_, fun limit => ?_, fun host hhost ttlOverride => ?_⟩
  · rw [isFresh_eq_age httl', isFresh_eq_age httl, h.complete, h.age]
  · have hcomplete : (entry'.setTtl limit).complete = (entry.setTtl limit).complete := h.complete
    have hage : (entry'.setTtl limit).ageSeconds now' = (entry.setTtl limit).ageSeconds now := h.age
    have hlimit : ∀ entry : CacheEntry, (entry.setTtl limit).ttl = fromSecs limit := fun _ => rfl
    rw [isFresh_eq_age (hlimit entry'), isFresh_eq_age (hlimit entry), hcomplete, hage]
  · rw [isHostFresh_eq_age httl', isHostFresh_eq_age httl, h.hostAge host hhost]

end SameAges

/-- One entry, saved and loaded at once. -/
theorem restoreEntry_sameAges {now now' : Nat} {entry : CacheEntry} {secs : Nat}
    (httl : entry.ttl = fromSecs secs) (hrep : Representable now now' entry) :
    SameAges now now' entry (restoreEntry (snapshotEntry entry now) now') := by
  refine ⟨?_, ?_, restoreEntry_complete entry now now', ?_, fun host hhost => ?_⟩
  · unfold restoreEntry
    dsimp only
    split <;> rfl
  · rw [restoreEntry_ttl entry now now' hrep.age, httl, asSecs_fromSecs]
  · rw [ageSeconds, restoreEntry_fetchedAt, backdated_of_le hrep.age, elapsed_sub hrep.age,
      asSecs_fromSecs]
  · obtain ⟨vars, hvars⟩ := (StrMap.mem_iff_exists _ _).mp hhost
    have htimestamp := restoreEntry_timestamp entry now now' host
    rw [hvars, Option.bind_some] at htimestamp
    unfold hostAgeSeconds at htimestamp ⊢
    rw [htimestamp]
    cases hold : entry.hostTimestamps[host]? with
    | none => rfl
    | some instant =>
      have hle : fromSecs (asSecs (elapsed now instant)) ≤ now' :=
        hrep.hostAge host hhost _ (by rw [hostAgeSeconds, hold, Option.map_some])
      rw [Option.map_some, Option.bind_some, checkedSub_of_le hle, Option.map_some,
        elapsed_sub hle, asSecs_fromSecs]

/-- Saved when the clock reads `now`, loaded at once by a process whose clock
reads the next number, and so on. -/
def reloads (path : String) (cache : MemoryCache) (now : Nat) : List Nat → MemoryCache
  | [] => cache
  | now' :: rest => reloads path (boot (save cache now) path now') now' rest

/-- What every key holds after a number of cycles. -/
theorem get_reloads (path : String) {cache : MemoryCache} {now : Nat} {nows : List Nat}
    (httl : ∀ key entry, cache.get key = some entry → ∃ secs, entry.ttl = fromSecs secs)
    (hrep : ∀ now' ∈ nows, ∀ key entry, cache.get key = some entry → Representable now now' entry)
    (key : String) :
    match cache.get key with
    | some entry => ∃ entry', (reloads path cache now nows).get key = some entry' ∧
        SameAges now (nows.getLastD now) entry entry'
    | none => (reloads path cache now nows).get key = none := by
  induction nows generalizing cache now with
  | nil =>
    cases hentry : cache.get key with
    | none => exact hentry
    | some entry => exact ⟨entry, hentry, .refl now entry⟩
  | cons now' rest ih =>
    have hboot := get_boot_save cache path now now'
    have hcycle : ∀ {key entry}, cache.get key = some entry →
        SameAges now now' entry (restoreEntry (snapshotEntry entry now) now') := by
      intro key entry hentry
      obtain ⟨secs, hsecs⟩ := httl key entry hentry
      exact restoreEntry_sameAges hsecs (hrep now' List.mem_cons_self key entry hentry)
    have hrest := @ih (boot (save cache now) path now') now' ?_ ?_
    · rw [hboot key] at hrest
      cases hentry : cache.get key with
      | none =>
        rw [hentry] at hrest
        exact hrest
      | some entry =>
        rw [hentry] at hrest
        obtain ⟨entry', hentry', hsame⟩ := hrest
        refine ⟨entry', hentry', ?_⟩
        rw [List.getLastD_cons]
        exact (hcycle hentry).trans hsame
    · intro key entry hentry
      rw [hboot key] at hentry
      obtain ⟨old, hold, rfl⟩ := Option.map_eq_some_iff.mp hentry
      obtain ⟨secs, hsecs⟩ := httl key old hold
      exact ⟨secs, (hcycle hold).ttl.trans hsecs⟩
    · intro later hlater key entry hentry
      rw [hboot key] at hentry
      obtain ⟨old, hold, rfl⟩ := Option.map_eq_some_iff.mp hentry
      exact (hcycle hold).representable (hrep later (List.mem_cons_of_mem _ hlater) key old hold)

/-- **A snapshot is faithful**: saved and loaded at once, any number of times,
a cache has the same keys, and every entry the same dataset, TTL, complete
flag and verdicts. -/
theorem reloads_sameVerdicts (path : String) (cache : MemoryCache) (now : Nat) (nows : List Nat)
    (httl : ∀ key entry, cache.get key = some entry → ∃ secs, entry.ttl = fromSecs secs)
    (hrep : ∀ now' ∈ nows, ∀ key entry, cache.get key = some entry →
      Representable now now' entry) :
    (∀ key, (reloads path cache now nows).get key = none ↔ cache.get key = none) ∧
    ∀ key entry, cache.get key = some entry →
      ∃ entry', (reloads path cache now nows).get key = some entry' ∧
        SameVerdicts now (nows.getLastD now) entry entry' := by
  have hget := get_reloads path httl hrep
  constructor
  · intro key
    have hkey := hget key
    cases hentry : cache.get key with
    | none => simpa [hentry] using hkey
    | some entry =>
      rw [hentry] at hkey
      obtain ⟨entry', hentry', _⟩ := hkey
      simp [hentry']
  · intro key entry hentry
    have hkey := hget key
    rw [hentry] at hkey
    obtain ⟨entry', hentry', hsame⟩ := hkey
    obtain ⟨secs, hsecs⟩ := httl key entry hentry
    exact ⟨entry', hentry', hsame.sameVerdicts hsecs⟩

/-- A partial entry with two hosts, one of them without a timestamp. -/
def unevenEntry : CacheEntry where
  dataset := { hostvars := ((∅ : StrMap HostVars).insert "a" ∅).insert "b" ∅ }
  fetchedAt := 700
  ttl := fromSecs 60
  hostTimestamps := (∅ : StrMap Nat).insert "a" 900
  complete := false

/-- Saved and loaded in one process, and then in one that has just started. -/
theorem unevenEntry_sameVerdicts :
    let cache := MemoryCache.set {} "src" unevenEntry
    let now := fromSecs 5 + 800
    ∃ entry', (reloads "cache.json" cache now [now, fromSecs 5]).get "src" = some entry' ∧
      SameVerdicts now (fromSecs 5) unevenEntry entry' := by
  intro cache now
  have hget : ∀ {key entry}, cache.get key = some entry → entry = unevenEntry := by
    intro key entry hentry
    rw [MemoryCache.get_set] at hentry
    split at hentry
    · exact (Option.some.inj hentry).symm
    · cases hentry
  have hsrc : cache.get "src" = some unevenEntry :=
    (MemoryCache.get_set {} "src" "src" unevenEntry).trans (if_pos rfl)
  have hyoung : Representable now (fromSecs 5) unevenEntry := by
    refine ⟨by decide, fun host _ age hage => ?_⟩
    obtain ⟨instant, hinstant, rfl⟩ := Option.map_eq_some_iff.mp hage
    have hround := fromSecs_asSecs_le (elapsed now instant)
    have hlate : 900 ≤ instant := by
      have hmem : (if "a" = host then some 900 else (∅ : StrMap Nat)[host]?) = some instant :=
        (StrMap.getElem?_insert ∅ "a" host 900).symm.trans hinstant
      split at hmem
      · exact (Option.some.inj hmem).le
      · rw [Std.ExtTreeMap.getElem?_empty] at hmem
        cases hmem
    simp only [elapsed, now] at hround ⊢
    omega
  refine (reloads_sameVerdicts "cache.json" cache now [now, fromSecs 5] ?_ ?_).2 "src" _ hsrc
  · intro key entry hentry
    rw [hget hentry]
    exact ⟨60, rfl⟩
  · intro now' hnow key entry hentry
    rw [hget hentry]
    rcases List.mem_cons.mp hnow with rfl | hnow
    · exact .refl now unevenEntry
    · obtain rfl := List.mem_singleton.mp hnow
      exact hyoung

end UnifiedApi
