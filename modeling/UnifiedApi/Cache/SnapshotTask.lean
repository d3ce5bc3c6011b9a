import UnifiedApi.Cache.Persistence
import UnifiedApi.Cache.Writes
import UnifiedApi.Lib.Runs

/-! # The periodic snapshot task

The task reads the generation, skips when nothing was written since the last
save, and otherwise exports the cache and replaces the file. The export passes
the keys in some order and locks no more than it is reading, so writes land
between any two of its steps; a write changes the store first and bumps the
generation after. The generation is 64 bits and wraps, so it is the number of
bumps, which the state keeps as history, that tells two of its values apart. -/

namespace UnifiedApi

/-- Where the task is. -/
inductive TaskPhase where
  /-- Waiting for the next tick. -/
  | idle
  /-- Exporting since it read `generation`, `since` bumps into the run: the keys
  already passed, and what they held when they were. -/
  | exporting (generation : UInt64) (since : Nat) (passed : String → Bool)
      (collected : StrMap CacheEntry)
  /-- Writing the temporary file. -/
  | writing (generation : UInt64) (since : Nat) (entries : StrMap SnapshotEntry)

structure SnapshotTask where
  cache : MemoryCache
  /-- Writes whose change has landed and whose bump has not. -/
  unbumped : Nat := 0
  file : SnapshotFile
  savedGeneration : UInt64
  phase : TaskPhase := .idle
  /-- History: the bumps so far. -/
  bumps : Nat := 0
  /-- History: the bumps there had been when the generation last saved was read. -/
  savedAt : Nat := 0

/-- One step of a writer or of the task. -/
inductive TaskEvent where
  | write (write : CacheWrite)
  | bump
  | tick
  /-- The export passes these keys, all of them at one instant. -/
  | pass (keys : String → Bool)
  /-- The export is over; the ages are taken. -/
  | exported (now : Nat)
  | saved
  | failed

namespace SnapshotTask

/-- The keys among `keys` that the export has yet to pass, as the store has
them. -/
def collect (store : StrMap CacheEntry) (keys passed : String → Bool)
    (collected : StrMap CacheEntry) : StrMap CacheEntry :=
  (store.filter fun key _ => keys key && !passed key).foldl
    (fun collected key entry => collected.insert key entry) collected

def step (s : SnapshotTask) : TaskEvent → Option SnapshotTask
  | .write write => match write.store s.cache with
    | some store => some { s with cache := { s.cache with store }, unbumped := s.unbumped + 1 }
    | none => some s
  | .bump =>
    if s.unbumped = 0 then none
    else some { s with
      cache := s.cache.bumpGeneration
      unbumped := s.unbumped - 1
      bumps := s.bumps + 1 }
  | .tick => match s.phase with
    | .idle =>
      if s.cache.generation = s.savedGeneration then some s
      else some { s with phase := .exporting s.cache.generation s.bumps (fun _ => false) ∅ }
    | _ => none
  | .pass keys => match s.phase with
    | .exporting generation since passed collected =>
      some { s with
        phase := .exporting generation since (fun key => passed key || keys key)
          (collect s.cache.store keys passed collected) }
    | _ => none
  | .exported now => match s.phase with
    | .exporting generation since passed collected =>
      if s.cache.keys.all passed then
        some { s with
          phase := .writing generation since
            (collected.map fun _ entry => snapshotEntry entry now) }
      else none
    | _ => none
  | .saved => match s.phase with
    | .writing generation since entries =>
      some { s with
        file := { version := snapshotVersion, entries }
        savedGeneration := generation
        savedAt := since
        phase := .idle }
    | _ => none
  | .failed => match s.phase with
    | .writing .. => some { s with phase := .idle }
    | _ => none

/-- A write whose bump follows at once is the whole operation. -/
theorem write_bump (s : SnapshotTask) (write : CacheWrite) {store : StrMap CacheEntry}
    (h : write.store s.cache = some store) :
    Runs.exec step s [.write write, .bump] =
      some { s with cache := write.run s.cache, bumps := s.bumps + 1 } := by
  simp [Runs.exec, step, h, write.run_eq, MemoryCache.bumpGeneration]

/-! ## What the file says of the cache -/

structure DescribesEntry (saved : SnapshotEntry) (entry : CacheEntry) : Prop where
  dataset : saved.dataset = entry.dataset
  ttl : saved.ttlSeconds = Clock.asSecs entry.ttl
  complete : saved.complete = entry.isComplete

/-- The same keys, with the same dataset, TTL and complete flag. -/
def Describes (entries : StrMap SnapshotEntry) (store : StrMap CacheEntry) : Prop :=
  ∀ key, Option.Rel DescribesEntry entries[(key : String)]? store[key]?

theorem snapshotEntry_describes (entry : CacheEntry) (now : Nat) :
    DescribesEntry (snapshotEntry entry now) entry := ⟨rfl, rfl, rfl⟩

theorem map_snapshotEntry_describes (store : StrMap CacheEntry) (now : Nat) :
    Describes (store.map fun _ entry => snapshotEntry entry now) store := by
  intro key
  rw [StrMap.getElem?_map]
  cases store[key]? with
  | none => exact .none
  | some entry => exact .some (snapshotEntry_describes entry now)

theorem getElem?_collect (store : StrMap CacheEntry) (keys passed : String → Bool)
    (collected : StrMap CacheEntry) (key : String) :
    (collect store keys passed collected)[key]? =
      if (keys key && !passed key) = true then store[key]?.or collected[key]?
      else collected[key]? := by
  unfold collect
  rw [StrMap.getElem?_insertAll, Std.ExtTreeMap.getElem?_filter']
  cases store[key]? with
  | none => simp
  | some entry => by_cases hkey : (keys key && !passed key) = true <;> simp [hkey]

/-! ## The generation tells when the file is out of date -/

/-- How many writes have landed, counted as the bumps will count them. -/
def landed (s : SnapshotTask) : Nat := s.bumps + s.unbumped

/-- Something taken after `since` bumps matches the store, unless a write has
landed since. -/
structure Tracks (landed since : Nat) (agrees : Prop) : Prop where
  le : since ≤ landed
  current : since = landed → agrees

theorem Tracks.imp {landed since : Nat} {agrees agrees' : Prop}
    (h : Tracks landed since agrees) (himp : agrees → agrees') : Tracks landed since agrees' :=
  ⟨h.le, fun hcurrent => himp (h.current hcurrent)⟩

/-- After a write nothing taken before it counts as current. -/
theorem Tracks.write {landed since : Nat} {agrees agrees' : Prop}
    (h : Tracks landed since agrees) : Tracks (landed + 1) since agrees' where
  le := Nat.le_succ_of_le h.le
  current hcurrent := absurd h.le (by omega)

/-- What the export has collected is what the store has of the keys passed. -/
def Collected (passed : String → Bool) (collected store : StrMap CacheEntry) : Prop :=
  ∀ key, collected[(key : String)]? = if passed key = true then store[key]? else none

def PhaseTracks (landed : Nat) (store : StrMap CacheEntry) : TaskPhase → Prop
  | .idle => True
  | .exporting _ since passed collected =>
    Tracks landed since (Collected passed collected store)
  | .writing _ since entries => Tracks landed since (Describes entries store)

/-- The generation after so many bumps from `origin`. -/
def generationAt (origin : UInt64) (bumps : Nat) : UInt64 := origin + UInt64.ofNat bumps

theorem generationAt_succ (origin : UInt64) (bumps : Nat) :
    generationAt origin (bumps + 1) = generationAt origin bumps + 1 := by
  rw [generationAt, generationAt, UInt64.ofNat_add, UInt64.add_assoc]
  rfl

/-- The generation tells numbers of bumps apart that are less than a full turn
apart. -/
theorem eq_of_generationAt_eq {origin : UInt64} {since bumps : Nat}
    (h : generationAt origin since = generationAt origin bumps) (hle : since ≤ bumps)
    (hturn : bumps < since + 2 ^ 64) : since = bumps := by
  have hmod : UInt64.ofNat since = UInt64.ofNat bumps := (UInt64.add_right_inj origin).mp h
  have hnat := congrArg UInt64.toNat hmod
  rw [UInt64.toNat_ofNat', UInt64.toNat_ofNat'] at hnat
  omega

/-- The generation that the phase has read. -/
def PhaseCounts (origin : UInt64) : TaskPhase → Prop
  | .idle => True
  | .exporting generation since _ _ | .writing generation since _ =>
    generation = generationAt origin since

structure Inv (origin : UInt64) (s : SnapshotTask) : Prop where
  file : Tracks s.landed s.savedAt (Describes s.file.entries s.cache.store)
  phase : PhaseTracks s.landed s.cache.store s.phase
  current : s.cache.generation = generationAt origin s.bumps
  saved : s.savedGeneration = generationAt origin s.savedAt
  read : PhaseCounts origin s.phase

theorem PhaseTracks.write {landed : Nat} {store : StrMap CacheEntry} {phase : TaskPhase}
    (h : PhaseTracks landed store phase) (store' : StrMap CacheEntry) :
    PhaseTracks (landed + 1) store' phase := by
  cases phase with
  | idle => trivial
  | exporting => exact Tracks.write h
  | writing => exact Tracks.write h

theorem collected_nothing (store : StrMap CacheEntry) : Collected (fun _ => false) ∅ store := by
  intro key
  simp

theorem Collected.pass {passed : String → Bool} {collected store : StrMap CacheEntry}
    (h : Collected passed collected store) (keys : String → Bool) :
    Collected (fun key => passed key || keys key) (collect store keys passed collected) store := by
  intro key
  have hkey := h key
  rw [getElem?_collect, hkey]
  cases hpassed : passed key <;> cases hkeys : keys key <;> simp [hpassed, hkeys]

/-- An export that has passed every key there is has the store. -/
theorem Collected.eq {passed : String → Bool} {collected store : StrMap CacheEntry}
    (h : Collected passed collected store) (hall : store.keys.all passed = true) :
    collected = store := by
  refine Std.ExtTreeMap.ext_getElem? fun key => ?_
  rw [h key]
  cases hentry : store[key]? with
  | none => simp
  | some entry =>
    have hpassed := List.all_eq_true.mp hall key
      (Std.ExtTreeMap.mem_keys.mpr (StrMap.mem_of_some hentry))
    rw [if_pos hpassed]

theorem step_inv {origin : UInt64} {s s' : SnapshotTask} {event : TaskEvent} (h : s.Inv origin)
    (hstep : s.step event = some s') : s'.Inv origin := by
  obtain ⟨hfile, hphase, hcurrent, hsaved, hread⟩ := h
  cases event with
  | write write =>
    simp only [step] at hstep
    split at hstep
    · rename_i store _
      obtain rfl := Option.some.inj hstep
      exact ⟨hfile.write, hphase.write store, hcurrent, hsaved, hread⟩
    · obtain rfl := Option.some.inj hstep
      exact ⟨hfile, hphase, hcurrent, hsaved, hread⟩
  | bump =>
    simp only [step] at hstep
    split at hstep
    · cases hstep
    · obtain rfl := Option.some.inj hstep
      have hlanded : s.landed = s.bumps + 1 + (s.unbumped - 1) := by
        rw [landed]
        omega
      rw [hlanded] at hfile hphase
      refine ⟨hfile, hphase, ?_, hsaved, hread⟩
      show s.cache.generation + 1 = _
      rw [hcurrent, generationAt_succ]
  | tick =>
    cases hidle : s.phase with
    | exporting | writing => simp [step, hidle] at hstep
    | idle =>
      simp only [step, hidle] at hstep
      split at hstep
      · obtain rfl := Option.some.inj hstep
        exact ⟨hfile, hphase, hcurrent, hsaved, hread⟩
      · obtain rfl := Option.some.inj hstep
        exact ⟨hfile, ⟨Nat.le_add_right _ _, fun _ => collected_nothing _⟩, hcurrent, hsaved,
          hcurrent⟩
  | pass keys =>
    cases hexport : s.phase with
    | idle | writing => simp [step, hexport] at hstep
    | exporting generation since passed collected =>
      simp only [step, hexport, Option.some.injEq] at hstep
      subst hstep
      rw [hexport] at hphase hread
      exact ⟨hfile, Tracks.imp hphase fun hcollected => hcollected.pass keys, hcurrent, hsaved,
        hread⟩
  | exported now =>
    cases hexport : s.phase with
    | idle | writing => simp [step, hexport] at hstep
    | exporting generation since passed collected =>
      simp only [step, hexport] at hstep
      split at hstep
      · rename_i hall
        obtain rfl := Option.some.inj hstep
        rw [hexport] at hphase hread
        refine ⟨hfile, Tracks.imp hphase fun hcollected => ?_, hcurrent, hsaved, hread⟩
        rw [hcollected.eq hall]
        exact map_snapshotEntry_describes _ now
      · cases hstep
  | saved =>
    cases hwriting : s.phase with
    | idle | exporting => simp [step, hwriting] at hstep
    | writing generation since entries =>
      simp only [step, hwriting, Option.some.injEq] at hstep
      subst hstep
      rw [hwriting] at hphase hread
      exact ⟨hphase, trivial, hcurrent, hread, trivial⟩
  | failed =>
    cases hwriting : s.phase with
    | idle | exporting => simp [step, hwriting] at hstep
    | writing generation since entries =>
      simp only [step, hwriting, Option.some.injEq] at hstep
      subst hstep
      exact ⟨hfile, trivial, hcurrent, hsaved, trivial⟩

/-- A task that starts on a cache its file describes. -/
structure Starts (s : SnapshotTask) : Prop where
  idle : s.phase = .idle
  generation : s.savedGeneration = s.cache.generation
  counted : s.savedAt = s.bumps
  file : Describes s.file.entries s.cache.store

theorem Starts.inv {s : SnapshotTask} (h : s.Starts) :
    s.Inv (s.cache.generation - UInt64.ofNat s.bumps) := by
  have hcurrent : s.cache.generation =
      generationAt (s.cache.generation - UInt64.ofNat s.bumps) s.bumps :=
    (UInt64.sub_add_cancel _ _).symm
  refine ⟨⟨h.counted ▸ Nat.le_add_right _ _, fun _ => h.file⟩, ?_, hcurrent, ?_, ?_⟩
  · rw [h.idle]
    trivial
  · rw [h.generation, h.counted]
    exact hcurrent
  · rw [h.idle]
    trivial

/-- Whatever lands during a save: while the generation is the one last saved, no
bump is outstanding and the counter has not made a full turn since that one was
read, the file describes the cache. -/
theorem saved_describes {start s : SnapshotTask} (hstart : start.Starts)
    (h : Runs.Reach step Runs.Any start s) (hgeneration : s.savedGeneration = s.cache.generation)
    (hbumped : s.unbumped = 0) (hturn : s.bumps < s.savedAt + 2 ^ 64) :
    Describes s.file.entries s.cache.store := by
  have hinv := h.invariant hstart.inv fun _ _ _ hinv _ hstep => step_inv hinv hstep
  have hle : s.savedAt ≤ s.bumps := by
    have hlanded := hinv.file.le
    rwa [landed, hbumped] at hlanded
  have hcounter := hinv.saved.symm.trans (hgeneration.trans hinv.current)
  refine hinv.file.current ?_
  rw [landed, hbumped]
  exact eq_of_generationAt_eq hcounter hle hturn

/-- An empty cache with nothing on disk. -/
def firstBoot : SnapshotTask where
  cache := {}
  file := { version := snapshotVersion, entries := ∅ }
  savedGeneration := 0

theorem firstBoot_starts : firstBoot.Starts := by
  refine ⟨rfl, rfl, rfl, fun key => ?_⟩
  simp [firstBoot, Option.rel_none_none]

/-- A second write lands after the export has passed its key, so the save
misses it and the next tick saves again. -/
def writeDuringSave : List TaskEvent :=
  [.write (.set "edge" (.new {} 60 0)), .bump, .tick, .pass fun _ => true,
    .write (.set "core" (.new {} 30 1)), .exported 2, .saved, .bump,
    .tick, .pass fun _ => true, .exported 3, .saved]

theorem writeDuringSave_describes :
    ∃ s, Runs.exec step firstBoot writeDuringSave = some s ∧
      s.savedGeneration = s.cache.generation ∧ s.unbumped = 0 ∧ s.bumps < s.savedAt + 2 ^ 64 ∧
      Describes s.file.entries s.cache.store := by
  have hrun : Runs.exec step firstBoot writeDuringSave = some _ := rfl
  exact ⟨_, hrun, rfl, rfl, by decide,
    saved_describes firstBoot_starts (Runs.Reach.start.of_exec hrun) rfl rfl (by decide)⟩

/-! ## A full turn of the counter -/

/-- What `n` writes of one entry, each followed by its bump, leave while the
task sleeps. -/
structure Rewritten (key : String) (entry : CacheEntry) (n : Nat) (s s' : SnapshotTask) :
    Prop where
  file : s'.file = s.file
  saved : s'.savedGeneration = s.savedGeneration
  unbumped : s'.unbumped = s.unbumped
  generation : s'.cache.generation = s.cache.generation + UInt64.ofNat n
  stored : 0 < n → s'.cache.store[key]? = some entry

theorem rewritten_reached {start s : SnapshotTask} (h : Runs.Reach step Runs.Any start s)
    (key : String) (entry : CacheEntry) (n : Nat) :
    ∃ s', Runs.Reach step Runs.Any start s' ∧ Rewritten key entry n s s' := by
  induction n with
  | zero =>
    exact ⟨s, h, rfl, rfl, rfl, (UInt64.add_zero _).symm, fun hpos => absurd hpos (by omega)⟩
  | succ n ih =>
    obtain ⟨mid, hmid, hrewritten⟩ := ih
    have hrun := write_bump mid (.set key entry) rfl
    refine ⟨_, hmid.of_exec hrun, hrewritten.file, hrewritten.saved, hrewritten.unbumped, ?_,
      fun _ => ?_⟩
    · show mid.cache.generation + 1 = _
      rw [hrewritten.generation, UInt64.ofNat_add, UInt64.add_assoc]
      rfl
    · exact (StrMap.getElem?_insert _ _ _ _).trans (if_pos rfl)

/-- After 2⁶⁴ writes the generation is the one last saved again, and the task
skips a cache that its file knows nothing of. -/
theorem fullTurn_undescribed :
    ¬ ∀ start s : SnapshotTask, start.Starts → Runs.Reach step Runs.Any start s →
      s.savedGeneration = s.cache.generation → s.unbumped = 0 →
      Describes s.file.entries s.cache.store := by
  intro hclaim
  have hboot : Runs.Reach step Runs.Any firstBoot firstBoot := .start
  obtain ⟨s, hreach, hwritten⟩ := rewritten_reached hboot "edge" (.new {} 60 0) (2 ^ 64)
  have hdescribes := hclaim firstBoot s firstBoot_starts hreach
    (by rw [hwritten.saved, hwritten.generation]; rfl) hwritten.unbumped "edge"
  rw [hwritten.stored (by decide), hwritten.file] at hdescribes
  cases hdescribes

end SnapshotTask

end UnifiedApi
