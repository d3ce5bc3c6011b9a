import UnifiedApi.Adapters.Http.ConditionalReads
import UnifiedApi.Application.Instance
import UnifiedApi.Application.ScopedCreation
import UnifiedApi.Lib.SharedCell

/-! # Plain reads and the buffer they share

A read of a source without parameters answers with the entry's dataset as JSON,
which the first such read of a version builds and every later one shares,
through a cell that the clones of the entry have in common. A method that
changes the dataset gives its entry a fresh cell. -/

namespace UnifiedApi
open CacheEntry SharedCell

/-! ## The cell of an entry -/

structure SerializedJson where
  bytes : List UInt8
  etag : String
  deriving DecidableEq

/-- The methods that call `invalidate_serialized`. -/
def EntryOp.invalidatesSerialized : EntryOp → Bool
  | .setTtl _ | .markPartial | .markGathered _ => false
  | .updateHostAged .. | .restoreHost .. | .setHostGroups .. | .mergeHostvarFields _
  | .mergeGroupVarFields _ | .mergeDataset .. | .mergeEnrichment .. | .removeHost _
  | .updateGroup .. => true

/-- The others leave the dataset alone. -/
theorem EntryOp.apply_dataset {op : EntryOp} (h : op.invalidatesSerialized = false)
    (entry : CacheEntry) : (op.apply entry).dataset = entry.dataset := by
  cases op with
  | setTtl _ => rfl
  | markPartial => rfl
  | markGathered _ => rfl
  | _ => cases h

/-- What a closure does to the entry it is handed: it may put a new one in its
place, and then calls methods, each chosen by the entry as it is by then. -/
structure EntryChange where
  build : Option EntryBuild := none
  calls : List (CacheEntry → Option EntryOp) := []

namespace EntryChange

/-- One call: the entry, and whether its cell is a fresh one by now. -/
def call (state : CacheEntry × Bool) (choose : CacheEntry → Option EntryOp) : CacheEntry × Bool :=
  match choose state.1 with
  | some op => (op.apply state.1, state.2 || op.invalidatesSerialized)
  | none => state

def run (change : EntryChange) (entry : CacheEntry) : CacheEntry × Bool :=
  change.calls.foldl call ((change.build.map EntryBuild.entry).getD entry, change.build.isSome)

/-- Calls of the given methods in turn. -/
def ofOps (ops : List EntryOp) : EntryChange where
  calls := ops.map fun op _ => some op

/-- As long as the cell is the old one, so is the dataset. -/
theorem foldl_call_dataset (calls : List (CacheEntry → Option EntryOp)) (state : CacheEntry × Bool)
    (h : (calls.foldl call state).2 = false) :
    state.2 = false ∧ (calls.foldl call state).1.dataset = state.1.dataset := by
  induction calls generalizing state with
  | nil => exact ⟨h, rfl⟩
  | cons choose calls ih =>
    obtain ⟨hstate, hdataset⟩ := ih (call state choose) h
    rw [List.foldl_cons, hdataset]
    unfold call at hstate ⊢
    cases hop : choose state.1 with
    | none =>
      rw [hop] at hstate
      exact ⟨hstate, rfl⟩
    | some op =>
      rw [hop] at hstate
      obtain ⟨hold, hop⟩ := Bool.or_eq_false_iff.mp hstate
      exact ⟨hold, EntryOp.apply_dataset hop state.1⟩

theorem run_dataset {change : EntryChange} {entry : CacheEntry} (h : (change.run entry).2 = false) :
    (change.run entry).1.dataset = entry.dataset := by
  obtain ⟨hbuild, hdataset⟩ := foldl_call_dataset _ _ h
  refine hdataset.trans ?_
  cases hnone : change.build with
  | none => rfl
  | some build =>
    rw [hnone] at hbuild
    cases hbuild

theorem ofOps_run (ops : List EntryOp) (entry : CacheEntry) :
    ((ofOps ops).run entry).1 = ops.foldl EntryOp.apply entry := by
  have hloop : ∀ state : CacheEntry × Bool,
      ((ops.map fun op (_ : CacheEntry) => some op).foldl call state).1 =
        ops.foldl EntryOp.apply state.1 := by
    intro state
    induction ops generalizing state with
    | nil => rfl
    | cons op ops ih => exact ih _
  exact hloop _

end EntryChange

/-! ## Writes, and the cells they renew -/

/-- A write of the cache, as the methods that its closure calls. -/
inductive EntryWrite where
  | set (key : String) (build : EntryBuild) (calls : List (CacheEntry → Option EntryOp))
  | update (key : String) (change : CacheEntry → EntryChange)
  | mergeOrInsert (key : String) (dataset : Dataset) (ttlSeconds now : Nat)
      (change : CacheEntry → Dataset → EntryChange)
  | remove (key : String)

namespace EntryWrite

/-- What it does to the cache. -/
def write : EntryWrite → CacheWrite
  | set key build calls => .set key (EntryChange.run ⟨some build, calls⟩ build.entry).1
  | update key change => .update key fun entry => ((change entry).run entry).1
  | mergeOrInsert key dataset ttlSeconds now change =>
    .mergeOrInsert key dataset ttlSeconds now fun entry new => ((change entry new).run entry).1
  | remove key => .remove key

/-- Whether it leaves an entry with a fresh cell. -/
def renews (cache : MemoryCache) : EntryWrite → Bool
  | set .. => true
  | update key change => (cache.get key).any fun entry => ((change entry).run entry).2
  | mergeOrInsert key dataset ttlSeconds _ change => match cache.get key with
    | some entry => ((change (entry.setTtl ttlSeconds) dataset).run (entry.setTtl ttlSeconds)).2
    | none => true
  | remove _ => false

def key (w : EntryWrite) : String := w.write.key

/-- What is in the cache afterwards under another key was there before. -/
theorem get_of_ne {cache : MemoryCache} {w : EntryWrite} {other : String} (h : other ≠ w.key) :
    (w.write.run cache).get other = cache.get other :=
  CacheWrite.get_run_of_ne h cache

/-- **A write that keeps the cell keeps the dataset.** -/
theorem get_dataset {cache : MemoryCache} {w : EntryWrite} {entry : CacheEntry}
    (h : (w.write.run cache).get w.key = some entry) (hkept : w.renews cache = false) :
    ∃ old, cache.get w.key = some old ∧ entry.dataset = old.dataset := by
  cases w with
  | set key build calls => cases hkept
  | update key change =>
    have hget := MemoryCache.get_update cache key key fun entry => ((change entry).run entry).1
    rw [if_pos rfl] at hget
    obtain ⟨old, hold, rfl⟩ := Option.map_eq_some_iff.mp (hget.symm.trans h)
    have hkept' : (cache.get key).any (fun entry => ((change entry).run entry).2) = false := hkept
    rw [hold] at hkept'
    exact ⟨old, hold, EntryChange.run_dataset hkept'⟩
  | mergeOrInsert key dataset ttlSeconds now change =>
    have hget := MemoryCache.get_mergeOrInsert cache key key dataset ttlSeconds now
      fun entry new => ((change entry new).run entry).1
    rw [if_pos rfl] at hget
    have hentry := Option.some.inj (hget.symm.trans h)
    simp only [renews] at hkept
    cases hold : cache.get key with
    | none =>
      rw [hold] at hkept
      cases hkept
    | some old =>
      rw [hold] at hkept hentry
      refine ⟨old, hold, ?_⟩
      rw [← hentry]
      have hsame := EntryChange.run_dataset hkept
      exact hsame
  | remove key =>
    have hget := MemoryCache.get_remove cache key key
    rw [if_pos rfl] at hget
    exact nomatch hget.symm.trans h

end EntryWrite

/-! ## The writes of an instance are of this kind -/

/-- The entry that a full gather stands for, before anything is put back. -/
def gatheredBuild (ttlSeconds : Nat) (dataset : Dataset) (ages : Option DatasetAges) (now : Nat) :
    EntryBuild :=
  match ages with
  | some ages => .restore dataset ttlSeconds ages.datasetAgeSeconds ages.hostAges now
  | none => .new dataset ttlSeconds now

theorem gatheredBuild_entry (ttlSeconds : Nat) (dataset : Dataset) (ages : Option DatasetAges)
    (now : Nat) :
    (gatheredBuild ttlSeconds dataset ages now).entry =
      gatheredEntry ttlSeconds dataset ages now := by
  cases ages <;> rfl

/-- The methods that a host-scoped sync calls on an entry that was there. -/
def patchOps (source : Source) (hosts : List String) (output : ConnectorOutput) (now : Nat) :
    List EntryOp :=
  let updates := scopedUpdates hosts output
  let memberships := scopedMemberships updates output.dataset
  updates.map (fun update => .updateHostAged update.1 update.2.1 update.2.2 now) ++
    memberships.map (fun membership => .setHostGroups membership.1 membership.2) ++
    if source.hostSyncUpdatesGroupVars then
      [.mergeGroupVarFields (scopedGroupVars memberships output.dataset)]
    else []

theorem patchOps_apply (source : Source) (hosts : List String) (output : ConnectorOutput)
    (now : Nat) (entry : CacheEntry) :
    (patchOps source hosts output now).foldl EntryOp.apply entry =
      patchHosts source hosts output now entry := by
  unfold patchOps patchHosts updateHosts
  simp only [List.foldl_append, List.foldl_map]
  split <;> rfl

/-- Correcting an age takes the variables as the entry has them by then. -/
def correctCalls (hosts : List String) (output : ConnectorOutput) (now : Nat) :
    List (CacheEntry → Option EntryOp) :=
  (scopedUpdates hosts output).map (fun update entry => entry.dataset.hostvars[update.1]?.map
    fun vars => .updateHostAged update.1 vars update.2.2 now) ++ [fun _ => some .markPartial]

theorem correctCalls_run (hosts : List String) (output : ConnectorOutput) (now : Nat)
    (entry : CacheEntry) :
    (EntryChange.run ⟨none, correctCalls hosts output now⟩ entry).1 =
      correctCreated hosts output now entry := by
  have hloop : ∀ (updates : List (String × HostVars × Nat)) (state : CacheEntry × Bool),
      ((updates.map fun update (entry : CacheEntry) => entry.dataset.hostvars[update.1]?.map
        fun vars => EntryOp.updateHostAged update.1 vars update.2.2 now).foldl
          EntryChange.call state).1 = correctAges updates now state.1 := by
    intro updates
    induction updates with
    | nil => exact fun _ => rfl
    | cons update updates ih =>
      intro state
      rw [List.map_cons, List.foldl_cons, ih, correctAges, correctAges, List.foldl_cons]
      congr 1
      simp only [EntryChange.call]
      cases state.1.dataset.hostvars[update.1]? <;> rfl
  unfold EntryChange.run correctCalls correctCreated
  rw [List.foldl_append, ← hloop _ (entry, false)]
  rfl

/-- What a replace puts in the place of the entry it finds. -/
def replaceChange (ttlSeconds : Nat) (output : ConnectorOutput) (now : Nat) (entry : CacheEntry)
    (dataset : Dataset) : EntryChange where
  build := some (gatheredBuild ttlSeconds dataset output.ages now)
  calls := (retainedHosts output.unreachable dataset now entry).map fun host _ =>
    some (.restoreHost host now)

theorem replaceChange_run (ttlSeconds : Nat) (output : ConnectorOutput) (now : Nat)
    (entry : CacheEntry) (dataset : Dataset) :
    ((replaceChange ttlSeconds output now entry dataset).run entry).1 =
      replaceKeeping ttlSeconds output now entry dataset := by
  have hloop : ∀ (hosts : List RetainedHost) (state : CacheEntry × Bool),
      ((hosts.map fun host (_ : CacheEntry) => some (EntryOp.restoreHost host now)).foldl
        EntryChange.call state).1 =
          hosts.foldl (fun entry host => entry.restoreHost host now) state.1 := by
    intro hosts
    induction hosts with
    | nil => exact fun _ => rfl
    | cons host hosts ih => exact fun state => ih _
  unfold replaceKeeping
  rw [← gatheredBuild_entry]
  exact hloop _ _

/-- The operations of a sync, as writes of this kind. -/
def syncEntryWrites (cache : MemoryCache) (sourceId : String) (source : Source) (scope : SyncScope)
    (output : ConnectorOutput) (now : Nat) : List EntryWrite :=
  let ttl := source.ttlSeconds
  let occupied := (cache.get sourceId).isSome
  match scope with
  | .hosts hosts =>
    if (scopedUpdates hosts output).isEmpty then []
    else .mergeOrInsert sourceId output.dataset ttl now
        (fun _ _ => .ofOps (patchOps source hosts output now)) ::
      if occupied then [] else [.update sourceId fun _ => ⟨none, correctCalls hosts output now⟩]
  | .group group => .mergeOrInsert sourceId output.dataset ttl now
        (fun _ new => .ofOps [.updateGroup group new now]) ::
      if occupied then [] else [.update sourceId fun _ => .ofOps [.markPartial]]
  | .full => match source.syncMode with
    | .replace =>
      if output.unreachable.isEmpty then
        [.set sourceId (gatheredBuild ttl output.dataset output.ages now) []]
      else [.mergeOrInsert sourceId output.dataset ttl now (replaceChange ttl output now)]
    | .merge => [.mergeOrInsert sourceId output.dataset ttl now
        fun _ new => .ofOps [.mergeDataset new now, .markGathered now]]

/-- The writes that a loaded snapshot comes to. -/
def bootWrites (file : SnapshotFile) (now : Nat) : List EntryWrite :=
  if file.version ≠ snapshotVersion then []
  else file.entries.toList.map fun (key, saved) =>
    .set key (.restore saved.dataset saved.ttlSeconds saved.ageSeconds saved.hostAges now)
      (if saved.complete then [] else [fun _ => some .markPartial])

def CacheOp.entryWrites (now : Nat) (inst : Instance) : CacheOp → List EntryWrite
  | .sync sourceId source scope output =>
    syncEntryWrites inst.cache sourceId source scope output now
  | .putHost sourceId hostname vars =>
    [.update sourceId fun _ => .ofOps [.updateHostAged hostname vars 0 now]]
  | .deleteHost sourceId hostname => [.update sourceId fun entry =>
      .ofOps (if entry.dataset.hostvars.contains hostname then [.removeHost hostname] else [])]
  | .mergeDeclared targetId part => [.update targetId fun _ => .ofOps
      [.mergeGroupVarFields { groups := part.groups },
        .mergeHostvarFields { hostvars := part.hostvars }]]
  | .mergeAnswer targetId answer => [.update targetId fun _ => .ofOps [.mergeEnrichment answer now]]
  | .remove sourceId => [.remove sourceId]
  | .snapshot => []
  | .restart _ => bootWrites inst.disk now

/-- What the writes of an operation start from: a process that restarts has
nothing in its cache. -/
def CacheOp.startsFrom (inst : Instance) : CacheOp → MemoryCache
  | .restart _ => {}
  | _ => inst.cache

def runEntryWrites (cache : MemoryCache) (writes : List EntryWrite) : MemoryCache :=
  runWrites cache (writes.map EntryWrite.write)

theorem syncEntryWrites_write (cache : MemoryCache) (sourceId : String) (source : Source)
    (scope : SyncScope) (output : ConnectorOutput) (now : Nat) :
    (syncEntryWrites cache sourceId source scope output now).map EntryWrite.write =
      syncWrites sourceId source scope output now (cache.get sourceId).isSome := by
  unfold syncEntryWrites syncWrites
  cases scope with
  | hosts hosts =>
    dsimp only
    by_cases hempty : (scopedUpdates hosts output).isEmpty = true
    · rw [if_pos hempty, if_pos hempty]
      rfl
    · rw [if_neg hempty, if_neg hempty]
      have hmerged : (fun entry (_ : Dataset) =>
          ((EntryChange.ofOps (patchOps source hosts output now)).run entry).1) =
            fun entry _ => patchHosts source hosts output now entry := by
        funext entry _
        rw [EntryChange.ofOps_run, patchOps_apply]
      have hcorrected : (fun entry => (EntryChange.run ⟨none, correctCalls hosts output now⟩
          entry).1) = correctCreated hosts output now :=
        funext (correctCalls_run hosts output now)
      cases (cache.get sourceId).isSome <;>
        simp [EntryWrite.write, hmerged, hcorrected]
  | group group =>
    cases (cache.get sourceId).isSome <;> rfl
  | full =>
    cases source.syncMode with
    | replace =>
      dsimp only
      by_cases hreached : output.unreachable.isEmpty = true
      · rw [if_pos hreached, if_pos hreached, ← gatheredBuild_entry]
        rfl
      · rw [if_neg hreached, if_neg hreached]
        have hreplace : (fun entry new =>
            ((replaceChange source.ttlSeconds output now entry new).run
            entry).1) = replaceKeeping source.ttlSeconds output now := by
          funext entry new
          exact replaceChange_run source.ttlSeconds output now entry new
        simp [EntryWrite.write, hreplace]
    | merge => rfl

theorem runEntryWrites_bootWrites (file : SnapshotFile) (path : String) (now : Nat) :
    runEntryWrites {} (bootWrites file now) = boot file path now := by
  unfold bootWrites boot load
  split
  · rfl
  · show _ = loadEntries file.entries now {}
    unfold runEntryWrites runWrites loadEntries
    rw [List.foldl_map, List.foldl_map, Std.ExtTreeMap.foldl_eq_foldl_toList]
    congr 1
    funext cache ⟨key, saved⟩
    show cache.set key _ = cache.set key _
    congr 1
    unfold restoreEntry
    cases saved.complete <;> rfl

/-- **Every operation of an instance is such writes.** -/
theorem CacheOp.runEntryWrites_entryWrites (now : Nat) (inst : Instance) (op : CacheOp) :
    runEntryWrites (op.startsFrom inst) (op.entryWrites now inst) = (op.apply now inst).cache := by
  cases op with
  | sync sourceId source scope output =>
    show runWrites inst.cache ((syncEntryWrites inst.cache sourceId source scope output now).map
      EntryWrite.write) = _
    rw [syncEntryWrites_write]
    exact runWrites_syncWrites ..
  | putHost sourceId hostname vars => rfl
  | deleteHost sourceId hostname =>
    show (inst.cache.update sourceId _).2 = (inst.cache.update sourceId _).2
    congr 2
    funext entry
    refine (EntryChange.ofOps_run _ entry).trans ?_
    unfold removeHostIfPresent
    split <;> rfl
  | mergeDeclared targetId part => rfl
  | mergeAnswer targetId answer => rfl
  | remove sourceId => rfl
  | snapshot => rfl
  | restart path => exact runEntryWrites_bootWrites inst.disk path now

/-! ## Plain reads in flight -/

def ApiError.internal (message : String) : ApiError := ⟨500, message⟩

/-- Sixteen hexadecimal digits of a hash of the bytes, and how many there are. -/
def contentEtag (hash : List UInt8 → UInt64) (bytes : List UInt8) : String :=
  "\"" ++ String.ofList ((Nat.toDigits 16 (hash bytes).toNat).leftpad 16 '0') ++ "-" ++
    toString bytes.length ++ "\""

/-- A request that has its clone of the entry, of which it reads the dataset
and the cell. -/
structure PlainRead where
  /-- Who asked, where that matters. -/
  client : Option Nat
  key : String
  ifNoneMatch : Option String
  dataset : Dataset
  cell : Nat
  /-- What it built itself, and has yet to put into the cell. -/
  built : Option SerializedJson := none

structure PlainAnswer where
  read : PlainRead
  json : Except ApiError SerializedJson

/-- An answer that is a 304. -/
def PlainAnswer.notModified (answer : PlainAnswer) : Bool :=
  match answer.json with
  | .ok json => ifNoneMatch answer.read.ifNoneMatch json.etag
  | .error _ => false

structure PlainState where
  cache : MemoryCache := {}
  /-- The cell of the entry under each key. -/
  cellOf : String → Nat := fun _ => 0
  cells : Cells SerializedJson := {}
  reads : List PlainRead := []
  answered : List PlainAnswer := []

inductive PlainEvent (Layout : Type) where
  | write (w : EntryWrite)
  /-- The entry is cloned; a source without one is a 404, which is no answer here. -/
  | take (client : Option Nat) (key : String) (ifNoneMatch : Option String)
  /-- The cell is looked at, and what it lacks is built, in the order in which
  the dataset's maps lie in memory. -/
  | look (i : Nat) (layout : Layout)
  /-- What was built is put into the cell, and answered from there. -/
  | store (i : Nat)
  | drop (i : Nat)
  | restart

namespace PlainState

variable {Layout : Type} (toVec : Layout → Dataset → Except String (List UInt8))
  (hash : List UInt8 → UInt64)

def serialize (layout : Layout) (dataset : Dataset) : Except ApiError SerializedJson :=
  match toVec layout dataset with
  | .ok bytes => .ok ⟨bytes, contentEtag hash bytes⟩
  | .error e => .error (.internal ("failed to serialize dataset: " ++ e))

def answer (s : PlainState) (i : Nat) (read : PlainRead) (json : Except ApiError SerializedJson) :
    PlainState :=
  { s with reads := s.reads.eraseIdx i, answered := ⟨read, json⟩ :: s.answered }

def afterWrite (s : PlainState) (w : EntryWrite) : PlainState :=
  if w.renews s.cache then
    { s with
      cache := w.write.run s.cache
      cellOf := Function.update s.cellOf w.key s.cells.next
      cells := s.cells.fresh }
  else { s with cache := w.write.run s.cache }

/-- `serialized_json`, up to the point where it puts what it built into the cell. -/
def afterLook (s : PlainState) (i : Nat) (read : PlainRead) (layout : Layout) : PlainState :=
  match s.cells.content read.cell with
  | some json => s.answer i read (.ok json)
  | none => match serialize toVec hash layout read.dataset with
    | .ok json => { s with reads := s.reads.set i { read with built := some json } }
    | .error e => s.answer i read (.error e)

/-- The rest of it: `set` may come too late, and `get` then has the other's. -/
def afterStore (s : PlainState) (i : Nat) (read : PlainRead) (json : SerializedJson) : PlainState :=
  let s := { s with cells := s.cells.fill read.cell json }
  s.answer i read (.ok ((s.cells.content read.cell).getD json))

def step (s : PlainState) : PlainEvent Layout → Option PlainState
  | .write w => some (s.afterWrite w)
  | .take client key ifNoneMatch => (s.cache.get key).map fun entry =>
    { s with reads := s.reads ++ [⟨client, key, ifNoneMatch, entry.dataset, s.cellOf key, none⟩] }
  | .look i layout => match s.reads[i]? with
    | some read => if read.built.isSome then none else some (s.afterLook toVec hash i read layout)
    | none => none
  | .store i => s.reads[i]?.bind fun read => read.built.map (s.afterStore i read)
  | .drop i => s.reads[i]?.map fun _ => { s with reads := s.reads.eraseIdx i }
  | .restart => some { s with cache := {}, reads := [] }

/-- `serialized_len` of the entry under the key. -/
def serializedLen (s : PlainState) (key : String) : Option Nat :=
  (s.cells.content (s.cellOf key)).map (·.bytes.length)

/-! ## What the cells hold -/

/-- The clones of datasets that are about, with their cells: in the cache, and
in the hands of requests. -/
def Live (s : PlainState) (dataset : Dataset) (cell : Nat) : Prop :=
  (∃ key entry, s.cache.get key = some entry ∧ entry.dataset = dataset ∧ s.cellOf key = cell) ∨
    ∃ read ∈ s.reads, read.dataset = dataset ∧ read.cell = cell

def Serialized (dataset : Dataset) (json : SerializedJson) : Prop :=
  ∃ layout, serialize toVec hash layout dataset = .ok json

/-- An answer with a body is in its cell and was built from its dataset. -/
def Served (s : PlainState) (answer : PlainAnswer) : Prop :=
  match answer.json with
  | .ok json => s.cells.content answer.read.cell = some json ∧
      Serialized toVec hash answer.read.dataset json
  | .error e => ∃ layout, serialize toVec hash layout answer.read.dataset = .error e

structure Inv (s : PlainState) : Prop where
  shared : Shared (Serialized toVec hash) s.cells s.Live
  built : ∀ read ∈ s.reads, ∀ json, read.built = some json →
    Serialized toVec hash read.dataset json
  served : ∀ answer ∈ s.answered, s.Served toVec hash answer

variable {toVec hash} {s : PlainState}

theorem live_read {read : PlainRead} (h : read ∈ s.reads) : s.Live read.dataset read.cell :=
  .inr ⟨read, h, rfl, rfl⟩

theorem Served.mono {s' : PlainState} {answer : PlainAnswer} (h : s.Served toVec hash answer)
    (hcontent : ∀ cell json, s.cells.content cell = some json →
      s'.cells.content cell = some json) : s'.Served toVec hash answer := by
  unfold Served at h ⊢
  cases hjson : answer.json with
  | ok json =>
    rw [hjson] at h
    exact ⟨hcontent _ _ h.1, h.2⟩
  | error e =>
    rw [hjson] at h
    exact h

theorem inv_start : Inv toVec hash {} where
  shared := Shared.start.mono fun dataset cell hlive => by
    rcases hlive with ⟨key, entry, hget, _⟩ | ⟨read, hread, _⟩
    · exact nomatch (show (none : Option CacheEntry) = some entry from hget)
    · exact nomatch hread
  built := fun _ h => nomatch h
  served := fun _ h => nomatch h

namespace Inv

/-- A request is over. -/
theorem answer (h : s.Inv toVec hash) {i : Nat} {read : PlainRead}
    {json : Except ApiError SerializedJson} (hserved : s.Served toVec hash ⟨read, json⟩) :
    (s.answer i read json).Inv toVec hash where
  shared := h.shared.mono fun dataset cell hlive => hlive.imp_right fun ⟨other, hother, heq⟩ =>
    ⟨other, List.mem_of_mem_eraseIdx hother, heq⟩
  built := fun other hother => h.built other (List.mem_of_mem_eraseIdx hother)
  served := by
    intro answer hanswer
    rcases List.mem_cons.mp hanswer with rfl | hold
    · exact hserved
    · exact h.served answer hold

/-- A write that changes the dataset leaves its entry with a fresh cell, and
every other write leaves the entry with the dataset its cell was made for. -/
theorem afterWrite (h : s.Inv toVec hash) (w : EntryWrite) : (s.afterWrite w).Inv toVec hash := by
  unfold PlainState.afterWrite
  split
  · refine ⟨h.shared.fresh (a := (((w.write.run s.cache).get w.key).map (·.dataset)).getD default)
      fun dataset cell hlive => ?_, h.built, fun answer hanswer =>
        (h.served answer hanswer).mono fun _ _ hcell => hcell⟩
    rcases hlive with ⟨key, entry, hget, hdataset, hcell⟩ | hread
    · by_cases hkey : key = w.key
      · subst hkey
        refine .inr ⟨?_, hcell.symm.trans (Function.update_self ..)⟩
        rw [show (w.write.run s.cache).get w.key = some entry from hget, ← hdataset]
        rfl
      · exact .inl (.inl ⟨key, entry, (EntryWrite.get_of_ne hkey).symm.trans hget, hdataset,
          (Function.update_of_ne hkey ..).symm.trans hcell⟩)
    · exact .inl (.inr hread)
  · rename_i hrenews
    refine ⟨h.shared.mono fun dataset cell hlive => ?_, h.built, h.served⟩
    rcases hlive with ⟨key, entry, hget, hdataset, hcell⟩ | hread
    · by_cases hkey : key = w.key
      · subst hkey
        obtain ⟨old, hold, hsame⟩ := EntryWrite.get_dataset hget (Bool.eq_false_iff.mpr hrenews)
        exact .inl ⟨w.key, old, hold, hsame.symm.trans hdataset, hcell⟩
      · exact .inl ⟨key, entry, (EntryWrite.get_of_ne hkey).symm.trans hget, hdataset, hcell⟩
    · exact .inr hread

theorem take (h : s.Inv toVec hash) {client : Option Nat} {key : String} {entry : CacheEntry}
    {ifNoneMatch : Option String} (hget : s.cache.get key = some entry) : Inv toVec hash
      { s with reads := s.reads ++ [⟨client, key, ifNoneMatch, entry.dataset, s.cellOf key, none⟩] }
    where
  shared := h.shared.mono fun dataset cell hlive => by
    rcases hlive with hcached | ⟨read, hread, hdataset, hcell⟩
    · exact .inl hcached
    · rcases List.mem_append.mp hread with hold | hnew
      · exact .inr ⟨read, hold, hdataset, hcell⟩
      · obtain rfl := List.mem_singleton.mp hnew
        exact .inl ⟨key, entry, hget, hdataset, hcell⟩
  built := by
    intro read hread json hjson
    rcases List.mem_append.mp hread with hold | hnew
    · exact h.built read hold json hjson
    · obtain rfl := List.mem_singleton.mp hnew
      cases hjson
  served := h.served

theorem afterLook (h : s.Inv toVec hash) {i : Nat} {read : PlainRead}
    (hread : s.reads[i]? = some read)
    (layout : Layout) : (s.afterLook toVec hash i read layout).Inv toVec hash := by
  have hmem := List.mem_of_getElem? hread
  unfold PlainState.afterLook
  cases hcell : s.cells.content read.cell with
  | some json => exact h.answer ⟨hcell, h.shared.read (live_read hmem) hcell⟩
  | none =>
    dsimp only
    cases hjson : serialize toVec hash layout read.dataset with
    | error e =>
      have hserved : s.Served toVec hash ⟨read, .error e⟩ := ⟨layout, hjson⟩
      exact h.answer hserved
    | ok json =>
      refine ⟨h.shared.mono fun dataset cell hlive => ?_, fun other hother built hbuilt => ?_,
        h.served⟩
      · rcases hlive with hcached | ⟨other, hother, hdataset, hcell⟩
        · exact .inl hcached
        · rcases List.mem_or_eq_of_mem_set hother with hold | rfl
          · exact .inr ⟨other, hold, hdataset, hcell⟩
          · exact .inr ⟨read, hmem, hdataset, hcell⟩
      · rcases List.mem_or_eq_of_mem_set hother with hold | rfl
        · exact h.built other hold built hbuilt
        · obtain rfl := Option.some.inj hbuilt
          exact ⟨layout, hjson⟩

/-- Whoever filled the cell, it was with something built of this dataset. -/
theorem afterStore (h : s.Inv toVec hash) {i : Nat} {read : PlainRead} {json : SerializedJson}
    (hread : s.reads[i]? = some read) (hjson : read.built = some json) :
    (s.afterStore i read json).Inv toVec hash := by
  have hmem := List.mem_of_getElem? hread
  have hfilled : Inv toVec hash { s with cells := s.cells.fill read.cell json } :=
    ⟨h.shared.fill (live_read hmem) (h.built read hmem json hjson), h.built, fun answer hanswer =>
      (h.served answer hanswer).mono fun _ _ => Cells.fill_content_of_some⟩
  have hcell := Cells.fill_content_self s.cells read.cell json
  unfold PlainState.afterStore
  dsimp only
  rw [hcell, Option.getD_some]
  exact hfilled.answer ⟨hcell, hfilled.shared.read (live_read hmem) hcell⟩

theorem step {event : PlainEvent Layout} {s' : PlainState} (h : s.Inv toVec hash)
    (hs : s.step toVec hash event = some s') : s'.Inv toVec hash := by
  cases event with
  | write w =>
    obtain rfl := Option.some.inj hs
    exact h.afterWrite w
  | take client key ifNoneMatch =>
    obtain ⟨entry, hget, rfl⟩ := Option.map_eq_some_iff.mp hs
    exact h.take hget
  | look i layout =>
    simp only [PlainState.step] at hs
    split at hs
    · rename_i read hread
      split at hs
      · cases hs
      · obtain rfl := Option.some.inj hs
        exact h.afterLook hread layout
    · cases hs
  | store i =>
    obtain ⟨read, hread, hs⟩ := Option.bind_eq_some_iff.mp hs
    obtain ⟨json, hjson, rfl⟩ := Option.map_eq_some_iff.mp hs
    exact h.afterStore hread hjson
  | drop i =>
    obtain ⟨read, _, rfl⟩ := Option.map_eq_some_iff.mp hs
    refine ⟨h.shared.mono fun _ _ hlive => ?_, fun other hother =>
      h.built other (List.mem_of_mem_eraseIdx hother), h.served⟩
    exact hlive.imp_right fun ⟨other, hother, heq⟩ =>
      ⟨other, List.mem_of_mem_eraseIdx hother, heq⟩
  | restart =>
    obtain rfl := Option.some.inj hs
    refine ⟨h.shared.mono fun dataset cell hlive => ?_, fun _ hread => (nomatch hread), h.served⟩
    rcases hlive with ⟨key, entry, hget, _⟩ | ⟨read, hread, _⟩
    · exact nomatch (show (none : Option CacheEntry) = some entry from hget)
    · exact nomatch hread

theorem reach (h : Runs.Reach (PlainState.step toVec hash) Runs.Any {} s) : s.Inv toVec hash :=
  h.invariant inv_start fun _ _ _ hs _ hstep => hs.step hstep

/-- Two bodies from one cell are one body. -/
theorem same_cell (h : s.Inv toVec hash) {a b : PlainAnswer} (ha : a ∈ s.answered)
    (hb : b ∈ s.answered) (hcell : a.read.cell = b.read.cell) {json json' : SerializedJson}
    (hjson : a.json = .ok json) (hjson' : b.json = .ok json') : json = json' := by
  have hserved := h.served a ha
  have hserved' := h.served b hb
  unfold Served at hserved hserved'
  rw [hjson] at hserved
  rw [hjson', ← hcell, hserved.1] at hserved'
  exact Option.some.inj hserved'.1

end Inv

end PlainState

/-! ## Validators made of the content -/

theorem contentEtag_toList (hash : List UInt8 → UInt64) (bytes : List UInt8) :
    (contentEtag hash bytes).toList = '"' ::
      (((Nat.toDigits 16 (hash bytes).toNat).leftpad 16 '0' ++ '-' ::
        Nat.toDigits 10 bytes.length) ++ ['"']) := by
  simp [contentEtag, String.toList_append]

/-- A client that sends one back is told that nothing changed exactly when it is
the validator still. -/
theorem ifNoneMatch_contentEtag (hash : List UInt8 → UInt64) (bytes : List UInt8) (etag : String) :
    ifNoneMatch (some (contentEtag hash bytes)) etag = true ↔ contentEtag hash bytes = etag := by
  have hcomma : ∀ c ∈ (contentEtag hash bytes).toList, (c == ',') = false := by
    intro c hc
    rw [beq_eq_false_iff_ne]
    rintro rfl
    rw [contentEtag_toList] at hc
    simp [List.leftpad, Text.comma_notMem_toDigits] at hc
  have hsplit : (contentEtag hash bytes).toList.splitOn ',' =
      [(contentEtag hash bytes).toList] := by
    rw [List.splitOn_eq_splitOnP]
    exact List.splitOnP_eq_singleton hcomma
  have htrim : Text.trim (contentEtag hash bytes).toList = (contentEtag hash bytes).toList := by
    rw [contentEtag_toList, Text.trim_quoted]
  have hstar : (contentEtag hash bytes).toList ≠ ['*'] := by
    rw [contentEtag_toList]
    exact fun h => nomatch (List.cons.inj h).1
  rw [← String.toList_inj]
  simp [ifNoneMatch, hsplit, htrim, hstar]

/-! ## A shared buffer is as good as one of one's own -/

section Shared
variable {Layout : Type} (toVec : Layout → Dataset → Except String (List UInt8))
  (hash : List UInt8 → UInt64)

/-- What a request of this dataset would be answered with if it shared nothing. -/
def answersAlone (dataset : Dataset) (json : Except ApiError SerializedJson) : Prop :=
  ∃ layout, json = PlainState.serialize toVec hash layout dataset

theorem PlainState.Inv.alone {s : PlainState} (h : s.Inv toVec hash) {answer : PlainAnswer}
    (hanswer : answer ∈ s.answered) : answersAlone toVec hash answer.read.dataset answer.json := by
  have hserved := h.served answer hanswer
  unfold PlainState.Served at hserved
  cases hjson : answer.json with
  | ok json =>
    rw [hjson] at hserved
    obtain ⟨layout, hlayout⟩ := hserved.2
    exact ⟨layout, hlayout.symm⟩
  | error e =>
    rw [hjson] at hserved
    obtain ⟨layout, hlayout⟩ := hserved
    exact ⟨layout, hlayout.symm⟩

theorem serialize_ok {layout : Layout} {dataset : Dataset} {json : SerializedJson}
    (h : PlainState.serialize toVec hash layout dataset = .ok json) :
    toVec layout dataset = .ok json.bytes ∧ json.etag = contentEtag hash json.bytes := by
  unfold PlainState.serialize at h
  cases hbytes : toVec layout dataset with
  | error e =>
    rw [hbytes] at h
    cases h
  | ok bytes =>
    rw [hbytes] at h
    obtain rfl := Except.ok.inj h
    exact ⟨rfl, rfl⟩

theorem PlainState.Inv.etag {s : PlainState} (h : s.Inv toVec hash) {answer : PlainAnswer}
    (hanswer : answer ∈ s.answered) {json : SerializedJson} (hjson : answer.json = .ok json) :
    json.etag = contentEtag hash json.bytes := by
  obtain ⟨layout, hlayout⟩ := h.alone toVec hash hanswer
  rw [hjson] at hlayout
  exact (serialize_ok toVec hash hlayout.symm).2

/-- **Sharing the buffer changes no answer.** Each is one that its request could
have built itself from the dataset it took; requests of one version are
answered alike, and one of them that sends another's validator is told that
nothing changed; the size that is reported is one of the dataset as it is. -/
theorem plainReads_exact {s : PlainState}
    (h : Runs.Reach (PlainState.step toVec hash) Runs.Any {} s) :
    (∀ answer ∈ s.answered, answersAlone toVec hash answer.read.dataset answer.json) ∧
    (∀ a ∈ s.answered, ∀ b ∈ s.answered, a.read.cell = b.read.cell →
      ∀ json json', a.json = .ok json → b.json = .ok json' → json = json' ∧
        (b.read.ifNoneMatch = some json.etag → b.notModified = true)) ∧
    ∀ key entry size, s.cache.get key = some entry → s.serializedLen key = some size →
      ∃ layout bytes, toVec layout entry.dataset = .ok bytes ∧ bytes.length = size := by
  have hinv := PlainState.Inv.reach h
  refine ⟨fun answer hanswer => hinv.alone toVec hash hanswer,
    fun a ha b hb hcell json json' hjson hjson' => ?_, fun key entry size hget hsize => ?_⟩
  · obtain rfl := hinv.same_cell ha hb hcell hjson hjson'
    refine ⟨rfl, fun hheader => ?_⟩
    unfold PlainAnswer.notModified
    rw [hjson', hheader]
    show ifNoneMatch (some json.etag) json.etag = true
    rw [hinv.etag toVec hash ha hjson]
    exact (ifNoneMatch_contentEtag hash json.bytes _).mpr rfl
  · obtain ⟨json, hcell, rfl⟩ := Option.map_eq_some_iff.mp hsize
    obtain ⟨layout, hlayout⟩ := hinv.shared.read (.inl ⟨key, entry, hget, rfl, rfl⟩) hcell
    exact ⟨layout, json.bytes, (serialize_ok toVec hash hlayout).1, rfl⟩

end Shared

/-- Two requests of one version build it both; the one that comes too late
answers with the other's. -/
def racingReads : List (PlainEvent UInt8) :=
  [.write (.set "web" (.new {} 60 0) []), .take none "web" none, .take none "web" none, .look 0 1,
    .look 1 2, .store 1, .store 0]

theorem racingReads_exact : ∃ s a b json, Runs.exec
      (PlainState.step (fun layout _ => .ok [layout]) fun _ => 0) {} racingReads = some s ∧
    s.answered = [a, b] ∧ a.json = .ok json ∧ b.json = .ok json ∧ json.bytes = [2] := by
  obtain ⟨s, a, b, json, json', hrun, hanswered, ha, hb, hcell, hbytes⟩ : ∃ s a b json json',
      Runs.exec (PlainState.step (fun (layout : UInt8) _ => .ok [layout]) fun _ => 0) {}
        racingReads =
        some s ∧ s.answered = [a, b] ∧ a.json = .ok json ∧ b.json = .ok json' ∧
        a.read.cell = b.read.cell ∧ json'.bytes = [2] :=
    ⟨_, _, _, _, _, rfl, rfl, rfl, rfl, rfl, rfl⟩
  obtain ⟨_, hsame, _⟩ := plainReads_exact (fun (layout : UInt8) _ => .ok [layout]) (fun _ => 0)
    (Runs.Reach.start.of_exec hrun)
  obtain ⟨rfl, _⟩ := hsame a (by simp [hanswered]) b (by simp [hanswered]) hcell json json' ha hb
  exact ⟨s, a, b, json, hrun, hanswered, ha, hb, hbytes⟩

end UnifiedApi
