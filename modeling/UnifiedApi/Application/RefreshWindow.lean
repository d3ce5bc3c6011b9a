import UnifiedApi.Application.Enrich
import UnifiedApi.Application.Refresh
import UnifiedApi.Application.SyncedHosts
import UnifiedApi.Lib.Slots

/-! # What on-demand refreshes cost a source

Calls that refresh hosts of one source, each with its look at the cache, its
per-host locks, its second look and its connector run. Waiting for a permit or
for the source's sync lock only delays a run, so any delay is allowed here. -/

namespace UnifiedApi
open Clock CacheEntry

/-- A run of the connector, by which call, for which hosts and since when. -/
structure ConnectorRun where
  call : Nat
  hosts : List String
  startedAt : Nat
  deriving DecidableEq

/-- The host has a timestamp that is not before `since`, under the source's TTL. -/
def StampedSince (source : Source) (sourceId : String) (cache : MemoryCache) (since : Nat)
    (hostname : String) : Prop :=
  ∃ entry stamp, cache.get sourceId = some entry ∧ entry.ttl = fromSecs source.ttlSeconds ∧
    entry.hostTimestamps[hostname]? = some stamp ∧ since ≤ stamp

section Stamps
variable {source : Source} {sourceId : String} {cache : MemoryCache} {since now : Nat}
  {hostname : String}

/-- A stale host with a timestamp has one that is a TTL old. -/
theorem StampedSince.stale {hosts : List String} {ttlOverride : Option Nat}
    (h : StampedSince source sourceId cache since hostname) (hfixed : source.ttlOverrides = {})
    (hpos : 0 < source.ttlSeconds)
    (hsame : ttlOverride.getD source.ttlSeconds = source.ttlSeconds)
    (hstale : hostname ∈ staleHosts cache source sourceId hosts ttlOverride now) :
    since + fromSecs source.ttlSeconds ≤ now := by
  obtain ⟨entry, stamp, hentry, httl, hstamp, hsince⟩ := h
  have hgroups : source.groupTtlByHost entry.dataset = ∅ := by
    unfold Source.groupTtlByHost
    rw [hfixed]
    rfl
  have heffective : source.effectiveTtl hostname (source.groupTtlByHost entry.dataset)
      (ttlOverride.getD (asSecs entry.ttl)) = source.ttlSeconds := by
    rw [hgroups, httl, asSecs_fromSecs, hsame]
    simp [Source.effectiveTtl, hfixed]
  have hnot := ((mem_staleHosts_of_cached hentry).mp hstale).2
  rw [heffective] at hnot
  have hold := isHostFresh_eq_false_iff.mp hnot stamp hstamp
  simp only [Option.map_some, Option.getD_some, elapsed, fromSecs] at hold ⊢
  omega

theorem StampedSince.land {hosts : List String} {output : ConnectorOutput}
    (h : StampedSince source sourceId cache since hostname) (hother : hostname ∉ hosts) :
    StampedSince source sourceId (applyToCache cache sourceId source (.hosts hosts) output now)
      since hostname := by
  obtain ⟨entry, stamp, hentry, httl, hstamp, hsince⟩ := h
  unfold StampedSince
  rw [get_applyToCache, if_pos rfl, hentry]
  simp only [syncedEntry]
  split
  · exact ⟨entry, stamp, rfl, httl, hstamp, hsince⟩
  · have hat := patchHosts_hostAt hosts output now (entry.setTtl source.ttlSeconds) source hostname
    rw [if_neg fun hin => hother hin.1] at hat
    exact ⟨_, stamp, rfl, (patchHosts_clock hosts output now _ source).2.1,
      (congrArg Prod.snd hat).trans hstamp, hsince⟩

/-- A host the gather returned is stamped with what the connector reports. -/
theorem stampedSince_landed {hosts : List String} {output : ConnectorOutput}
    (hasked : hostname ∈ hosts) (hreturned : hostname ∈ output.dataset.hostvars)
    (hage : since ≤ backdated (output.ageOf hostname) now) :
    StampedSince source sourceId (applyToCache cache sourceId source (.hosts hosts) output now)
      since hostname := by
  have hne : ¬ (scopedUpdates hosts output).isEmpty = true := fun he =>
    (scopedUpdates_isEmpty hosts output).mp he hostname hasked hreturned
  unfold StampedSince
  rw [get_applyToCache, if_pos rfl]
  cases cache.get sourceId with
  | some entry =>
    have hat := patchHosts_hostAt hosts output now (entry.setTtl source.ttlSeconds) source hostname
    rw [if_pos ⟨hasked, hreturned⟩] at hat
    exact ⟨_, _, if_neg hne, (patchHosts_clock hosts output now _ source).2.1,
      congrArg Prod.snd hat, hage⟩
  | none =>
    have hat := correctCreated_hostAt hosts output now source.ttlSeconds hostname
    rw [if_pos ⟨hasked, hreturned⟩] at hat
    refine ⟨_, _, if_neg hne, ?_, congrArg Prod.snd hat, hage⟩
    rw [correctCreated_eq]
    exact (SameClock.foldl (fun entry update => updateHostAged_clock entry _ _ _ _) _ _).2.1

theorem StampedSince.mergeDeclared {target : String} {part : Dataset}
    (h : StampedSince source sourceId cache since hostname) :
    StampedSince source sourceId (cache.update target (mergeDeclared part)).2 since hostname := by
  obtain ⟨entry, stamp, hentry, httl, hstamp, hsince⟩ := h
  unfold StampedSince
  rw [MemoryCache.get_update]
  by_cases hk : target = sourceId
  · rw [if_pos hk, hk, hentry]
    exact ⟨_, stamp, rfl, httl, hstamp, hsince⟩
  · rw [if_neg hk, hentry]
    exact ⟨entry, stamp, rfl, httl, hstamp, hsince⟩

/-- An answer stamps nothing that has a timestamp, and takes away those of the
hosts it removes. -/
theorem StampedSince.mergeAnswer {target : String} {answer : Dataset}
    (h : StampedSince source sourceId cache since hostname)
    (hkept : target = sourceId → hostname ∉ answer.removeHosts) :
    StampedSince source sourceId
      (cache.update target fun entry => entry.mergeEnrichment answer now).2 since hostname := by
  obtain ⟨entry, stamp, hentry, httl, hstamp, hsince⟩ := h
  unfold StampedSince
  rw [MemoryCache.get_update]
  by_cases hk : target = sourceId
  · rw [if_pos hk, hk, hentry]
    refine ⟨_, stamp, rfl, httl, ?_, hsince⟩
    have hpresent : hostname ∈ entry.hostTimestamps := StrMap.mem_of_some hstamp
    show (entry.mergeInto answer false now).hostTimestamps[hostname]? = some stamp
    rw [mergeInto_timestamp, if_neg (hkept hk), if_neg, hstamp]
    rintro ⟨_, hrestamp | hnew⟩
    · cases hrestamp
    · exact hnew hpresent
  · rw [if_neg hk, hentry]
    exact ⟨entry, stamp, rfl, httl, hstamp, hsince⟩

end Stamps

inductive WindowPhase where
  | locking (todo : List String)
  /-- Looked again under the locks; these are still stale. -/
  | waiting (still : List String)
  | running (still : List String) (startedAt : Nat)
  /-- The gather is in the cache; enrichers may still run. -/
  | landed
  | done
  deriving DecidableEq

structure WindowCall where
  ttlOverride : Option Nat
  stale : List String
  guards : List String := []
  phase : WindowPhase
  deriving DecidableEq

structure WindowState where
  now : Nat
  cache : MemoryCache := {}
  calls : List WindowCall := []
  /-- The newest first. -/
  runs : List ConnectorRun := []
  deriving DecidableEq

inductive WindowStep where
  | lock
  | recheck
  | start
  | land (output : ConnectorOutput)
  | enrich (enricher : Enricher) (result : EnricherResult)
  /-- The call returns, fails, runs out of its budget or is dropped. -/
  | leave

inductive WindowLabel where
  | tick (nanos : Nat)
  | begin (hosts : List String) (ttlOverride : Option Nat)
  | call (id : Nat) (step : WindowStep)

namespace WindowCall

/-- The hosts that are found stale under the call's locks, until its gather
lands. -/
def hosts (call : WindowCall) : List String :=
  match call.phase with
  | .waiting still | .running still _ => still
  | .locking _ | .landed | .done => []

/-- Whether the call has still to start its run. -/
def Unstarted (call : WindowCall) : Prop :=
  match call.phase with
  | .locking _ | .waiting _ => True
  | .running .. | .landed | .done => False

end WindowCall

namespace WindowState

variable (source : Source) (sourceId : String)

def stale (s : WindowState) (hosts : List String) (ttlOverride : Option Nat) : List String :=
  staleHosts s.cache source sourceId hosts ttlOverride s.now

def free (s : WindowState) (hostname : String) : Bool :=
  s.calls.all fun call => !call.guards.contains hostname

def replace (s : WindowState) (id : Nat) (call : WindowCall) : WindowState :=
  { s with calls := s.calls.set id call }

/-- Every override of the default is the source's own TTL. Nothing stale, no
call. -/
def begin (s : WindowState) (hosts : List String) (ttlOverride : Option Nat) :
    Option WindowState :=
  let stale := s.stale source sourceId hosts ttlOverride
  if ttlOverride.getD source.ttlSeconds = source.ttlSeconds then
    some (if stale.isEmpty then s else
      { s with
        calls := s.calls ++
          [{ ttlOverride, stale, phase := .locking (stale.mergeSort (· ≤ ·)) }] })
  else none

/-- What an enricher leaves in the cache: a copy of another source's variables
or the merge of its script's answer. -/
def enriched (s : WindowState) (enricher : Enricher) (result : EnricherResult) : MemoryCache :=
  if enricher.sourceId.isSome then (executeDeclarativeMerge enricher s.cache).2
  else (mergeAnswer enricher result s.now s.cache).2

def stepCall (s : WindowState) (id : Nat) (call : WindowCall) : WindowStep → Option WindowState
  | .lock => match call.phase with
    | .locking (hostname :: rest) =>
      if s.free hostname then
        some (s.replace id
          { call with guards := hostname :: call.guards, phase := .locking rest })
      else none
    | _ => none
  | .recheck => match call.phase with
    | .locking [] =>
      let still := s.stale source sourceId call.stale call.ttlOverride
      some (s.replace id (if still.isEmpty then { call with guards := [], phase := .done }
        else { call with phase := .waiting still }))
    | _ => none
  | .start => match call.phase with
    | .waiting still =>
      some { s.replace id { call with phase := .running still s.now } with
        runs := { call := id, hosts := still, startedAt := s.now } :: s.runs }
    | _ => none
  | .land output => match call.phase with
    | .running still _ =>
      some { s.replace id { call with phase := .landed } with
        cache := applyToCache s.cache sourceId source (.hosts still) output s.now }
    | _ => none
  | .enrich enricher result => match call.phase with
    | .landed => some { s with cache := s.enriched enricher result }
    | _ => none
  | .leave => some (s.replace id { call with guards := [], phase := .done })

def step (s : WindowState) : WindowLabel → Option WindowState
  | .tick nanos => some { s with now := s.now + nanos }
  | .begin hosts ttlOverride => s.begin source sourceId hosts ttlOverride
  | .call id l => s.calls[id]?.bind fun call => s.stepCall source sourceId id call l

/-- Any two runs that name the same host start at least a TTL apart. -/
def Spaced (s : WindowState) : Prop :=
  s.runs.Pairwise fun later earlier => ∀ h ∈ later.hosts, h ∈ earlier.hosts →
    earlier.startedAt + fromSecs source.ttlSeconds ≤ later.startedAt

/-- The run started a TTL ago. -/
def Elapsed (s : WindowState) (run : ConnectorRun) : Prop :=
  run.startedAt + fromSecs source.ttlSeconds ≤ s.now

/-- A step that ends a run within a TTL of its start leaves each of its hosts
with a timestamp from the run, and no script takes a host out of the source
within a TTL of a run that named it. -/
def Covers (s : WindowState) : WindowLabel → Prop
  | .call id (.land output) => ∀ call still startedAt, s.calls[id]? = some call →
      call.phase = .running still startedAt →
      s.now < startedAt + fromSecs source.ttlSeconds → ∀ h ∈ still,
        h ∈ output.dataset.hostvars ∧ startedAt ≤ backdated (output.ageOf h) s.now
  | .call id .leave => ∀ call still startedAt, s.calls[id]? = some call →
      call.phase = .running still startedAt → startedAt + fromSecs source.ttlSeconds ≤ s.now
  | .call _ (.enrich enricher (.ok answer)) => enricher.targetId = sourceId →
      ∀ run ∈ s.runs, ∀ h ∈ run.hosts, h ∈ answer.removeHosts → s.Elapsed source run
  | _ => True

/-! ## The invariant -/

/-- The host is in good hands: its run goes on, began a TTL ago or left a
timestamp. -/
def Settled (s : WindowState) (run : ConnectorRun) (hostname : String) : Prop :=
  (∃ call, s.calls[run.call]? = some call ∧ call.phase = .running run.hosts run.startedAt) ∨
    s.Elapsed source run ∨
    StampedSince source sourceId s.cache run.startedAt hostname

/-- Every host a call is to gather is under its lock, and no other call's run
named it within a TTL. -/
structure CallSound (s : WindowState) (id : Nat) (call : WindowCall) : Prop where
  sameTtl : call.ttlOverride.getD source.ttlSeconds = source.ttlSeconds
  locked : ∀ todo, call.phase = .locking todo → ∀ h ∈ call.stale, h ∈ call.guards ∨ h ∈ todo
  guarded : ∀ h ∈ call.hosts, h ∈ call.guards
  unstarted : call.Unstarted → ∀ run ∈ s.runs, run.call ≠ id
  own : ∀ still startedAt, call.phase = .running still startedAt → ∀ run ∈ s.runs,
    run.call = id → run.hosts = still ∧ run.startedAt = startedAt
  checked : ∀ run ∈ s.runs, run.call ≠ id → ∀ h ∈ run.hosts, h ∈ call.hosts →
    s.Elapsed source run

/-- Nothing is left to account for once the gather has landed or the call is
over. -/
theorem CallSound.ended {source : Source} {s : WindowState} {id : Nat} {call : WindowCall}
    (h : s.CallSound source id call) (guards : List String) {phase : WindowPhase}
    (hphase : phase = .landed ∨ phase = .done) :
    s.CallSound source id { call with guards, phase } := by
  obtain rfl | rfl := hphase
  all_goals
    exact { sameTtl := h.sameTtl
            locked := by simp
            guarded := by simp [WindowCall.hosts]
            unstarted := by simp [WindowCall.Unstarted]
            own := by simp
            checked := by simp [WindowCall.hosts] }

/-- One run more: the call that began it has started, and no other asks for a
host of it within a TTL. -/
theorem CallSound.addRun {source : Source} {s : WindowState} {id : Nat} {call : WindowCall}
    (h : s.CallSound source id call) (run : ConnectorRun)
    (hunstarted : call.Unstarted → run.call ≠ id)
    (hown : ∀ still startedAt, call.phase = .running still startedAt → run.call = id →
      run.hosts = still ∧ run.startedAt = startedAt)
    (hchecked : run.call ≠ id → ∀ a ∈ run.hosts, a ∈ call.hosts → s.Elapsed source run) :
    CallSound source { s with runs := run :: s.runs } id call where
  sameTtl := h.sameTtl
  locked := h.locked
  guarded := h.guarded
  unstarted hwaits other hother := by
    obtain rfl | hold := List.mem_cons.mp hother
    · exact hunstarted hwaits
    · exact h.unstarted hwaits other hold
  own still startedAt hrunning other hother hid := by
    obtain rfl | hold := List.mem_cons.mp hother
    · exact hown still startedAt hrunning hid
    · exact h.own still startedAt hrunning other hold hid
  checked other hother hid a ha hasked := by
    obtain rfl | hold := List.mem_cons.mp hother
    · exact hchecked hid a ha hasked
    · exact h.checked other hold hid a ha hasked

structure Sound (s : WindowState) : Prop where
  disjoint : ∀ i j call call' h,
    s.calls[(i : Nat)]? = some call → s.calls[(j : Nat)]? = some call' →
    h ∈ call.guards → h ∈ call'.guards → i = j
  calls : ∀ id call, s.calls[(id : Nat)]? = some call → s.CallSound source id call
  known : ∀ run ∈ s.runs, run.call < s.calls.length
  settled : ∀ run ∈ s.runs, ∀ h ∈ run.hosts, s.Settled source sourceId run h
  spaced : s.Spaced source

variable {source sourceId} {s : WindowState}

theorem Sound.start (now : Nat) (cache : MemoryCache) :
    Sound source sourceId { now, cache } where
  disjoint := by simp
  calls := by simp
  known := by simp
  settled := by simp
  spaced := List.Pairwise.nil

theorem Sound.tick (h : s.Sound source sourceId) (nanos : Nat) :
    Sound source sourceId { s with now := s.now + nanos } where
  disjoint := h.disjoint
  calls id call hcall :=
    let sound := h.calls id call hcall
    { sound with
      checked := fun run hrun hother a hnamed hasked =>
        (sound.checked run hrun hother a hnamed hasked).trans (Nat.le_add_right _ _) }
  known := h.known
  settled run hrun a ha :=
    (h.settled run hrun a ha).imp_right fun hdone =>
      hdone.imp_left fun helapsed => helapsed.trans (Nat.le_add_right _ _)
  spaced := h.spaced

/-- A change of the cache that leaves every run settled. -/
theorem Sound.setCache (h : s.Sound source sourceId) {cache : MemoryCache}
    (hkept : ∀ run ∈ s.runs, ∀ a ∈ run.hosts,
      StampedSince source sourceId s.cache run.startedAt a →
      s.Elapsed source run ∨ StampedSince source sourceId cache run.startedAt a) :
    Sound source sourceId { s with cache } where
  disjoint := h.disjoint
  calls id call hcall := { h.calls id call hcall with }
  known := h.known
  settled run hrun a ha := by
    obtain hrunning | helapsed | hstamped := h.settled run hrun a ha
    · exact .inl hrunning
    · exact .inr (.inl helapsed)
    · exact .inr (hkept run hrun a ha hstamped)
  spaced := h.spaced

theorem getElem?_replace {id : Nat} {call call' : WindowCall} (hcall : s.calls[id]? = some call)
    (i : Nat) : (s.replace id call').calls[i]? = if id = i then some call' else s.calls[i]? := by
  have hlt : id < s.calls.length := (List.getElem?_eq_some_iff.mp hcall).1
  simp only [replace, List.getElem?_set, hlt, if_true]

/-- A call moves on: it takes only locks that are free, and its run, if it has
one, is over. -/
theorem Sound.replace {id : Nat} {call call' : WindowCall} (h : s.Sound source sourceId)
    (hcall : s.calls[id]? = some call)
    (hguards : ∀ a ∈ call'.guards, a ∈ call.guards ∨ s.free a = true)
    (hsound : s.CallSound source id call')
    (hover : ∀ run ∈ s.runs, run.call = id → ∀ a ∈ run.hosts,
      s.Elapsed source run ∨ StampedSince source sourceId s.cache run.startedAt a) :
    Sound source sourceId (s.replace id call') where
  disjoint i j ci cj a hi hj hai haj := by
    have hnot : ∀ k ck, k ≠ id → s.calls[k]? = some ck → a ∈ ck.guards → a ∉ call'.guards := by
      intro k ck hk hck hheld hours
      obtain hold | hfree := hguards a hours
      · exact hk (h.disjoint k id ck call a hck hcall hheld hold)
      · have hnone := List.all_eq_true.mp hfree ck (List.mem_of_getElem? hck)
        simp [hheld] at hnone
    rw [getElem?_replace hcall] at hi hj
    by_cases hi' : id = i <;> by_cases hj' : id = j
    · exact hi'.symm.trans hj'
    · rw [if_pos hi'] at hi
      rw [if_neg hj'] at hj
      obtain rfl := Option.some.inj hi
      exact absurd hai (hnot j cj (Ne.symm hj') hj haj)
    · rw [if_neg hi'] at hi
      rw [if_pos hj'] at hj
      obtain rfl := Option.some.inj hj
      exact absurd haj (hnot i ci (Ne.symm hi') hi hai)
    · rw [if_neg hi'] at hi
      rw [if_neg hj'] at hj
      exact h.disjoint i j ci cj a hi hj hai haj
  calls i ci hi := by
    rw [getElem?_replace hcall] at hi
    split at hi
    · rename_i heq
      obtain rfl := Option.some.inj hi
      subst heq
      exact { hsound with }
    · exact { h.calls i ci hi with }
  known run hrun := by
    simpa [WindowState.replace] using h.known run hrun
  settled run hrun a ha := by
    by_cases hid : id = run.call
    · exact .inr (hover run hrun hid.symm a ha)
    · refine (h.settled run hrun a ha).imp_left ?_
      rintro ⟨c, hc, hphase⟩
      exact ⟨c, by rw [getElem?_replace hcall, if_neg hid, hc], hphase⟩
  spaced := h.spaced

/-! ## The steps -/

theorem Sound.begin {s' : WindowState} {hosts : List String} {ttlOverride : Option Nat}
    (h : s.Sound source sourceId) (hstep : s.begin source sourceId hosts ttlOverride = some s') :
    s'.Sound source sourceId := by
  obtain ⟨hsame, hstep⟩ := Option.ite_none_right_eq_some.mp hstep
  obtain rfl := Option.some.inj hstep
  split
  · exact h
  · generalize s.stale source sourceId hosts ttlOverride = stale
    have hcases : ∀ i c, (s.calls ++ [⟨ttlOverride, stale, [], .locking
        (stale.mergeSort (· ≤ ·))⟩])[(i : Nat)]? = some c → s.calls[i]? = some c ∨
        i = s.calls.length ∧ c = ⟨ttlOverride, stale, [], .locking (stale.mergeSort (· ≤ ·))⟩ := by
      intro i c hc
      exact Slots.getElem?_append_or hc
    refine ⟨?_, ?_, ?_, ?_, h.spaced⟩
    · intro i j ci cj a hi hj hai haj
      obtain hi | ⟨_, rfl⟩ := hcases i ci hi
      · obtain hj | ⟨_, rfl⟩ := hcases j cj hj
        · exact h.disjoint i j ci cj a hi hj hai haj
        · cases haj
      · cases hai
    · intro i c hc
      obtain hc | ⟨rfl, rfl⟩ := hcases i c hc
      · exact { h.calls i c hc with }
      · refine ⟨hsame, ?_, by simp [WindowCall.hosts], ?_, by simp, by simp [WindowCall.hosts]⟩
        · intro todo htodo a ha
          obtain rfl := WindowPhase.locking.inj htodo
          exact .inr (List.mem_mergeSort.mpr ha)
        · intro _ run hrun
          exact (h.known run hrun).ne
    · intro run hrun
      have hlt := h.known run hrun
      simp only [List.length_append, List.length_cons, List.length_nil]
      omega
    · intro run hrun a ha
      refine (h.settled run hrun a ha).imp_left ?_
      rintro ⟨c, hc, hphase⟩
      exact ⟨c, List.getElem?_append_left (h.known run hrun) ▸ hc, hphase⟩

section Call
variable {id : Nat} {call : WindowCall}

/-- A call that has not started its run has none to account for. -/
theorem Sound.unstarted_over (h : s.Sound source sourceId) (hcall : s.calls[id]? = some call)
    (hunstarted : call.Unstarted) : ∀ run ∈ s.runs, run.call = id → ∀ a ∈ run.hosts,
      s.Elapsed source run ∨ StampedSince source sourceId s.cache run.startedAt a :=
  fun run hrun hid => absurd hid ((h.calls id call hcall).unstarted hunstarted run hrun)

theorem Sound.lock {hostname : String} {rest : List String} (h : s.Sound source sourceId)
    (hcall : s.calls[id]? = some call) (hphase : call.phase = .locking (hostname :: rest))
    (hfree : s.free hostname = true) : (s.replace id
      { call with guards := hostname :: call.guards, phase := .locking rest }).Sound
        source sourceId := by
  have hsound := h.calls id call hcall
  have hunstarted : call.Unstarted := by simp [WindowCall.Unstarted, hphase]
  refine h.replace hcall ?_ ?_ (h.unstarted_over hcall hunstarted)
  · intro a ha
    obtain rfl | hold := List.mem_cons.mp ha
    · exact .inr hfree
    · exact .inl hold
  · refine { hsound with
      locked := ?_
      guarded := by simp [WindowCall.hosts]
      unstarted := fun _ => hsound.unstarted hunstarted
      own := by simp
      checked := by simp [WindowCall.hosts] }
    intro todo htodo a ha
    obtain rfl := WindowPhase.locking.inj htodo
    have hbefore := hsound.locked _ hphase a ha
    simp only [List.mem_cons] at hbefore ⊢
    tauto

/-- Under the locks of its hosts, a call finds none of them in another's run
and none stamped within a TTL. -/
theorem Sound.stale_elapsed (h : s.Sound source sourceId) (hfixed : source.ttlOverrides = {})
    (hpos : 0 < source.ttlSeconds) (hcall : s.calls[id]? = some call)
    (hphase : call.phase = .locking []) {a : String}
    (hstale : a ∈ s.stale source sourceId call.stale call.ttlOverride) :
    a ∈ call.guards ∧ ∀ run ∈ s.runs, a ∈ run.hosts → s.Elapsed source run := by
  have hsound := h.calls id call hcall
  have hguard : a ∈ call.guards :=
    (hsound.locked [] hphase a (mem_of_mem_staleHosts hstale)).resolve_right List.not_mem_nil
  refine ⟨hguard, fun run hrun ha => ?_⟩
  obtain ⟨other, hother, hrunning⟩ | helapsed | hstamped := h.settled run hrun a ha
  · have hheld : a ∈ other.guards :=
      (h.calls run.call other hother).guarded a (by simpa [WindowCall.hosts, hrunning] using ha)
    obtain rfl := h.disjoint run.call id other call a hother hcall hheld hguard
    obtain rfl := Option.some.inj (hcall.symm.trans hother)
    rw [hphase] at hrunning
    cases hrunning
  · exact helapsed
  · exact hstamped.stale hfixed hpos hsound.sameTtl hstale

theorem Sound.recheck (h : s.Sound source sourceId) (hfixed : source.ttlOverrides = {})
    (hpos : 0 < source.ttlSeconds) (hcall : s.calls[id]? = some call)
    (hphase : call.phase = .locking []) :
    (s.replace id (
      let still := s.stale source sourceId call.stale call.ttlOverride
      if still.isEmpty then { call with guards := [], phase := .done }
      else { call with phase := .waiting still })).Sound source sourceId := by
  have hsound := h.calls id call hcall
  have hunstarted : call.Unstarted := by simp [WindowCall.Unstarted, hphase]
  have hstale := fun a => h.stale_elapsed (a := a) hfixed hpos hcall hphase
  dsimp only
  split
  · exact h.replace hcall (by simp) (hsound.ended [] (.inr rfl)) (h.unstarted_over hcall hunstarted)
  · refine h.replace hcall (fun a ha => .inl ha) ?_ (h.unstarted_over hcall hunstarted)
    exact { hsound with
      locked := by simp
      guarded := fun a ha => (hstale a ha).1
      unstarted := fun _ => hsound.unstarted hunstarted
      own := by simp
      checked := fun run hrun _ a ha hstill => (hstale a hstill).2 run hrun ha }

/-- The run begins: every earlier one that named one of its hosts began a TTL
ago, and no other call is about to gather any. -/
theorem Sound.startRun {still : List String} (h : s.Sound source sourceId)
    (hcall : s.calls[id]? = some call) (hphase : call.phase = .waiting still) :
    Sound source sourceId { s.replace id { call with phase := .running still s.now } with
      runs := { call := id, hosts := still, startedAt := s.now } :: s.runs } := by
  have hsound := h.calls id call hcall
  have hunstarted : call.Unstarted := by simp [WindowCall.Unstarted, hphase]
  have hnone := hsound.unstarted hunstarted
  have hhosts : call.hosts = still := by simp [WindowCall.hosts, hphase]
  have hchecked : ∀ run ∈ s.runs, ∀ a ∈ run.hosts, a ∈ still → s.Elapsed source run :=
    fun run hrun a ha hstill => hsound.checked run hrun (hnone run hrun) a ha (hhosts ▸ hstill)
  have hmoved :
      Sound source sourceId (s.replace id { call with phase := .running still s.now }) := by
    refine h.replace hcall (fun a ha => .inl ha) ?_ (h.unstarted_over hcall hunstarted)
    exact { hsound with
      locked := by simp
      guarded := fun a ha => hsound.guarded a (hhosts ▸ ha)
      unstarted := by simp [WindowCall.Unstarted]
      own := fun _ _ _ run hrun hid => absurd hid (hnone run hrun)
      checked := fun run hrun _ a ha hstill => hchecked run hrun a ha hstill }
  have hget : ∀ i, (s.replace id { call with phase := .running still s.now }).calls[i]? =
      if id = i then some { call with phase := .running still s.now } else s.calls[i]? :=
    getElem?_replace hcall
  refine { disjoint := hmoved.disjoint, calls := ?_, known := ?_, settled := ?_, spaced := ?_ }
  · intro i c hc
    have hc' := (hget i).symm.trans hc
    refine (hmoved.calls i c hc).addRun _ ?_ ?_ ?_
    · intro hwaits hi
      rw [if_pos hi] at hc'
      obtain rfl := Option.some.inj hc'
      simp [WindowCall.Unstarted] at hwaits
    · intro still' startedAt hrunning hi
      rw [if_pos hi] at hc'
      obtain rfl := Option.some.inj hc'
      exact WindowPhase.running.inj hrunning
    · intro hi a ha hasked
      rw [if_neg hi] at hc'
      exact absurd (h.disjoint id i call c a hcall hc' (hsound.guarded a (hhosts ▸ ha))
        ((h.calls i c hc').guarded a hasked)) hi
  · intro run hrun
    obtain rfl | hold := List.mem_cons.mp hrun
    · simpa [WindowState.replace] using (List.getElem?_eq_some_iff.mp hcall).1
    · exact hmoved.known run hold
  · intro run hrun a ha
    obtain rfl | hold := List.mem_cons.mp hrun
    · exact .inl ⟨_, (hget id).trans (if_pos rfl), rfl⟩
    · exact hmoved.settled run hold a ha
  · exact List.pairwise_cons.mpr
      ⟨fun run hrun a hstill ha => hchecked run hrun a ha hstill, h.spaced⟩

/-- The gather lands: within a TTL of its start, every host of the run is
stamped. Other runs named its hosts a TTL before, or not at all. -/
theorem Sound.land {still : List String} {startedAt : Nat} {output : ConnectorOutput}
    (h : s.Sound source sourceId) (hcall : s.calls[id]? = some call)
    (hphase : call.phase = .running still startedAt)
    (hcovers : s.now < startedAt + fromSecs source.ttlSeconds → ∀ a ∈ still,
      a ∈ output.dataset.hostvars ∧ startedAt ≤ backdated (output.ageOf a) s.now) :
    Sound source sourceId { s.replace id { call with phase := .landed } with
      cache := applyToCache s.cache sourceId source (.hosts still) output s.now } := by
  have hsound := h.calls id call hcall
  have hown : ∀ run ∈ s.runs, run.call = id → ∀ a ∈ run.hosts, s.Elapsed source run ∨
      StampedSince source sourceId
        (applyToCache s.cache sourceId source (.hosts still) output s.now) run.startedAt a := by
    intro run hrun hid a ha
    obtain ⟨rfl, rfl⟩ := hsound.own still startedAt hphase run hrun hid
    by_cases hsoon : s.now < run.startedAt + fromSecs source.ttlSeconds
    · obtain ⟨hreturned, hage⟩ := hcovers hsoon a ha
      exact .inr (stampedSince_landed ha hreturned hage)
    · exact .inl (Nat.le_of_not_lt hsoon)
  refine Sound.replace (s := { s with cache := _ }) (h.setCache ?_) hcall (fun a ha => .inl ha)
    { hsound.ended call.guards (.inl rfl) with } hown
  intro run hrun a ha hstamped
  by_cases hid : run.call = id
  · exact hown run hrun hid a ha
  · by_cases hstill : a ∈ still
    · exact .inl (hsound.checked run hrun hid a ha
        (by simpa [WindowCall.hosts, hphase] using hstill))
    · exact .inr (hstamped.land hstill)

theorem Sound.leave (h : s.Sound source sourceId) (hcall : s.calls[id]? = some call)
    (hcovers : ∀ still startedAt, call.phase = .running still startedAt →
      startedAt + fromSecs source.ttlSeconds ≤ s.now) :
    (s.replace id { call with guards := [], phase := .done }).Sound source sourceId := by
  refine h.replace hcall (by simp) ((h.calls id call hcall).ended [] (.inr rfl)) ?_
  intro run hrun hid a ha
  obtain ⟨other, hother, hrunning⟩ | hdone := h.settled run hrun a ha
  · rw [hid, hcall] at hother
    obtain rfl := Option.some.inj hother
    exact .inl (hcovers run.hosts run.startedAt hrunning)
  · exact hdone

end Call

theorem Sound.enrich {enricher : Enricher} {result : EnricherResult}
    (h : s.Sound source sourceId)
    (hcovers : ∀ answer, result = .ok answer → enricher.targetId = sourceId →
      ∀ run ∈ s.runs, ∀ a ∈ run.hosts, a ∈ answer.removeHosts → s.Elapsed source run) :
    Sound source sourceId { s with cache := s.enriched enricher result } := by
  refine h.setCache fun run hrun a ha hstamped => ?_
  unfold enriched
  split
  · obtain hsame | ⟨part, hmerged⟩ := executeDeclarativeMerge_cache enricher s.cache
    · rw [hsame]
      exact .inr hstamped
    · rw [hmerged]
      exact .inr hstamped.mergeDeclared
  · obtain hsame | ⟨answer, hok, hmerged⟩ := mergeAnswer_cache enricher result s.now s.cache
    · rw [hsame]
      exact .inr hstamped
    · rw [hmerged]
      by_cases hremoved : enricher.targetId = sourceId ∧ a ∈ answer.removeHosts
      · exact .inl (hcovers answer hok hremoved.1 run hrun a ha hremoved.2)
      · exact .inr (hstamped.mergeAnswer fun htarget hin => hremoved ⟨htarget, hin⟩)

theorem Sound.step {s' : WindowState} {l : WindowLabel} (h : s.Sound source sourceId)
    (hfixed : source.ttlOverrides = {}) (hpos : 0 < source.ttlSeconds)
    (hcovers : s.Covers source sourceId l) (hstep : s.step source sourceId l = some s') :
    s'.Sound source sourceId := by
  cases l with
  | tick nanos =>
    obtain rfl := Option.some.inj hstep
    exact h.tick nanos
  | begin hosts ttlOverride => exact h.begin hstep
  | call id l =>
    obtain ⟨call, hcall, hstep⟩ := Option.bind_eq_some_iff.mp hstep
    cases l with
    | lock =>
      simp only [stepCall] at hstep
      split at hstep
      · rename_i hostname rest hphase
        obtain ⟨hfree, hstep⟩ := Option.ite_none_right_eq_some.mp hstep
        obtain rfl := Option.some.inj hstep
        exact h.lock hcall hphase hfree
      · cases hstep
    | recheck =>
      simp only [stepCall] at hstep
      split at hstep
      · rename_i hphase
        obtain rfl := Option.some.inj hstep
        exact h.recheck hfixed hpos hcall hphase
      · cases hstep
    | start =>
      simp only [stepCall] at hstep
      split at hstep
      · rename_i still hphase
        obtain rfl := Option.some.inj hstep
        exact h.startRun hcall hphase
      · cases hstep
    | land output =>
      simp only [stepCall] at hstep
      split at hstep
      · rename_i still startedAt hphase
        obtain rfl := Option.some.inj hstep
        exact h.land hcall hphase (hcovers call still startedAt hcall hphase)
      · cases hstep
    | enrich enricher result =>
      simp only [stepCall] at hstep
      split at hstep
      · obtain rfl := Option.some.inj hstep
        refine h.enrich fun answer hok htarget => ?_
        subst hok
        exact hcovers htarget
      · cases hstep
    | leave =>
      obtain rfl := Option.some.inj hstep
      exact h.leave hcall fun still startedAt hphase => hcovers call still startedAt hcall hphase

/-! ## A host asked for twice -/

def minuteSource : Source := { ttlSeconds := 60 }

/-- A call for one host, up to the start of its run. -/
def upToRun (id : Nat) : List WindowLabel :=
  [.begin ["a"] none, .call id .lock, .call id .recheck, .call id .start]

theorem exec_upToRun {s : WindowState}
    (hstale : s.stale minuteSource "src" ["a"] none = ["a"]) (hfree : s.free "a" = true) :
    Runs.exec (step minuteSource "src") s (upToRun s.calls.length) = some { s with
      calls := s.calls ++ [⟨none, ["a"], ["a"], .running ["a"] s.now⟩]
      runs := ⟨s.calls.length, ["a"], s.now⟩ :: s.runs } := by
  have hstale' : ∀ calls, ({ s with calls } : WindowState).stale minuteSource "src" ["a"] none =
      ["a"] := fun _ => hstale
  have hfree' : ∀ call : WindowCall, call.guards = [] →
      ({ s with calls := s.calls ++ [call] } : WindowState).free "a" = true := by
    intro call hnone
    simpa [free, hnone] using hfree
  simp [upToRun, Runs.exec, step, WindowState.begin, hstale, hstale', stepCall, replace, hfree']

theorem meets_upToRun (id : Nat) (s : WindowState) :
    Runs.Meets (step minuteSource "src") (Covers minuteSource "src") s (upToRun id) :=
  Runs.meets_of_forall (by simp [upToRun, Covers]) s

/-- The first run, on a cache that has nothing. -/
theorem exec_coldRun : Runs.exec (step minuteSource "src") { now := 0 } (upToRun 0) = some
    { now := 0
      calls := [⟨none, ["a"], ["a"], .running ["a"] 0⟩]
      runs := [⟨0, ["a"], 0⟩] } :=
  exec_upToRun rfl rfl

def oneHost : ConnectorOutput where
  dataset := { hostvars := (∅ : StrMap HostVars).insert "a" ∅ }

/-- The gather has landed and its call is over; a minute has passed. -/
def minuteLater : WindowState where
  now := fromSecs 60
  cache := applyToCache {} "src" minuteSource (.hosts ["a"]) oneHost 0
  calls := [⟨none, ["a"], [], .done⟩]
  runs := [⟨0, ["a"], 0⟩]

theorem reach_minuteLater :
    Runs.Reach (step minuteSource "src") (Covers minuteSource "src") { now := 0 } minuteLater := by
  have hcold := Runs.Reach.start.of_meets (meets_upToRun 0 { now := 0 }) exec_coldRun
  have hlanded := hcold.step (l := .call 0 (.land oneHost)) ?_ rfl
  · have hleft := hlanded.step (l := .call 0 .leave) ?_ rfl
    · exact hleft.step (l := WindowLabel.tick (fromSecs 60)) trivial rfl
    · intro call still startedAt hcall hphase
      obtain rfl := Option.some.inj hcall
      cases hphase
  · intro call still startedAt hcall hphase _ h hstill
    obtain rfl := Option.some.inj hcall
    obtain ⟨rfl, rfl⟩ := WindowPhase.running.inj hphase
    obtain rfl := List.mem_singleton.mp hstill
    exact ⟨by decide, Nat.zero_le _⟩

/-- **The cost of on-demand refreshes.** In every run of calls in which each
connector run that ends within a TTL leaves its hosts stamped, any two connector
runs that name the same host start at least a TTL apart. -/
theorem runs_spaced (hfixed : source.ttlOverrides = {}) (hpos : 0 < source.ttlSeconds)
    (now : Nat) (cache : MemoryCache) (s : WindowState)
    (h : Runs.Reach (step source sourceId) (Covers source sourceId) { now, cache } s) :
    s.Spaced source := by
  have hsound := h.invariant (P := Sound source sourceId) (Sound.start now cache)
    fun _ _ _ hs hcovers hstep => hs.step hfixed hpos hcovers hstep
  exact hsound.spaced

theorem minuteLater_spaced : ∃ s, Runs.exec (step minuteSource "src") minuteLater (upToRun 1) =
    some s ∧ s.runs.length = 2 ∧ s.Spaced minuteSource := by
  have hexec : Runs.exec (step minuteSource "src") minuteLater (upToRun 1) = some
      { minuteLater with
        calls := minuteLater.calls ++ [⟨none, ["a"], ["a"], .running ["a"] (fromSecs 60)⟩]
        runs := ⟨1, ["a"], fromSecs 60⟩ :: minuteLater.runs } := exec_upToRun (by decide) rfl
  exact ⟨_, hexec, rfl, runs_spaced rfl (by decide) 0 {} _
    (reach_minuteLater.of_meets (meets_upToRun 1 minuteLater) hexec)⟩

/-- The connector fails, and the next call asks it again at once: two runs for
the same host in the same instant. -/
theorem failedRun_not_spaced : ¬ ∀ (source : Source) (sourceId : String),
    source.ttlOverrides = {} → 0 < source.ttlSeconds → ∀ now cache s,
      Runs.Reach (step source sourceId) Runs.Any { now, cache } s → s.Spaced source := by
  intro h
  have hfailed := (Runs.Reach.start.of_exec exec_coldRun).step (l := .call 0 .leave) trivial rfl
  have hagain := hfailed.of_exec (exec_upToRun rfl rfl)
  have hspaced := h minuteSource "src" rfl (by decide) 0 {} _ hagain
  have hle : 0 + fromSecs 60 ≤ 0 :=
    (List.pairwise_cons.mp hspaced).1 ⟨0, ["a"], 0⟩ List.mem_cons_self "a" List.mem_cons_self
      List.mem_cons_self
  exact absurd hle (by decide)

end WindowState

end UnifiedApi
