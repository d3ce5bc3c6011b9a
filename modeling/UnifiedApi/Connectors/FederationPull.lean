import UnifiedApi.Adapters.Http.ConditionalReads
import UnifiedApi.Application.TruthfulAges
import UnifiedApi.Connectors.Remote

/-! # A pull while its origin gathers

The remote connector asks for the dataset, then for its ages, and the sync
writes what came back; the origin gathers on between any two of these. Only one
pull of a source runs at a time, for a sync holds its source's lock. -/

namespace UnifiedApi
open Clock CacheEntry

/-! ## What the origin answers -/

/-- Both shapes of a body deserialize to a dataset; the fields of the envelope
that a dataset does not have are ignored. -/
def DatasetBody.dataset : DatasetBody → Dataset
  | .raw dataset => dataset
  | .page envelope => { hostvars := envelope.hostvars, groups := envelope.groups.getD ∅ }

/-- The ages the connector reads of the body of GET /status. -/
def fetchAges (params : DatasetParams) (entry : CacheEntry) (now : Nat) : DatasetAges where
  datasetAgeSeconds := entry.ageSeconds now
  hostAges := (resolveHostnames entry.dataset params.host params.group).foldl (fun ages host =>
    match entry.hostAgeSeconds host now with
    | some age => ages.insert host age
    | none => ages) ∅

theorem fetchAges_hostAges (params : DatasetParams) (entry : CacheEntry) (now : Nat)
    (host : String) : (fetchAges params entry now).hostAges[host]? =
      if host ∈ resolveHostnames entry.dataset params.host params.group then
        entry.hostAgeSeconds host now
      else none := by
  have hkeys : (fetchAges params entry now).hostAges[host]? =
      if host ∈ resolveHostnames entry.dataset params.host params.group then
        (entry.hostAgeSeconds host now).or (∅ : StrMap Nat)[host]?
      else (∅ : StrMap Nat)[host]? := by
    refine StrMap.getElem?_foldl_keys
      (g := fun k old => (entry.hostAgeSeconds k now).or old) ?_ ?_ _ ∅ host
    · intro ages k a
      cases hage : entry.hostAgeSeconds k now with
      | none => simp [hage]
      | some age => simp only [hage, StrMap.getElem?_insert, Option.some_or]
    · intro a x
      cases entry.hostAgeSeconds a now <;> rfl
  rw [hkeys]
  simp

/-- What a sync writes of a connector's dataset. -/
def SyncScope.landing (scope : SyncScope) (dataset : Dataset) : Dataset :=
  match scope with
  | .full => dataset.addGroupMembers
  | .hosts _ | .group _ => dataset

/-! ## The pull -/

/-- A dataset, and when the origin gathered the variables it has for a host. -/
structure GatheredDataset where
  dataset : Dataset
  gathered : String → Nat

/-- The last full pull with a validator. -/
structure FetchMemo where
  etag : String
  data : GatheredDataset

/-- The origin's entry that a status was made from, and when. -/
structure StatusRead where
  entry : CacheEntry
  readAt : Nat

inductive PullPhase where
  | asking
  | fetched (data : GatheredDataset)
  /-- Without a status the ages are unknown. -/
  | aged (data : GatheredDataset) (status : Option StatusRead)

structure RemotePull where
  sourceId : String
  source : Source
  scope : SyncScope
  /-- Empty when the pull asks for everything. -/
  hostFilter : String
  /-- What the origin reads of it. -/
  params : DatasetParams
  phase : PullPhase := .asking

/-- What the connector hands to the sync. -/
def RemotePull.output (pull : RemotePull) (data : GatheredDataset) (status : Option StatusRead) :
    ConnectorOutput where
  dataset := pull.scope.landing data.dataset
  ages := status.map fun read => fetchAges pull.params read.entry read.readAt

/-- A pull that was written, with the entry before and after, and the two
clocks at the write. -/
structure StoredPull where
  pull : RemotePull
  data : GatheredDataset
  status : Option StatusRead
  old : Option CacheEntry
  entry : Option CacheEntry
  originAt : Nat
  centralAt : Nat

/-- Both instances, and the pulls written so far. `gathered` says of a host when
the origin last wrote it from a gather. -/
structure PullRun where
  originClock : Nat
  centralClock : Nat
  origin : MemoryCache := {}
  /-- The validator of the origin's entry as it is now. -/
  etag : String := ""
  gathered : String → Nat
  memo : Option FetchMemo := none
  pull : Option RemotePull := none
  cache : MemoryCache := {}
  stored : List StoredPull := []

inductive PullEvent where
  | pass (duration : Nat)
  /-- A sync of the origin's source; its entry gets a new serialization. -/
  | gather (source : Source) (scope : SyncScope) (dataset : Dataset) (unreachable : List String)
      (etag : String)
  /-- Any other write to the puller's cache. -/
  | write (write : CacheWrite)
  | begin (sourceId : String) (source : Source) (request : SyncRequest)
  | getDataset
  /-- A status that is not answered leaves the ages unknown. -/
  | getStatus (answered : Bool)
  | store
  /-- The pull fails or is given up. -/
  | abandon

namespace PullRun

/-- The memo that a conditional request finds unchanged. -/
def unchanged (s : PullRun) (pull : RemotePull) : Option FetchMemo :=
  (if pull.hostFilter.isEmpty then s.memo else none).filter fun memo =>
    ifNoneMatch (some memo.etag) s.etag

/-- The remembered dataset of a 304. Variables that the origin still has are
those it gathered last. -/
def notModified (s : PullRun) (memo : FetchMemo) (entry : CacheEntry) : GatheredDataset where
  dataset := memo.data.dataset
  gathered host :=
    if memo.data.dataset.hostvars[host]? = entry.dataset.hostvars[host]? then s.gathered host
    else memo.data.gathered host

/-- Only a full pull is remembered. -/
def remember (s : PullRun) (pull : RemotePull) (data : GatheredDataset) : Option FetchMemo :=
  if pull.hostFilter.isEmpty && (s.unchanged pull).isNone then some ⟨s.etag, data⟩ else s.memo

def gather (s : PullRun) (originId : String) (source : Source) (scope : SyncScope)
    (output : ConnectorOutput) (etag : String) : PullRun :=
  { s with
    origin := applyToCache s.origin originId source scope output s.originClock
    etag := etag
    gathered := fun host =>
      if WritesHost source scope output (s.origin.get originId) host then s.originClock
      else s.gathered host }

def store (s : PullRun) (pull : RemotePull) (data : GatheredDataset)
    (status : Option StatusRead) : PullRun :=
  let cache := applyToCache s.cache pull.sourceId pull.source pull.scope
    (pull.output data status) s.centralClock
  { s with
    pull := none
    cache := cache
    stored :=
      { pull, data, status
        old := s.cache.get pull.sourceId
        entry := cache.get pull.sourceId
        originAt := s.originClock
        centralAt := s.centralClock } :: s.stored }

section Step
variable (ops : TextOps) (readQuery : String → Option DatasetParams) (originId : String)

/-- The answer to GET /dataset; `none` fails the pull. -/
def fetch (s : PullRun) (pull : RemotePull) : Option GatheredDataset :=
  (s.origin.get originId).bind fun entry =>
    match s.unchanged pull with
    | some memo => some (s.notModified memo entry)
    | none => (sourceBody ops originId pull.params entry.dataset).toOption.map fun body =>
      ⟨body.dataset, s.gathered⟩

def step (s : PullRun) : PullEvent → Option PullRun
  | .pass duration => some { s with
      originClock := s.originClock + duration
      centralClock := s.centralClock + duration }
  | .gather source scope dataset unreachable etag => some <|
      s.gather originId source scope { dataset := scope.landing dataset, unreachable } etag
  | .write write => some { s with cache := write.run s.cache }
  | .begin sourceId source request =>
    if s.pull.isSome then none
    else
      let hostFilter := hostScopeFilter (request.config source)
      let params := if hostFilter.isEmpty then some {} else readQuery hostFilter
      some { s with pull := params.map fun params =>
        { sourceId, source, scope := request.scope, hostFilter, params } }
  | .getDataset => s.pull.bind fun pull => match pull.phase with
    | .asking => some <| match s.fetch ops originId pull with
      | some data => { s with
          memo := s.remember pull data
          pull := some { pull with phase := .fetched data } }
      | none => { s with pull := none }
    | _ => none
  | .getStatus answered => s.pull.bind fun pull => match pull.phase with
    | .fetched data =>
      let status := if answered then
        (s.origin.get originId).map fun entry => ⟨entry, s.originClock⟩ else none
      some { s with pull := some { pull with phase := .aged data status } }
    | _ => none
  | .store => s.pull.bind fun pull => match pull.phase with
    | .aged data status => some (s.store pull data status)
    | _ => none
  | .abandon => some { s with pull := none }

end Step

end PullRun

/-! ## Truthful ages -/

namespace StoredPull

/-- The host's variables in the entry are those the pull brought. -/
def Stores (p : StoredPull) (host : String) : Prop :=
  host ∈ p.data.dataset.hostvars ∧
    WritesHost p.pull.source p.pull.scope (p.pull.output p.data p.status) p.old host

instance (p : StoredPull) (host : String) : Decidable (p.Stores host) :=
  inferInstanceAs (Decidable (_ ∧ _))

/-- The entry has what the pull brought and records it no younger than it is,
but for less than a second. -/
def AgedTruly (p : StoredPull) (host : String) : Prop :=
  ∃ entry recorded, p.entry = some entry ∧
    entry.dataset.hostvars[host]? = p.data.dataset.hostvars[host]? ∧
    entry.hostAgeSeconds host p.centralAt = some recorded ∧
    elapsed p.originAt (p.data.gathered host) < fromSecs recorded + fromSecs 1

def Truthful (p : StoredPull) : Prop := ∀ host, p.Stores host → p.AgedTruly host

/-- The write takes over the age that the status reports, which the origin
counts from `stamp`. -/
structure Carries (p : StoredPull) (host : String) (read : StatusRead) (stamp : Nat) : Prop where
  answered : p.status = some read
  keeps : KeepsHostAge p.pull.source p.pull.scope (p.pull.output p.data p.status) p.old host
  listed : host ∈ resolveHostnames read.entry.dataset p.pull.params.host p.pull.params.group
  stamped : read.entry.hostTimestamps[host]? = some stamp
  representable : fromSecs (asSecs (elapsed read.readAt stamp)) ≤ p.centralAt

/-- A full replace by reported ages has no stamp for a host without one. -/
structure LeavesUnstamped (p : StoredPull) (host : String) : Prop where
  keeps : KeepsHostAge p.pull.source p.pull.scope (p.pull.output p.data p.status) p.old host
  full : p.pull.scope = .full
  answered : p.status ≠ none

/-- What the status rounded off, the way from the status to the write, and the
time by which the origin's stamp is later than the gather of what the pull
brought stay below a second together; or the write stamps the host itself, and
what the pull brought is younger than a second. -/
def InTime (p : StoredPull) : Prop :=
  ∀ host, p.Stores host →
    (∃ read stamp, p.Carries host read stamp ∧
      fraction (elapsed read.readAt stamp) +
        (elapsed p.originAt read.readAt + elapsed stamp (p.data.gathered host)) < fromSecs 1) ∨
    (¬ p.LeavesUnstamped host ∧ elapsed p.originAt (p.data.gathered host) < fromSecs 1)

end StoredPull

/-- No stamp of the status is earlier than the gather it stands for. -/
structure StatusRead.Follows (read : StatusRead) (data : GatheredDataset) (clock : Nat) : Prop where
  read_le : read.readAt ≤ clock
  stamps : ∀ host stamp, read.entry.hostTimestamps[(host : String)]? = some stamp →
    data.gathered host ≤ stamp ∧ stamp ≤ read.readAt

/-- What the code guarantees of a pull it has written. -/
structure StoredPull.Recorded (p : StoredPull) : Prop where
  entry : p.entry = syncedEntry p.pull.source p.pull.scope (p.pull.output p.data p.status)
    p.centralAt p.old
  status : ∀ read, p.status = some read → read.Follows p.data p.originAt

namespace StoredPull

variable {p : StoredPull} {host : String}

theorem landing_hostvars {scope : SyncScope} {dataset : Dataset}
    (hmem : host ∈ dataset.hostvars) :
    (scope.landing dataset).hostvars[host]? = dataset.hostvars[host]? := by
  obtain ⟨vars, hvars⟩ := (StrMap.mem_iff_exists _ _).mp hmem
  cases scope with
  | full => exact (Dataset.addGroupMembers_hostvars hvars).trans hvars.symm
  | hosts hosts => rfl
  | group group => rfl

/-- What a carried age leaves in the entry. -/
theorem Carries.stamp {read : StatusRead} {stamp : Nat} (h : p.Carries host read stamp) :
    carriedStamp p.pull.scope (p.pull.output p.data p.status) host p.centralAt =
      some (backdated (asSecs (elapsed read.readAt stamp)) p.centralAt) := by
  have hages : (p.pull.output p.data p.status).ages =
      some (fetchAges p.pull.params read.entry read.readAt) := by
    rw [RemotePull.output, h.answered, Option.map_some]
  refine carriedStamp_listed hages ?_ h.representable
  rw [fetchAges_hostAges, if_pos h.listed, hostAgeSeconds, h.stamped, Option.map_some]

/-- Where no age is carried, the clock could not represent one. -/
theorem not_le_of_uncarried {read : StatusRead} {age : Nat}
    (hkeeps : KeepsHostAge p.pull.source p.pull.scope (p.pull.output p.data p.status) p.old host)
    (huncarried : ¬ ∃ read stamp, p.Carries host read stamp) (hread : p.status = some read)
    (hage : (fetchAges p.pull.params read.entry read.readAt).hostAges[host]? = some age) :
    ¬ fromSecs age ≤ p.centralAt := by
  rw [fetchAges_hostAges] at hage
  split at hage
  · rename_i hlisted
    obtain ⟨stamp, hstamp, rfl⟩ := Option.map_eq_some_iff.mp hage
    exact fun hrep => huncarried ⟨read, stamp, hread, hkeeps, hlisted, hstamp, hrep⟩
  · cases hage

theorem LeavesUnstamped.stamp (h : p.LeavesUnstamped host)
    (huncarried : ¬ ∃ read stamp, p.Carries host read stamp) :
    carriedStamp p.pull.scope (p.pull.output p.data p.status) host p.centralAt = none := by
  obtain ⟨read, hread⟩ := Option.ne_none_iff_exists'.mp h.answered
  have hages : (p.pull.output p.data p.status).ages =
      some (fetchAges p.pull.params read.entry read.readAt) := by
    rw [RemotePull.output, hread, Option.map_some]
  simp only [carriedStamp, h.full, hages]
  cases hage : (fetchAges p.pull.params read.entry read.readAt).hostAges[host]? with
  | none => rfl
  | some age =>
    have hno := not_le_of_uncarried h.keeps huncarried hread hage
    rw [Option.bind_some, checkedSub_of_lt (Nat.lt_of_not_le hno)]

theorem uncarried_stamp
    (hkeeps : KeepsHostAge p.pull.source p.pull.scope (p.pull.output p.data p.status) p.old host)
    (huncarried : ¬ ∃ read stamp, p.Carries host read stamp) (hstamped : ¬ p.LeavesUnstamped host) :
    carriedStamp p.pull.scope (p.pull.output p.data p.status) host p.centralAt =
      some p.centralAt := by
  cases hread : p.status with
  | none => exact carriedStamp_ageless (by rw [RemotePull.output]; rfl)
  | some read =>
    have hscope : p.pull.scope ≠ .full := fun hfull =>
      hstamped ⟨hkeeps, hfull, by rw [hread]; exact Option.some_ne_none read⟩
    have hage : backdated ((p.pull.output p.data (some read)).ageOf host) p.centralAt =
        p.centralAt := by
      have hageOf : (p.pull.output p.data (some read)).ageOf host =
          ((fetchAges p.pull.params read.entry read.readAt).hostAges[host]?).getD 0 := rfl
      rw [hageOf]
      cases hage : (fetchAges p.pull.params read.entry read.readAt).hostAges[host]? with
      | none => exact backdated_zero _
      | some age => exact backdated_of_not_le (not_le_of_uncarried hkeeps huncarried hread hage)
    cases hpull : p.pull.scope with
    | full => exact absurd hpull hscope
    | hosts hosts => simp only [carriedStamp, hage]
    | group group => simp only [carriedStamp, hage]

/-- The entry after the write, as it has a host that the pull brought. -/
theorem Recorded.stamp (h : p.Recorded) (hstores : p.Stores host) :
    ∃ entry, p.entry = some entry ∧
      entry.dataset.hostvars[host]? = p.data.dataset.hostvars[host]? ∧
      (∀ read stamp, p.Carries host read stamp → entry.hostTimestamps[host]? =
        some (backdated (asSecs (elapsed read.readAt stamp)) p.centralAt)) ∧
      ((¬ ∃ read stamp, p.Carries host read stamp) →
        (p.LeavesUnstamped host → entry.hostTimestamps[host]? = none) ∧
        (¬ p.LeavesUnstamped host → entry.hostTimestamps[host]? = some p.centralAt)) := by
  obtain ⟨entry, hentry, hvars, hkept, hlost⟩ := syncedEntry_written p.centralAt hstores.2
  refine ⟨entry, h.entry.trans hentry, hvars.trans (landing_hostvars hstores.1), ?_, ?_⟩
  · intro read stamp hcarries
    exact (hkept hcarries.keeps).trans hcarries.stamp
  · intro huncarried
    refine ⟨fun hleaves => (hkept hleaves.keeps).trans (hleaves.stamp huncarried), ?_⟩
    intro hstamped
    by_cases hkeeps : KeepsHostAge p.pull.source p.pull.scope (p.pull.output p.data p.status)
        p.old host
    · exact (hkept hkeeps).trans (uncarried_stamp hkeeps huncarried hstamped)
    · exact hlost hkeeps

/-- The true age at the write, from the age that the status saw. -/
theorem elapsed_gathered {read : StatusRead} {stamp : Nat} (h : read.Follows p.data p.originAt)
    (hstamp : read.entry.hostTimestamps[host]? = some stamp) :
    elapsed p.originAt (p.data.gathered host) = elapsed read.readAt stamp +
      (elapsed p.originAt read.readAt + elapsed stamp (p.data.gathered host)) := by
  obtain ⟨hgathered, hread⟩ := h.stamps host stamp hstamp
  have hle := h.read_le
  simp only [elapsed]
  omega

/-- A pull records true ages exactly when it was in time. -/
theorem Recorded.truthful_iff (h : p.Recorded) : p.Truthful ↔ p.InTime := by
  refine forall_congr' fun host => forall_congr' fun hstores => ?_
  obtain ⟨entry, hentry, hvars, hcarried, hleft⟩ := h.stamp hstores
  have hrecorded : p.AgedTruly host ↔ ∃ recorded,
      entry.hostAgeSeconds host p.centralAt = some recorded ∧
        elapsed p.originAt (p.data.gathered host) < fromSecs recorded + fromSecs 1 := by
    constructor
    · intro haged
      obtain ⟨entry', recorded, hentry', _, hage, hlt⟩ := haged
      obtain rfl := Option.some.inj (hentry.symm.trans hentry')
      exact ⟨recorded, hage, hlt⟩
    · intro haged
      obtain ⟨recorded, hage, hlt⟩ := haged
      exact ⟨entry, recorded, hentry, hvars, hage, hlt⟩
  rw [hrecorded]
  by_cases hcarries : ∃ read stamp, p.Carries host read stamp
  · obtain ⟨read, stamp, hcarries⟩ := hcarries
    have hage : entry.hostAgeSeconds host p.centralAt =
        some (asSecs (elapsed read.readAt stamp)) := by
      rw [hostAgeSeconds, hcarried read stamp hcarries, Option.map_some,
        asSecs_elapsed_backdated hcarries.representable]
    have htrue := elapsed_gathered (h.status read hcarries.answered) hcarries.stamped
    rw [hage]
    constructor
    · intro haged
      obtain ⟨recorded, heq, hlt⟩ := haged
      obtain rfl := Option.some.inj heq
      rw [htrue, add_lt_asSecs_iff] at hlt
      exact .inl ⟨read, stamp, hcarries, hlt⟩
    · intro hintime
      refine ⟨_, rfl, ?_⟩
      rcases hintime with ⟨read', stamp', hcarries', hlt⟩ | ⟨_, hlt⟩
      · obtain rfl := Option.some.inj (hcarries.answered.symm.trans hcarries'.answered)
        obtain rfl := Option.some.inj (hcarries.stamped.symm.trans hcarries'.stamped)
        rw [htrue, add_lt_asSecs_iff]
        exact hlt
      · omega
  · obtain ⟨hnone, hnow⟩ := hleft hcarries
    constructor
    · intro haged
      obtain ⟨recorded, hage, hlt⟩ := haged
      by_cases hleaves : p.LeavesUnstamped host
      · rw [hostAgeSeconds, hnone hleaves] at hage
        cases hage
      · rw [hostAgeSeconds, hnow hleaves, Option.map_some, elapsed_self] at hage
        obtain rfl := Option.some.inj hage
        exact .inr ⟨hleaves, by simpa [asSecs] using hlt⟩
    · intro hintime
      rcases hintime with ⟨read, stamp, hcarries', _⟩ | ⟨hleaves, hlt⟩
      · exact absurd ⟨read, stamp, hcarries'⟩ hcarries
      · refine ⟨0, ?_, by omega⟩
        rw [hostAgeSeconds, hnow hleaves, Option.map_some, elapsed_self]
        rfl

end StoredPull

/-! ## Runs -/

namespace PullRun

variable {originId : String}

def PhaseInv (gathered : String → Nat) (clock : Nat) : PullPhase → Prop
  | .asking => True
  | .fetched data => ∀ host, data.gathered host ≤ gathered host
  | .aged data status => ∀ read, status = some read → read.Follows data clock

/-- The origin stamps no host earlier than it gathered it, and what the puller
holds was gathered no later than what the origin has now. -/
structure Inv (originId : String) (s : PullRun) : Prop where
  gathered_le : ∀ host, s.gathered host ≤ s.originClock
  stamps : ∀ entry, s.origin.get originId = some entry → ∀ host stamp,
    entry.hostTimestamps[(host : String)]? = some stamp →
    s.gathered host ≤ stamp ∧ stamp ≤ s.originClock
  memo : ∀ memo, s.memo = some memo → ∀ host, memo.data.gathered host ≤ s.gathered host
  pull : ∀ pull, s.pull = some pull → PhaseInv s.gathered s.originClock pull.phase
  stored : ∀ p ∈ s.stored, p.Recorded

theorem PhaseInv.mono {gathered gathered' : String → Nat} {clock clock' : Nat} {phase : PullPhase}
    (h : PhaseInv gathered clock phase) (hgathered : ∀ host, gathered host ≤ gathered' host)
    (hclock : clock ≤ clock') : PhaseInv gathered' clock' phase := by
  cases phase with
  | asking => trivial
  | fetched data => exact fun host => (h host).trans (hgathered host)
  | aged data status =>
    intro read hread
    obtain ⟨hle, hstamps⟩ := h read hread
    exact ⟨hle.trans hclock, hstamps⟩

/-- The origin's stamps after one of its gathers. -/
theorem gather_stamps {s : PullRun} (h : s.Inv originId) {source : Source} {scope : SyncScope}
    {output : ConnectorOutput} {etag : String} (hages : output.ages = none) {entry : CacheEntry}
    (hentry : (s.gather originId source scope output etag).origin.get originId = some entry)
    {host : String} {stamp : Nat} (hstamp : entry.hostTimestamps[host]? = some stamp) :
    (s.gather originId source scope output etag).gathered host ≤ stamp ∧
      stamp ≤ s.originClock := by
  have hsynced : syncedEntry source scope output s.originClock (s.origin.get originId) =
      some entry := by
    rw [← hentry, gather, get_applyToCache, if_pos rfl]
  by_cases hw : WritesHost source scope output (s.origin.get originId) host
  · obtain ⟨entry', hentry', _, hkept, hlost⟩ := syncedEntry_written s.originClock hw
    obtain rfl := Option.some.inj (hsynced.symm.trans hentry')
    have hnow : entry.hostTimestamps[host]? = some s.originClock := by
      by_cases hkeeps : KeepsHostAge source scope output (s.origin.get originId) host
      · exact (hkept hkeeps).trans (carriedStamp_ageless hages)
      · exact hlost hkeeps
    obtain rfl := Option.some.inj (hnow.symm.trans hstamp)
    simp only [gather, if_pos hw, le_refl, and_self]
  · have hgathered : (s.gather originId source scope output etag).gathered host =
        s.gathered host := if_neg hw
    rw [hgathered]
    rcases syncedEntry_frame hsynced hw with ⟨_, hgone⟩ | ⟨previous, hprevious, hsame | hretained⟩
    · rw [hgone hages] at hstamp
      cases hstamp
    · have hold : previous.hostTimestamps[host]? = some stamp :=
        (congrArg Prod.snd hsame).symm.trans hstamp
      exact h.stamps previous hprevious host stamp hold
    · have hmoved := (congrArg Prod.snd hretained).symm.trans hstamp
      rw [Option.some.injEq, hostAgeSeconds] at hmoved
      cases hold : previous.hostTimestamps[host]? with
      | none =>
        rw [hold, Option.map_none, Option.getD_none, backdated_zero] at hmoved
        subst hmoved
        exact ⟨h.gathered_le host, le_refl _⟩
      | some earlier =>
        obtain ⟨hearlier, hle⟩ := h.stamps previous hprevious host earlier hold
        obtain ⟨hfrom, hto⟩ := backdated_elapsed hle
        rw [hold, Option.map_some, Option.getD_some] at hmoved
        subst hmoved
        exact ⟨hearlier.trans hfrom, hto⟩

theorem gather_inv {s : PullRun} (h : s.Inv originId) {source : Source} {scope : SyncScope}
    {output : ConnectorOutput} {etag : String} (hages : output.ages = none) :
    (s.gather originId source scope output etag).Inv originId := by
  have hlater : ∀ host, s.gathered host ≤
      (s.gather originId source scope output etag).gathered host := by
    intro host
    simp only [gather]
    split
    · exact h.gathered_le host
    · exact le_refl _
  constructor
  · intro host
    simp only [gather]
    split
    · exact le_refl _
    · exact h.gathered_le host
  · exact fun entry hentry host stamp hstamp => gather_stamps h hages hentry hstamp
  · exact fun memo hmemo host => (h.memo memo hmemo host).trans (hlater host)
  · exact fun pull hpull => (h.pull pull hpull).mono hlater (le_refl _)
  · exact h.stored

variable {ops : TextOps} {readQuery : String → Option DatasetParams}

/-- What is fetched is no newer than what the origin has. -/
theorem fetch_gathered {s : PullRun} (h : s.Inv originId) {pull : RemotePull}
    {data : GatheredDataset} (hfetch : s.fetch ops originId pull = some data) (host : String) :
    data.gathered host ≤ s.gathered host := by
  obtain ⟨entry, _, hdata⟩ := Option.bind_eq_some_iff.mp hfetch
  split at hdata
  · rename_i memo hunchanged
    obtain rfl := Option.some.inj hdata
    have hmemo : s.memo = some memo := by
      obtain ⟨hkept, _⟩ := Option.filter_eq_some_iff.mp hunchanged
      split at hkept
      · exact hkept
      · cases hkept
    simp only [notModified]
    split
    · exact le_refl _
    · exact h.memo memo hmemo host
  · obtain ⟨body, _, rfl⟩ := Option.map_eq_some_iff.mp hdata
    exact le_refl _

theorem fetched_inv {s : PullRun} (h : s.Inv originId) {pull : RemotePull}
    {data : GatheredDataset} (hfetch : s.fetch ops originId pull = some data) :
    Inv originId { s with
      memo := s.remember pull data
      pull := some { pull with phase := .fetched data } } := by
  refine ⟨h.gathered_le, h.stamps, ?_, ?_, h.stored⟩
  · intro memo hmemo
    simp only [remember] at hmemo
    split at hmemo
    · obtain rfl := Option.some.inj hmemo
      exact fetch_gathered h hfetch
    · exact h.memo memo hmemo
  · intro pull' hpull
    obtain rfl := Option.some.inj hpull
    exact fetch_gathered h hfetch

/-- A status read now speaks of nothing older than what was fetched before. -/
theorem status_follows {s : PullRun} (h : s.Inv originId) {data : GatheredDataset}
    (hdata : ∀ host, data.gathered host ≤ s.gathered host) {entry : CacheEntry}
    (hentry : s.origin.get originId = some entry) :
    StatusRead.Follows ⟨entry, s.originClock⟩ data s.originClock := by
  refine ⟨le_refl _, fun host stamp hstamp => ?_⟩
  obtain ⟨hgathered, hle⟩ := h.stamps entry hentry host stamp hstamp
  exact ⟨(hdata host).trans hgathered, hle⟩

theorem store_inv {s : PullRun} (h : s.Inv originId) {pull : RemotePull} {data : GatheredDataset}
    {status : Option StatusRead} (hpull : s.pull = some pull)
    (hphase : pull.phase = .aged data status) :
    (s.store pull data status).Inv originId := by
  have hinv := h.pull pull hpull
  rw [hphase] at hinv
  refine ⟨h.gathered_le, h.stamps, h.memo, (fun _ hnone => by cases hnone), ?_⟩
  intro p hp
  rcases List.mem_cons.mp hp with rfl | hp
  · exact ⟨by dsimp only; rw [get_applyToCache, if_pos rfl], hinv⟩
  · exact h.stored p hp

theorem step_inv {s s' : PullRun} {event : PullEvent} (h : s.Inv originId)
    (hs : s.step ops readQuery originId event = some s') : s'.Inv originId := by
  have hfree : Inv originId { s with pull := none } :=
    ⟨h.gathered_le, h.stamps, h.memo, (fun _ hnone => by cases hnone), h.stored⟩
  cases event with
  | pass duration =>
    obtain rfl := Option.some.inj hs
    have hlater : s.originClock ≤ s.originClock + duration := Nat.le_add_right _ _
    refine ⟨fun host => (h.gathered_le host).trans hlater, ?_, h.memo,
      fun pull hpull => (h.pull pull hpull).mono (fun _ => le_refl _) hlater, h.stored⟩
    intro entry hentry host stamp hstamp
    obtain ⟨hgathered, hle⟩ := h.stamps entry hentry host stamp hstamp
    exact ⟨hgathered, hle.trans hlater⟩
  | gather source scope dataset unreachable etag =>
    obtain rfl := Option.some.inj hs
    exact gather_inv h rfl
  | write write =>
    obtain rfl := Option.some.inj hs
    exact ⟨h.gathered_le, h.stamps, h.memo, h.pull, h.stored⟩
  | begin sourceId source request =>
    simp only [step] at hs
    split at hs
    · cases hs
    · obtain rfl := Option.some.inj hs
      refine ⟨h.gathered_le, h.stamps, h.memo, ?_, h.stored⟩
      intro pull hpull
      obtain ⟨params, _, rfl⟩ := Option.map_eq_some_iff.mp hpull
      trivial
  | getDataset =>
    obtain ⟨pull, hpull, hs⟩ := Option.bind_eq_some_iff.mp hs
    split at hs
    · obtain rfl := Option.some.inj hs
      split
      · rename_i data hfetch
        exact fetched_inv h hfetch
      · exact hfree
    · cases hs
  | getStatus answered =>
    obtain ⟨pull, hpull, hs⟩ := Option.bind_eq_some_iff.mp hs
    split at hs
    · rename_i data hphase
      have hdata := h.pull pull hpull
      rw [hphase] at hdata
      obtain rfl := Option.some.inj hs
      refine ⟨h.gathered_le, h.stamps, h.memo, ?_, h.stored⟩
      intro pull' hpull'
      obtain rfl := Option.some.inj hpull'
      intro read hread
      split at hread
      · obtain ⟨entry, hentry, rfl⟩ := Option.map_eq_some_iff.mp hread
        exact status_follows h hdata hentry
      · cases hread
    · cases hs
  | store =>
    obtain ⟨pull, hpull, hs⟩ := Option.bind_eq_some_iff.mp hs
    split at hs
    · rename_i data status hphase
      obtain rfl := Option.some.inj hs
      exact store_inv h hpull hphase
    · cases hs
  | abandon =>
    obtain rfl := Option.some.inj hs
    exact hfree

/-- Nothing pulled yet, and an origin that stamps no host earlier than it
gathered it. -/
structure Starts (originId : String) (s : PullRun) : Prop where
  gathered_le : ∀ host, s.gathered host ≤ s.originClock
  stamps : ∀ entry, s.origin.get originId = some entry → ∀ host stamp,
    entry.hostTimestamps[(host : String)]? = some stamp →
    s.gathered host ≤ stamp ∧ stamp ≤ s.originClock
  memo : s.memo = none
  pull : s.pull = none
  stored : s.stored = []

theorem Starts.inv {s : PullRun} (h : s.Starts originId) : s.Inv originId where
  gathered_le := h.gathered_le
  stamps := h.stamps
  memo memo hmemo := by
    rw [h.memo] at hmemo
    cases hmemo
  pull pull hpull := by
    rw [h.pull] at hpull
    cases hpull
  stored p hp := by
    rw [h.stored] at hp
    cases hp

theorem reach_recorded {start s : PullRun} (hstart : start.Starts originId)
    (h : Runs.Reach (step ops readQuery originId) Runs.Any start s) {p : StoredPull}
    (hp : p ∈ s.stored) : p.Recorded :=
  (h.invariant hstart.inv fun _ _ _ hinv _ hs => step_inv hinv hs).stored p hp

/-- Wherever the origin's gathers fall, a pull that was written records no host
younger than it is, but for less than a second, exactly when it was in time. -/
theorem pull_truthful_iff {start s : PullRun} (hstart : start.Starts originId)
    (h : Runs.Reach (step ops readQuery originId) Runs.Any start s) {p : StoredPull}
    (hp : p ∈ s.stored) : p.Truthful ↔ p.InTime :=
  (reach_recorded hstart h hp).truthful_iff

/-- One host, at its `n`-th gather. -/
def nthGather (n : Nat) : Dataset where
  hostvars := (∅ : StrMap HostVars).insert "a"
    ((∅ : HostVars).insert "gather" (.number (.posInt n)))

/-- The origin gathered a hundred seconds ago; the puller has been up for
longer. -/
def gatheredOnce : PullRun where
  originClock := fromSecs 100
  centralClock := fromSecs 1000
  origin := MemoryCache.set {} "facts" (.new (nthGather 1) 60 0)
  gathered _ := 0

theorem gatheredOnce_starts : gatheredOnce.Starts "facts" := by
  refine ⟨fun _ => Nat.zero_le _, ?_, rfl, rfl, rfl⟩
  intro entry hentry host stamp hstamp
  obtain rfl : CacheEntry.new (nthGather 1) 60 0 = entry := by
    rw [gatheredOnce, MemoryCache.get_set, if_pos rfl] at hentry
    exact Option.some.inj hentry
  rw [new_timestamp] at hstamp
  obtain ⟨_, _, rfl⟩ := Option.map_eq_some_iff.mp hstamp
  exact ⟨le_refl _, Nat.zero_le _⟩

/-- A full pull, and what happens between its two requests. -/
def pullAround (between : List PullEvent) : List PullEvent :=
  [.begin "edge" { connectorType := .remote, ttlSeconds := 60 } (.new .full), .getDataset] ++
    between ++ [.getStatus true, .store]

/-- The run of such a pull. -/
abbrev Pulled (between : List PullEvent) (s : PullRun) (p : StoredPull) : Prop :=
  Runs.exec (step ReadState.plainText (fun _ => none) "facts") gatheredOnce (pullAround between) =
      some s ∧ p ∈ s.stored

/-- Nothing comes between, and the pull is in time. -/
theorem undisturbed_truthful : ∃ s p, Pulled [] s p ∧ p.Stores "a" ∧ p.Truthful := by
  have htrue : ∀ s p, Pulled [] s p → p.InTime → p.Truthful := by
    intro s p ⟨hexec, hp⟩ hintime
    exact (pull_truthful_iff gatheredOnce_starts (Runs.Reach.start.of_exec hexec) hp).mpr hintime
  refine ⟨_, _, ⟨rfl, List.mem_cons_self⟩, by decide, htrue _ _ ⟨rfl, List.mem_cons_self⟩ ?_⟩
  intro host hstores
  obtain ⟨vars, hvars⟩ := (StrMap.mem_iff_exists _ _).mp hstores.1
  have hhost : (if "a" = host then some _ else (∅ : StrMap HostVars)[host]?) = some vars :=
    (StrMap.getElem?_insert _ _ _ _).symm.trans hvars
  split at hhost
  · rename_i heq
    subst heq
    refine .inl ⟨_, fromSecs 0, ⟨rfl, ⟨rfl, rfl⟩, by decide, by decide, by decide⟩, by decide⟩
  · simp at hhost

/-- The origin gathers between the two requests: what it gathered a hundred
seconds ago is recorded as gathered now. -/
theorem gatherBetween_forgets : ∃ s p,
    Pulled [.gather { ttlSeconds := 60 } .full (nthGather 2) [] "2"] s p ∧ ¬ p.Truthful := by
  have hforgets : ∀ s p, Pulled [.gather { ttlSeconds := 60 } .full (nthGather 2) [] "2"] s p →
      p.Stores "a" → p.originAt = fromSecs 100 →
      p.data.gathered "a" = 0 → (∀ read, p.status = some read →
        read.readAt = fromSecs 100 ∧ read.entry.hostTimestamps["a"]? = some (fromSecs 100)) →
      ¬ p.Truthful := by
    intro s p ⟨hexec, hp⟩ hstores hwritten hgathered hread htrue
    have hrecorded := reach_recorded gatheredOnce_starts (Runs.Reach.start.of_exec hexec) hp
    rcases hrecorded.truthful_iff.mp htrue "a" hstores with ⟨read, stamp, hcarries, hlt⟩ | ⟨_, hlt⟩
    · obtain ⟨hreadAt, hstamp⟩ := hread read hcarries.answered
      obtain rfl := Option.some.inj (hstamp.symm.trans hcarries.stamped)
      rw [hreadAt, hwritten, hgathered] at hlt
      exact absurd hlt (by decide)
    · rw [hwritten, hgathered] at hlt
      exact absurd hlt (by decide)
  refine ⟨_, _, ⟨rfl, List.mem_cons_self⟩, hforgets _ _ ⟨rfl, List.mem_cons_self⟩ (by decide)
    (by decide) (by decide) ?_⟩
  intro read hread
  obtain rfl := Option.some.inj hread
  exact ⟨by decide, by decide⟩

end PullRun

end UnifiedApi
