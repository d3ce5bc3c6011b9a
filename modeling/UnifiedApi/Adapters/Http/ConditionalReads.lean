import UnifiedApi.Adapters.Http.Dataset
import UnifiedApi.Application.SnapshotReads
import UnifiedApi.Cache.Writes
import UnifiedApi.Lib.Runs
import UnifiedApi.Lib.Validators

/-! # Conditional reads of filtered sources and views

A read looks up whether its id is a view, takes the entry or the snapshot,
reads the generation and compares, while writes, reloads, recordings of scopes
and restarts go on. A plain read of a source has a validator made of its
content and takes no part. -/

namespace UnifiedApi

/-! ## Validators -/

/-- A hash of the id and of every parameter, and the cache generation. -/
def datasetEtag (hash generation : UInt64) : String :=
  "\"" ++ String.ofList (Nat.toDigits 16 hash.toNat) ++ "-" ++ toString generation.toNat ++ "\""

/-- A list of validators, one of them the current one or a star. -/
def ifNoneMatch (header : Option String) (etag : String) : Bool :=
  header.any fun value => (value.toList.splitOn ',').any fun candidate =>
    Text.trim candidate == etag.toList || Text.trim candidate == ['*']

theorem datasetEtag_toList (hash generation : UInt64) :
    (datasetEtag hash generation).toList = '"' ::
      ((Nat.toDigits 16 hash.toNat ++ '-' :: Nat.toDigits 10 generation.toNat) ++ ['"']) := by
  simp [datasetEtag, String.toList_append]

theorem datasetEtag_inj {hash generation generation' : UInt64}
    (h : datasetEtag hash generation = datasetEtag hash generation') :
    generation = generation' := by
  have hlist := congrArg String.toList h
  rw [datasetEtag_toList, datasetEtag_toList] at hlist
  have hinner := List.append_cancel_right (List.cons.inj hlist).2
  have hdigits := (List.cons.inj (List.append_cancel_left hinner)).2
  have hnum := congrArg (fun digits => Nat.ofDigitChars 10 digits 0) hdigits
  simp only [Nat.ofDigitChars_ten_toDigits] at hnum
  exact UInt64.toNat_inj.mp hnum

/-- A client that sends back the validator it was given is recognised. -/
theorem ifNoneMatch_self (hash generation : UInt64) :
    ifNoneMatch (some (datasetEtag hash generation)) (datasetEtag hash generation) = true := by
  have hcomma : ∀ c ∈ (datasetEtag hash generation).toList, (c == ',') = false := by
    intro c hc
    rw [beq_eq_false_iff_ne]
    intro heq
    subst heq
    rw [datasetEtag_toList] at hc
    simp [Text.comma_notMem_toDigits] at hc
  have hsplit : (datasetEtag hash generation).toList.splitOn ',' =
      [(datasetEtag hash generation).toList] := by
    rw [List.splitOn_eq_splitOnP]
    exact List.splitOnP_eq_singleton hcomma
  have htrim : Text.trim (datasetEtag hash generation).toList =
      (datasetEtag hash generation).toList := by
    rw [datasetEtag_toList, Text.trim_quoted]
  simp [ifNoneMatch, hsplit, htrim]

/-! ## What a read takes -/

/-- What every read looks at. -/
structure AppState where
  cache : MemoryCache := {}
  config : Config := {}
  advertisedScopes : AdvertisedScopeRegistry := ∅
  deriving DecidableEq

/-- What a read answers from, once it has taken it. -/
inductive ReadData where
  | source (dataset : Dataset)
  | view (members : List MemberSnapshot)
  deriving DecidableEq

/-- What a read of the id would take if it took it at once. -/
def AppState.read (app : AppState) (id : String) : Option ReadData :=
  match app.config.views[id]? with
  | some view => some (.view (snapshot app.cache app.config.sources app.advertisedScopes view))
  | none => (app.cache.get id).map fun entry => .source entry.dataset

/-- The 200 body behind a validator that names the generation: of any read of
a view that is no error, and of a filtered read of a source. -/
def ReadData.body (ops : TextOps) (id : String) (params : DatasetParams) :
    ReadData → Option DatasetBody
  | .source dataset => match params.hostFilter ops with
    | .error _ => none
    | .ok hostFilter =>
      if params.isPlain then none else some (.page (sourcePage ops id params hostFilter dataset))
  | .view members => match params.hostFilter ops with
    | .error _ => none
    | .ok hostFilter => (viewBody ops id params hostFilter ⟨members, false⟩).toOption

/-! ## Reads in flight -/

structure DatasetRequest where
  id : String
  params : DatasetParams := {}
  ifNoneMatch : Option String := none
  deriving DecidableEq

inductive ReadPhase where
  /-- Whether the id is a view has been looked up; a refresh runs here. -/
  | dispatched (view : Option View)
  | looking (lookup : SnapshotLookup)
  | taken (data : ReadData)
  deriving DecidableEq

structure DatasetRead where
  request : DatasetRequest
  phase : ReadPhase
  deriving DecidableEq

namespace DatasetRead

/-- The entry, or the snapshot once its last lookup is done. -/
def takes (app : AppState) (read : DatasetRead) : Option ReadData :=
  match read.phase with
  | .dispatched none => (app.cache.get read.request.id).map fun entry => .source entry.dataset
  | .looking lookup => if lookup.rest.isEmpty then some (.view lookup.members) else none
  | _ => none

/-- The next step up to the taking; `none` is a 404. -/
def advance (app : AppState) (read : DatasetRead) : Option DatasetRead :=
  match read.takes app with
  | some data => some { read with phase := .taken data }
  | none => match read.phase with
    | .dispatched none => none
    | .dispatched (some view) => some { read with
        phase := .looking { sources := app.config.sources, rest := view.members } }
    | .looking lookup => some { read with
        phase := .looking (lookup.next app.cache app.advertisedScopes) }
    | .taken _ => some read

end DatasetRead

/-- A response with a generation in its validator, and what it was made from;
a 304 is `notModified`. -/
structure DatasetAnswer where
  request : DatasetRequest
  generation : UInt64
  data : ReadData
  notModified : Bool
  deriving DecidableEq

namespace DatasetAnswer

def etag (hash : String → DatasetParams → UInt64) (answer : DatasetAnswer) : String :=
  datasetEtag (hash answer.request.id answer.request.params) answer.generation

/-- The 200 body, sent or not. -/
def body (ops : TextOps) (answer : DatasetAnswer) : Option DatasetBody :=
  answer.data.body ops answer.request.id answer.request.params

end DatasetAnswer

/-- The process and every response so far, of earlier processes too. `minted`
is history: what reads looked at when the generation last changed. -/
structure ReadState where
  app : AppState
  unbumped : Nat := 0
  reads : List DatasetRead := []
  answered : List DatasetAnswer := []
  minted : AppState
  deriving DecidableEq

inductive ReadEvent where
  | write (write : CacheWrite)
  | bump
  | reload (config : Config)
  | record (sourceId : String) (claim : ScopeClaim)
  | request (request : DatasetRequest)
  | advance (i : Nat)
  | answer (i : Nat)
  | drop (i : Nat)
  | restart (config : Config)

namespace ReadState

/-- A process that has just started. -/
def boot (config : Config) : ReadState := { app := { config }, minted := { config } }

def generation (s : ReadState) : UInt64 := s.app.cache.generation

def nextGeneration (s : ReadState) : UInt64 := s.app.cache.generation + 1

def withStore (s : ReadState) (store : StrMap CacheEntry) : ReadState :=
  { s with app := { s.app with cache := { s.app.cache with store } } }

def bumped (s : ReadState) : ReadState :=
  let app := { s.app with cache := s.app.cache.bumpGeneration }
  { s with app, minted := app }

variable (ops : TextOps) (hash : String → DatasetParams → UInt64)

/-- The generation is read, the validator minted and compared. -/
def respond (s : ReadState) (request : DatasetRequest) (data : ReadData) : List DatasetAnswer :=
  match data.body ops request.id request.params with
  | none => []
  | some _ =>
    let etag := datasetEtag (hash request.id request.params) s.generation
    [⟨request, s.generation, data, ifNoneMatch request.ifNoneMatch etag⟩]

def step (s : ReadState) : ReadEvent → Option ReadState
  | .write write => match write.store s.app.cache with
    | none => some s
    | some store =>
      if write.guarded then some (s.withStore store).bumped
      else some { s.withStore store with unbumped := s.unbumped + 1 }
  | .bump =>
    if s.unbumped = 0 then none else some { s.bumped with unbumped := s.unbumped - 1 }
  | .reload config => some { s with app := { s.app with config } }
  | .record sourceId claim => some { s with
      app := { s.app with advertisedScopes := s.app.advertisedScopes.record sourceId claim } }
  | .request request => some { s with
      reads := s.reads ++ [⟨request, .dispatched s.app.config.views[request.id]?⟩] }
  | .advance i => s.reads[i]?.map fun read => match read.advance s.app with
    | some read => { s with reads := s.reads.set i read }
    | none => { s with reads := s.reads.eraseIdx i }
  | .answer i => s.reads[i]?.bind fun read => match read.phase with
    | .taken data => some { s with
        reads := s.reads.eraseIdx i
        answered := s.answered ++ s.respond ops hash read.request data }
    | _ => none
  | .drop i => some { s with reads := s.reads.eraseIdx i }
  | .restart config => some { boot config with answered := s.answered }

/-! ## Settled steps -/

/-- The data may be minted as the next generation: what was answered under
that generation, and what the reads in flight took, is what reads take now. -/
structure Bumpable (s : ReadState) : Prop where
  answered : ∀ answer ∈ s.answered, answer.generation = s.nextGeneration →
    s.app.read answer.request.id = some answer.data
  reads : ∀ read ∈ s.reads, ∀ data, read.phase = .taken data →
    s.app.read read.request.id = some data

/-- A read takes what it would have taken when the generation last changed; a
generation is not used a second time, or in front of a read in flight, for
other data. -/
def Settled (s : ReadState) : ReadEvent → Prop
  | .write write => ∀ store, write.guarded = true → write.store s.app.cache = some store →
      (s.withStore store).Bumpable
  | .bump => s.Bumpable
  | .advance i => ∀ read data, s.reads[i]? = some read → read.takes s.app = some data →
      s.minted.read read.request.id = some data
  | .restart config => ∀ answer ∈ s.answered, answer.generation = 0 →
      (boot config).app.read answer.request.id = some answer.data
  | _ => True

/-- A 304 is answered only for a body that every response with the same
validator, to the same parameters, had. -/
def NeverStale (s : ReadState) : Prop :=
  ∀ answer ∈ s.answered, answer.notModified = true → ∀ earlier ∈ s.answered,
    earlier.request.id = answer.request.id → earlier.request.params = answer.request.params →
    earlier.etag hash = answer.etag hash → earlier.body ops = answer.body ops

/-! ## A process as a server of validators -/

def render (id : String) (app : AppState) : Option ReadData := app.read id

def toAnswer (answer : DatasetAnswer) : Validators.Answer String ReadData UInt64 :=
  ⟨answer.request.id, answer.generation, answer.data⟩

def takenBy (reads : List DatasetRead) : Set (String × ReadData) :=
  {taken | ∃ read ∈ reads, read.request.id = taken.1 ∧ read.phase = .taken taken.2}

abbrev Server := Validators.State AppState String ReadData UInt64

def toServer (s : ReadState) : Server where
  data := s.app
  minted := s.minted
  generation := s.generation
  taken := takenBy s.reads
  answered := s.answered.map toAnswer

theorem takenBy_mono {reads reads' : List DatasetRead} (h : ∀ read ∈ reads', read ∈ reads) :
    takenBy reads' ⊆ takenBy reads := by
  intro taken htaken
  obtain ⟨read, hread, hphase⟩ := htaken
  exact ⟨read, h read hread, hphase⟩

theorem takenBy_nil : takenBy [] = ∅ := by
  refine Set.eq_empty_of_forall_notMem fun taken htaken => ?_
  obtain ⟨read, hread, _⟩ := htaken
  cases hread

theorem takenBy_eraseIdx (reads : List DatasetRead) (i : Nat) :
    takenBy (reads.eraseIdx i) ⊆ takenBy reads :=
  takenBy_mono fun _ hread => List.mem_of_mem_eraseIdx hread

abbrev Steps (s s' : Server) : Prop := Relation.ReflTransGen (Validators.Step render) s s'

theorem steps_bumped {s : ReadState} (h : s.Bumpable) : Steps s.toServer s.bumped.toServer := by
  have hchange : Validators.Step render s.toServer { s.toServer with data := s.bumped.app } :=
    .change _ _
  refine (Relation.ReflTransGen.single hchange).tail (.bump _ s.nextGeneration ?_ ?_)
  · intro answer hanswer hgeneration
    obtain ⟨original, hmem, rfl⟩ := List.mem_map.mp hanswer
    exact h.answered original hmem hgeneration
  · intro taken htaken
    obtain ⟨read, hread, hid, hphase⟩ := htaken
    have hsees := h.reads read hread taken.2 hphase
    rwa [hid] at hsees

/-- What a read does up to the taking. -/
theorem steps_advance {s : ReadState} {i : Nat} {read : DatasetRead}
    (hread : s.reads[i]? = some read)
    (hsettled : ∀ data, read.takes s.app = some data → s.minted.read read.request.id = some data)
    {read' : DatasetRead} (hadvance : read.advance s.app = some read') :
    Steps s.toServer { s with reads := s.reads.set i read' }.toServer := by
  have hmem := List.mem_of_getElem? hread
  unfold DatasetRead.advance at hadvance
  split at hadvance
  · rename_i data htakes
    obtain rfl := Option.some.inj hadvance
    refine (Relation.ReflTransGen.single
      (.take _ read.request.id data (hsettled data htakes))).tail (.keep _ _ ?_)
    intro taken htaken
    obtain ⟨other, hother, hid, hphase⟩ := htaken
    rcases List.mem_or_eq_of_mem_set hother with hold | hnew
    · exact .inr ⟨other, hold, hid, hphase⟩
    · subst hnew
      exact .inl (Prod.ext hid.symm (ReadPhase.taken.inj hphase).symm)
  · refine Relation.ReflTransGen.single (.keep _ _ ?_)
    intro taken htaken
    obtain ⟨other, hother, hid, hphase⟩ := htaken
    rcases List.mem_or_eq_of_mem_set hother with hold | hnew
    · exact ⟨other, hold, hid, hphase⟩
    · subst hnew
      split at hadvance
      · cases hadvance
      · obtain rfl := Option.some.inj hadvance
        cases hphase
      · obtain rfl := Option.some.inj hadvance
        cases hphase
      · obtain rfl := Option.some.inj hadvance
        exact ⟨read, hmem, hid, hphase⟩

theorem steps_answer {s : ReadState} {i : Nat} {read : DatasetRead} {data : ReadData}
    (hread : s.reads[i]? = some read) (hphase : read.phase = .taken data) :
    Steps s.toServer { s with
      reads := s.reads.eraseIdx i
      answered := s.answered ++ s.respond ops hash read.request data }.toServer := by
  have hmem : (read.request.id, data) ∈ s.toServer.taken :=
    ⟨read, List.mem_of_getElem? hread, rfl, hphase⟩
  unfold respond
  split
  · refine Relation.ReflTransGen.single ?_
    rw [List.append_nil]
    exact .keep _ _ (takenBy_eraseIdx s.reads i)
  · have hanswered : Validators.Step render s.toServer _ := .answer _ _ _ hmem
    refine (Relation.ReflTransGen.single hanswered).tail ?_
    unfold toServer
    rw [List.map_append]
    exact .keep _ _ (takenBy_eraseIdx s.reads i)

/-- The reads in flight are over; the new process has not read anything. -/
theorem steps_restart {s fresh : ReadState} (hreads : fresh.reads = [])
    (hminted : fresh.minted = fresh.app)
    (hfits : ∀ answer ∈ s.answered, answer.generation = fresh.generation →
      fresh.app.read answer.request.id = some answer.data) :
    Steps s.toServer { fresh with answered := s.answered }.toServer := by
  have hkeep : Validators.Step render s.toServer { s.toServer with taken := ∅ } :=
    .keep _ _ (Set.empty_subset _)
  have hchange : Validators.Step render { s.toServer with taken := ∅ }
      { s.toServer with taken := ∅, data := fresh.app } := .change _ _
  have hbump : Validators.Step render { s.toServer with taken := ∅, data := fresh.app }
      { s.toServer with
        taken := ∅, data := fresh.app, minted := fresh.app, generation := fresh.generation } := by
    refine .bump _ _ ?_ nofun
    intro answer hanswer hgeneration
    obtain ⟨original, hmem, rfl⟩ := List.mem_map.mp hanswer
    exact hfits original hmem hgeneration
  have hfresh : { fresh with answered := s.answered }.toServer = { s.toServer with
      taken := ∅, data := fresh.app, minted := fresh.app, generation := fresh.generation } := by
    unfold toServer
    rw [hreads, hminted, takenBy_nil]
    rfl
  rw [hfresh]
  exact ((Relation.ReflTransGen.single hkeep).tail hchange).tail hbump

/-- Settled steps are steps of the server. -/
theorem steps_of_settled {s s' : ReadState} {event : ReadEvent} (hsettled : s.Settled event)
    (hstep : step ops hash s event = some s') : Steps s.toServer s'.toServer := by
  cases event with
  | write write =>
    simp only [step] at hstep
    split at hstep
    · obtain rfl := Option.some.inj hstep
      exact .refl
    · rename_i store hstore
      have hchange : Steps s.toServer (s.withStore store).toServer := .single (.change _ _)
      split at hstep
      · rename_i hguarded
        obtain rfl := Option.some.inj hstep
        exact hchange.trans (steps_bumped (hsettled store hguarded hstore))
      · obtain rfl := Option.some.inj hstep
        exact hchange
  | bump =>
    simp only [step] at hstep
    split at hstep
    · cases hstep
    · obtain rfl := Option.some.inj hstep
      exact steps_bumped hsettled
  | reload config =>
    obtain rfl := Option.some.inj hstep
    exact .single (.change _ _)
  | record sourceId claim =>
    obtain rfl := Option.some.inj hstep
    exact .single (.change _ _)
  | request request =>
    obtain rfl := Option.some.inj hstep
    refine .single (.keep _ _ ?_)
    intro taken htaken
    obtain ⟨read, hread, hid, hphase⟩ := htaken
    rcases List.mem_append.mp hread with hold | hnew
    · exact ⟨read, hold, hid, hphase⟩
    · obtain rfl := List.mem_singleton.mp hnew
      cases hphase
  | advance i =>
    obtain ⟨read, hread, hadvance⟩ := Option.map_eq_some_iff.mp hstep
    split at hadvance
    · rename_i read' hread'
      subst hadvance
      exact steps_advance hread (fun data => hsettled read data hread) hread'
    · subst hadvance
      exact .single (.keep _ _ (takenBy_eraseIdx s.reads i))
  | answer i =>
    obtain ⟨read, hread, hanswer⟩ := Option.bind_eq_some_iff.mp hstep
    split at hanswer
    · rename_i data hphase
      obtain rfl := Option.some.inj hanswer
      exact steps_answer ops hash hread hphase
    · cases hanswer
  | drop i =>
    obtain rfl := Option.some.inj hstep
    exact .single (.keep _ _ (takenBy_eraseIdx s.reads i))
  | restart config =>
    obtain rfl := Option.some.inj hstep
    exact steps_restart rfl rfl hsettled

theorem toServer_boot (config : Config) :
    (boot config).toServer = { data := { config }, minted := { config }, generation := 0 } := by
  unfold toServer
  rw [show (boot config).reads = [] from rfl, takenBy_nil]
  rfl

/-! ## Pages read undisturbed -/

/-- A read of a source that nothing interrupts. -/
theorem read_undisturbed {s : ReadState} (hreads : s.reads = []) (request : DatasetRequest)
    (hview : s.app.config.views[request.id]? = none) {entry : CacheEntry}
    (hentry : s.app.cache.get request.id = some entry) :
    Runs.exec (step ops hash) s [.request request, .advance 0, .answer 0] = some { s with
      answered := s.answered ++ s.respond ops hash request (.source entry.dataset) } := by
  obtain ⟨app, unbumped, reads, answered, minted⟩ := s
  subst hreads
  simp [Runs.exec, step, DatasetRead.advance, DatasetRead.takes, hview, hentry, respond, generation]

theorem set_undisturbed (s : ReadState) (key : String) (entry : CacheEntry) :
    Runs.exec (step ops hash) s [.write (.set key entry), .bump] =
      some { (s.withStore (s.app.cache.store.insert key entry)).bumped with
        unbumped := s.unbumped } := by
  simp [Runs.exec, step, CacheWrite.store, CacheWrite.guarded, bumped, withStore]

/-- The read took what it found minted. -/
theorem settled_read {start s : ReadState} (h : Runs.Reach (step ops hash) Settled start s)
    (hreads : s.reads = []) (hminted : s.minted = s.app) (request : DatasetRequest)
    (hview : s.app.config.views[request.id]? = none) {entry : CacheEntry}
    (hentry : s.app.cache.get request.id = some entry) :
    Runs.Reach (step ops hash) Settled start { s with
      answered := s.answered ++ s.respond ops hash request (.source entry.dataset) } := by
  obtain ⟨app, unbumped, reads, answered, minted⟩ := s
  obtain rfl : reads = [] := hreads
  obtain rfl : minted = app := hminted
  dsimp only at hview hentry
  have hsees : minted.read request.id = some (.source entry.dataset) := by
    simp [AppState.read, hview, hentry]
  have hrequest : Runs.Reach (step ops hash) Settled start
      ⟨minted, unbumped, [⟨request, .dispatched minted.config.views[request.id]?⟩], answered,
        minted⟩ :=
    .step (l := ReadEvent.request request) h trivial rfl
  have htaken : Runs.Reach (step ops hash) Settled start
      ⟨minted, unbumped, [⟨request, .taken (.source entry.dataset)⟩], answered, minted⟩ := by
    refine .step (l := ReadEvent.advance 0) hrequest ?_ ?_
    · intro read data hread htakes
      obtain rfl := Option.some.inj hread
      simp [DatasetRead.takes, hview, hentry] at htakes
      rw [← htakes]
      exact hsees
    · simp [step, DatasetRead.advance, DatasetRead.takes, hview, hentry]
  exact .step (l := ReadEvent.answer 0) htaken trivial rfl

/-- One page of a source. -/
def pageRequest (ifNoneMatch : Option String) : DatasetRequest :=
  { id := "src", params := { limit := some 10 }, ifNoneMatch }

def gathered : CacheEntry := .new { hostvars := (∅ : StrMap HostVars).insert "a" ∅ } 60 0

def plainText : TextOps := ⟨id, fun _ => none, fun _ => []⟩

def emptied : CacheEntry := .new {} 60 0

/-- A process whose first write was the entry. -/
def serving (entry : CacheEntry) (answered : List DatasetAnswer) : ReadState :=
  let app := { cache := { store := (∅ : StrMap CacheEntry).insert "src" entry, generation := 1 } }
  { app, answered, minted := app }

theorem serving_cache (entry : CacheEntry) (answered : List DatasetAnswer) :
    (serving entry answered).app.cache.get "src" = some entry :=
  (StrMap.getElem?_insert ∅ "src" "src" entry).trans (if_pos rfl)

/-! ## Never stale -/

/-- **Conditional reads are never stale** in a run of settled steps. -/
theorem neverStale_of_settled {config : Config} {s : ReadState}
    (h : Runs.Reach (step ops hash) Settled (boot config) s) : s.NeverStale ops hash := by
  have hsteps : Steps (boot config).toServer s.toServer := by
    induction h with
    | start => exact .refl
    | step _ hsettled hstep ih => exact ih.trans (steps_of_settled ops hash hsettled hstep)
  rw [toServer_boot] at hsteps
  intro answer hanswer _ earlier hearlier hid hparams hetag
  have hgeneration : earlier.generation = answer.generation := by
    unfold DatasetAnswer.etag at hetag
    rw [hid, hparams] at hetag
    exact datasetEtag_inj hetag
  have hdata : earlier.data = answer.data :=
    Validators.same_of_steps hsteps (List.mem_map_of_mem hearlier) (List.mem_map_of_mem hanswer)
      hid hgeneration
  unfold DatasetAnswer.body
  rw [hid, hparams, hdata]

/-- The page read twice, nothing written in between: a 304. -/
theorem rereadPage_neverStale : ∃ s : ReadState,
    s.answered.map (·.notModified) = [false, true] ∧ s.NeverStale plainText fun _ _ => 7 := by
  have hchanged : Runs.Reach (step plainText fun _ _ => 7) Settled (boot {})
      { (boot {}).withStore ((∅ : StrMap CacheEntry).insert "src" gathered) with unbumped := 1 } :=
    .step (l := ReadEvent.write (.set "src" gathered)) .start nofun rfl
  have hwritten : Runs.Reach (step plainText fun _ _ => 7) Settled (boot {})
      (serving gathered []) :=
    .step (l := ReadEvent.bump) hchanged ⟨fun _ h => absurd h List.not_mem_nil,
      fun _ h => absurd h List.not_mem_nil⟩ rfl
  have hread := settled_read _ _ hwritten rfl rfl (pageRequest none)
    Std.ExtTreeMap.getElem?_empty (serving_cache gathered [])
  have hreread := settled_read _ _ hread rfl rfl (pageRequest (some (datasetEtag 7 1)))
    Std.ExtTreeMap.getElem?_empty (serving_cache gathered _)
  refine ⟨_, ?_, neverStale_of_settled _ _ hreread⟩
  show [false, ifNoneMatch (some (datasetEtag 7 1)) (datasetEtag 7 1)] = [false, true]
  rw [ifNoneMatch_self]

/-- A page is read, the process restarts, and the first write of the new one
brings the counter back to where it was: the second read is told that its page
with one host is current, and there is no host any more. -/
theorem restart_stale : ¬ ∃ (ops : TextOps) (hash : String → DatasetParams → UInt64),
    ∀ s, Runs.Reach (step ops hash) Runs.Any (boot {}) s → s.NeverStale ops hash := by
  intro h
  obtain ⟨ops, hash, h⟩ := h
  let etag := datasetEtag (hash "src" (pageRequest none).params) 1
  have hwritten : Runs.Reach (step ops hash) Runs.Any (boot {}) (serving gathered []) :=
    Runs.Reach.start.of_exec (set_undisturbed ops hash (boot {}) "src" gathered)
  have hread := hwritten.of_exec (read_undisturbed ops hash rfl (pageRequest none)
    Std.ExtTreeMap.getElem?_empty (serving_cache gathered []))
  have hrestarted := hread.step (l := .restart {}) trivial rfl
  have hrewritten : Runs.Reach (step ops hash) Runs.Any (boot {}) (serving emptied
      [⟨pageRequest none, 1, .source gathered.dataset, false⟩]) :=
    hrestarted.of_exec (set_undisturbed ops hash _ "src" emptied)
  have hreread := hrewritten.of_exec (read_undisturbed ops hash rfl (pageRequest (some etag))
    Std.ExtTreeMap.getElem?_empty (serving_cache emptied _))
  have hmatch : DatasetAnswer.notModified
      ⟨pageRequest (some etag), 1, .source {}, ifNoneMatch (some etag) etag⟩ = true := by
    dsimp only
    exact ifNoneMatch_self _ 1
  have hstale := h _ hreread _ (List.mem_append_right _ List.mem_cons_self) hmatch
    ⟨pageRequest none, 1, .source gathered.dataset, false⟩
    (List.mem_append_left _ List.mem_cons_self) rfl rfl rfl
  have htotal : some 1 = some 0 := congrArg (fun body : Option DatasetBody => body.bind fun
    | .page page => some page.totalHosts
    | .raw _ => none) hstale
  cases htotal

end ReadState

end UnifiedApi
