import UnifiedApi.Application.SyncRequest
import UnifiedApi.Domain.SyncHealth
import UnifiedApi.Lib.Runs

/-! # What a refresh that exceeds its budget records

The refreshes and the other syncs of one source. A refresh notes the newest run
of the history, waits for the source's sync lock, gathers and lets the enrichers
run. Past its budget its sync is dropped wherever it is, which frees the lock;
then it tells from the newest run of the history whether its own gather had
landed, and if not it records the failure. Others go on in between. -/

namespace UnifiedApi

/-- Where a call of `sync_source` stands. A gather that lands is recorded in
the same step; enrichers run after it, still under the lock. -/
inductive AttemptPhase where
  | queued
  | gathering (startedAt : Nat)
  | enriching
  /-- Past its budget and dropped, and the history is still to be read. Whether
  its gather had landed is history. -/
  | expired (landed : Bool)
  /-- The history did not show a landing; the failure is still to be recorded. -/
  | failing
  | over
  deriving DecidableEq

/-- The history has been read, or never will be. -/
def AttemptPhase.decided : AttemptPhase → Bool
  | .failing | .over => true
  | .queued | .gathering _ | .enriching | .expired _ => false

/-- What a refresh reads before its sync starts. -/
structure RefreshStart where
  startedAt : Nat
  newestBefore : Option RunRecord
  deriving DecidableEq

/-- A call, a refresh or any other sync. `own` and `meanwhile` are history: the
row of its own gather that landed, and those the others recorded since it began
or landed, newest first. -/
structure SyncAttempt where
  scope : SyncScope
  trigger : RunTrigger
  requestedBy : Option String := none
  refresh : Option RefreshStart := none
  phase : AttemptPhase := .queued
  own : Option RunRecord := none
  meanwhile : List RunRecord := []
  deriving DecidableEq

/-- A refresh that was dropped past its budget: whether its gather had landed,
and whether it records a failure. -/
structure TimedOut where
  call : Nat
  landed : Bool
  records : Bool
  deriving DecidableEq

structure AttemptState where
  now : Nat
  unixNow : Nat
  cache : MemoryCache := {}
  health : SyncHealthRegistry := {}
  attempts : List SyncAttempt := []
  timedOut : List TimedOut := []
  deriving DecidableEq

inductive AttemptStep where
  /-- The source's sync lock is free, and the gather starts. -/
  | acquire
  | gathered (result : Except String ConnectorOutput) (durationMs : Nat)
  | finish
  /-- Dropped by its caller, or answered by another sync. -/
  | drop
  | timeout
  | readHistory
  | recordTimeout (budgetSecs elapsedMs : Nat)

inductive AttemptLabel where
  | tick (nanos unixNow : Nat)
  | refresh (hosts : List String)
  /-- Scheduled, by hand, or on behalf of a downstream instance's refresh. -/
  | sync (scope : SyncScope) (trigger : RunTrigger) (requestedBy : Option String)
  | call (id : Nat) (step : AttemptStep)

namespace SyncAttempt

def holds (attempt : SyncAttempt) : Bool :=
  match attempt.phase with
  | .gathering _ | .enriching => true
  | .queued | .expired _ | .failing | .over => false

def landed (attempt : SyncAttempt) : Bool :=
  match attempt.phase with
  | .enriching => true
  | .expired landed => landed
  | .queued | .gathering _ | .failing | .over => false

/-- The row of a gather: what it counted, or why it failed. -/
def row (attempt : SyncAttempt) (startedAt durationMs : Nat) :
    Except String Dataset → RunRecord
  | .ok dataset =>
    { startedAt, durationMs
      trigger := attempt.trigger
      requestedBy := attempt.requestedBy
      scope := some attempt.scope.label
      hosts := some dataset.hostvars.size
      groups := some dataset.groups.size }
  | .error error =>
    { startedAt, durationMs
      trigger := attempt.trigger
      requestedBy := attempt.requestedBy
      scope := some attempt.scope.label
      error := some error }

/-- A newer run than the newest before the refresh began, of its kind and scope. -/
def Resembles (attempt : SyncAttempt) (start : RefreshStart) (run : RunRecord) : Prop :=
  some run ≠ start.newestBefore ∧ run.trigger = .refresh ∧ run.scope = some attempt.scope.label

instance (attempt : SyncAttempt) (start : RefreshStart) (run : RunRecord) :
    Decidable (attempt.Resembles start run) :=
  inferInstanceAs (Decidable (_ ∧ _ ∧ _))

/-- What others recorded last does not mislead the refresh. After its gather has
landed that is a row like its own or none, and then its own differs from the
newest before it began; until then, no row like its own. -/
def Told (attempt : SyncAttempt) (start : RefreshStart) : Prop :=
  match attempt.own, attempt.meanwhile with
  | some _, run :: _ => attempt.Resembles start run
  | some own, [] => some own ≠ start.newestBefore
  | none, run :: _ => ¬ attempt.Resembles start run
  | none, [] => True

end SyncAttempt

namespace AttemptState
variable (source : Source) (sourceId : String)

def replace (s : AttemptState) (id : Nat) (attempt : SyncAttempt) : AttemptState :=
  { s with attempts := s.attempts.set id attempt }

/-- Every other call sees the row in the history from now on. -/
def recordRun (s : AttemptState) (run : RunRecord) : AttemptState :=
  { s with
    health := s.health.recordRun sourceId run
    attempts := s.attempts.map fun attempt =>
      { attempt with meanwhile := run.kept :: attempt.meanwhile } }

/-- Another live refresh of the source has the host's lock. -/
def hostTaken (s : AttemptState) (hostname : String) : Bool :=
  s.attempts.any fun attempt => attempt.refresh.isSome && attempt.phase != .over &&
    match attempt.scope with
    | .hosts hosts => hosts.contains hostname
    | .full | .group _ => false

/-- From the moment the refresh has its hosts' locks and a permit. -/
def refresh (s : AttemptState) (hosts : List String) : Option AttemptState :=
  if hosts.isEmpty || hosts.any s.hostTaken then none
  else some { s with
    attempts := s.attempts ++ [{
      scope := .hosts hosts
      trigger := .refresh
      refresh := some ⟨s.unixNow, (s.health.history sourceId).head?⟩ }] }

def acquire (s : AttemptState) (id : Nat) (attempt : SyncAttempt) : Option AttemptState :=
  match attempt.phase with
  | .queued =>
    if s.attempts.any SyncAttempt.holds then none
    else some (s.replace id { attempt with phase := .gathering s.unixNow })
  | _ => none

/-- The connector's answer is written to the cache and recorded; a failure is
recorded, and the call is over. -/
def gathered (s : AttemptState) (id : Nat) (attempt : SyncAttempt)
    (result : Except String ConnectorOutput) (durationMs : Nat) : Option AttemptState :=
  match attempt.phase with
  | .gathering startedAt => match result with
    | .ok output =>
      let dataset := if attempt.scope = .full then output.dataset.addGroupMembers
        else output.dataset
      let run := attempt.row startedAt durationMs (.ok dataset)
      let s := { s with
        cache := applyToCache s.cache sourceId source attempt.scope { output with dataset } s.now
        health := s.health.recordSuccess sourceId s.now }
      some ((s.recordRun sourceId run).replace id
        { attempt with phase := .enriching, own := some run.kept, meanwhile := [] })
    | .error error =>
      let run := attempt.row startedAt durationMs (.error error)
      let s := { s with health := s.health.recordFailure sourceId error s.now }
      some ((s.recordRun sourceId run).replace id { attempt with phase := .over })
  | _ => none

/-- What the newest run of the history says about the refresh. -/
def readsLanded (s : AttemptState) (attempt : SyncAttempt) (start : RefreshStart) : Bool :=
  (s.health.history sourceId).head?.any fun run => attempt.Resembles start run

/-- The sync of a refresh is dropped past its budget. -/
def timeout (s : AttemptState) (id : Nat) (attempt : SyncAttempt) : Option AttemptState :=
  attempt.refresh.bind fun _ => match attempt.phase with
    | .queued | .gathering _ | .enriching =>
      some (s.replace id { attempt with phase := .expired attempt.landed })
    | .expired _ | .failing | .over => none

/-- The timeout arm reads the history. -/
def readHistory (s : AttemptState) (id : Nat) (attempt : SyncAttempt) : Option AttemptState :=
  attempt.refresh.bind fun start => match attempt.phase with
    | .expired dropped =>
      let landed := s.readsLanded sourceId attempt start
      let s := { s with timedOut := ⟨id, dropped, !landed⟩ :: s.timedOut }
      some (s.replace id { attempt with phase := if landed then .over else .failing })
    | _ => none

def recordTimeout (s : AttemptState) (id : Nat) (attempt : SyncAttempt)
    (budgetSecs elapsedMs : Nat) : Option AttemptState :=
  attempt.refresh.bind fun start =>
    if attempt.phase = .failing then
      let error := "refresh did not finish within " ++ toString budgetSecs ++ "s"
      let s := { s with health := s.health.recordFailure sourceId error s.now }
      let s := s.recordRun sourceId
        { startedAt := start.startedAt
          durationMs := elapsedMs
          trigger := .refresh
          scope := some attempt.scope.label
          error := some error }
      some (s.replace id { attempt with phase := .over })
    else none

/-- Nothing waits in the timeout arm, so nobody is dropped there. -/
def drop (s : AttemptState) (id : Nat) (attempt : SyncAttempt) : Option AttemptState :=
  match attempt.phase with
  | .queued | .gathering _ | .enriching => some (s.replace id { attempt with phase := .over })
  | .expired _ | .failing | .over => none

def step (s : AttemptState) : AttemptLabel → Option AttemptState
  | .tick nanos unixNow => some { s with now := s.now + nanos, unixNow }
  | .refresh hosts => s.refresh sourceId hosts
  | .sync scope trigger requestedBy =>
    some { s with attempts := s.attempts ++ [{ scope, trigger, requestedBy }] }
  | .call id l => s.attempts[id]?.bind fun attempt => match l with
    | .acquire => s.acquire id attempt
    | .gathered result durationMs => s.gathered source sourceId id attempt result durationMs
    | .finish => if attempt.phase = .enriching then
        some (s.replace id { attempt with phase := .over })
      else none
    | .drop => s.drop id attempt
    | .timeout => s.timeout id attempt
    | .readHistory => s.readHistory sourceId id attempt
    | .recordTimeout budgetSecs elapsedMs =>
      s.recordTimeout sourceId id attempt budgetSecs elapsedMs

/-- Every refresh that was dropped past its budget records a failure exactly
when its gather had not landed. -/
def Truthful (s : AttemptState) : Prop := ∀ t ∈ s.timedOut, t.records = !t.landed

/-- The refreshes that were dropped past their budget are not misled when they
read the history. -/
def Told (s : AttemptState) : AttemptLabel → Prop
  | .call id .readHistory => ∀ attempt start, s.attempts[id]? = some attempt →
      attempt.refresh = some start → attempt.phase.decided = false → attempt.Told start
  | _ => True

/-! ## The newest run of the history -/

/-- The newest run is the last that others recorded, the refresh's own or the
newest before it began. -/
structure Tracked (newest : Option RunRecord) (attempt : SyncAttempt) (start : RefreshStart) :
    Prop where
  newest_eq : newest = (attempt.meanwhile.head?.or attempt.own).or start.newestBefore
  landed : attempt.own.isSome = attempt.landed
  trigger : attempt.trigger = .refresh
  own : ∀ own, attempt.own = some own →
    own.trigger = .refresh ∧ own.scope = some attempt.scope.label

/-- The history's newest run decides rightly exactly when nobody misleads it. -/
theorem Tracked.told_iff {newest : Option RunRecord} {attempt : SyncAttempt}
    {start : RefreshStart} (h : Tracked newest attempt start) :
    attempt.Told start ↔
      newest.any (fun run => attempt.Resembles start run) = attempt.landed := by
  rw [h.newest_eq, ← h.landed]
  unfold SyncAttempt.Told
  cases hown : attempt.own with
  | some own =>
    cases attempt.meanwhile with
    | nil =>
      obtain ⟨htrigger, hscope⟩ := h.own own hown
      simp [SyncAttempt.Resembles, htrigger, hscope]
    | cons run rest => simp
  | none =>
    cases attempt.meanwhile with
    | nil => cases hbefore : start.newestBefore <;> simp [SyncAttempt.Resembles, hbefore]
    | cons run rest => simp

/-- Every refresh that is not decided can account for the newest run. -/
def Tracks (s : AttemptState) : Prop :=
  ∀ attempt ∈ s.attempts, ∀ start, attempt.refresh = some start → attempt.phase.decided = false →
    Tracked (s.health.history sourceId).head? attempt start

variable {source sourceId} {s : AttemptState}

theorem Tracks.replace (h : s.Tracks sourceId) {id : Nat} {attempt : SyncAttempt}
    (hattempt : ∀ start, attempt.refresh = some start → attempt.phase.decided = false →
      Tracked (s.health.history sourceId).head? attempt start) :
    (s.replace id attempt).Tracks sourceId := by
  intro other hother
  obtain hold | rfl := List.mem_or_eq_of_mem_set hother
  · exact h other hold
  · exact hattempt

theorem Tracks.recordRun (h : s.Tracks sourceId) (run : RunRecord) :
    (s.recordRun sourceId run).Tracks sourceId := by
  intro other hother start hrefresh hlive
  obtain ⟨attempt, hattempt, rfl⟩ := List.mem_map.mp hother
  have htracked := h attempt hattempt start hrefresh hlive
  exact { htracked with
    newest_eq := (SyncHealthRegistry.head?_history_recordRun _ _ _).trans rfl }

/-- The health is kept apart from the history. -/
theorem Tracks.setHealth (h : s.Tracks sourceId) {health : SyncHealthRegistry} {cache : MemoryCache}
    {timedOut : List TimedOut} (hsame : health.history sourceId = s.health.history sourceId) :
    Tracks sourceId { s with health, cache, timedOut } := by
  intro attempt hattempt start hrefresh hlive
  rw [show (health.history sourceId).head? = (s.health.history sourceId).head? by rw [hsame]]
  exact h attempt hattempt start hrefresh hlive

theorem Tracks.append (h : s.Tracks sourceId) {attempt : SyncAttempt}
    (hattempt : ∀ start, attempt.refresh = some start →
      Tracked (s.health.history sourceId).head? attempt start) :
    Tracks sourceId { s with attempts := s.attempts ++ [attempt] } := by
  intro other hother start hrefresh hlive
  obtain hold | hnew := List.mem_append.mp hother
  · exact h other hold start hrefresh hlive
  · obtain rfl := List.mem_singleton.mp hnew
    exact hattempt start hrefresh

theorem Tracks.gathered {s' : AttemptState} {id : Nat} {attempt : SyncAttempt}
    {result : Except String ConnectorOutput} {durationMs : Nat} (h : s.Tracks sourceId)
    (hattempt : attempt ∈ s.attempts)
    (hstep : s.gathered source sourceId id attempt result durationMs = some s') :
    s'.Tracks sourceId := by
  unfold AttemptState.gathered at hstep
  split at hstep
  · rename_i startedAt hphase
    split at hstep
    · obtain rfl := Option.some.inj hstep
      refine ((h.setHealth ?_).recordRun _).replace ?_
      · rfl
      · intro start hrefresh _
        have htracked := h attempt hattempt start hrefresh (by rw [hphase]; rfl)
        exact {
          newest_eq := SyncHealthRegistry.head?_history_recordRun _ _ _
          landed := rfl
          trigger := htracked.trigger
          own := fun own hown => by
            obtain rfl := Option.some.inj hown
            exact ⟨htracked.trigger, rfl⟩ }
    · obtain rfl := Option.some.inj hstep
      refine ((h.setHealth ?_).recordRun _).replace ?_
      · rfl
      · exact fun start _ hlive => by cases hlive
  · cases hstep

/-- A call moves on without the history. -/
theorem Tracks.move (h : s.Tracks sourceId) {id : Nat} {attempt : SyncAttempt}
    (hattempt : attempt ∈ s.attempts) {phase : AttemptPhase}
    (hlive : attempt.phase.decided = false)
    (hlanded : phase.decided = false → { attempt with phase }.landed = attempt.landed) :
    (s.replace id { attempt with phase }).Tracks sourceId := by
  refine h.replace fun start hrefresh hlive' => ?_
  have htracked := h attempt hattempt start hrefresh hlive
  exact { htracked with landed := htracked.landed.trans (hlanded hlive').symm }

theorem Tracks.decided (h : s.Tracks sourceId) {id : Nat} {attempt : SyncAttempt}
    {phase : AttemptPhase} (hphase : phase.decided = true) :
    (s.replace id { attempt with phase }).Tracks sourceId :=
  h.replace fun _ _ hlive => by
    rw [show phase.decided = false from hlive] at hphase
    cases hphase

theorem timeout_spec {s' : AttemptState} {id : Nat} {attempt : SyncAttempt}
    (hattempt : attempt ∈ s.attempts) (h : s.timeout id attempt = some s') :
    (s.Tracks sourceId → Tracks sourceId s') ∧ s'.timedOut = s.timedOut := by
  obtain ⟨start, hrefresh, h⟩ := Option.bind_eq_some_iff.mp h
  have hdropped {phase : AttemptPhase} (hphase : attempt.phase = phase)
      (hlive : phase.decided = false) (htracks : s.Tracks sourceId) :
      (s.replace id { attempt with phase := .expired attempt.landed }).Tracks sourceId :=
    htracks.move hattempt (by rw [hphase]; exact hlive) fun _ => rfl
  split at h
  · rename_i hphase
    obtain rfl := Option.some.inj h
    exact ⟨hdropped hphase rfl, rfl⟩
  · rename_i startedAt hphase
    obtain rfl := Option.some.inj h
    exact ⟨hdropped hphase rfl, rfl⟩
  · rename_i hphase
    obtain rfl := Option.some.inj h
    exact ⟨hdropped hphase rfl, rfl⟩
  · cases h
  · cases h
  · cases h

/-- What reading the history leaves behind. -/
theorem readHistory_spec {s' : AttemptState} {id : Nat} {attempt : SyncAttempt}
    (h : s.readHistory sourceId id attempt = some s') :
    (s.Tracks sourceId → Tracks sourceId s') ∧ ∃ start, attempt.refresh = some start ∧
      attempt.phase.decided = false ∧
      s'.timedOut = ⟨id, attempt.landed, !s.readsLanded sourceId attempt start⟩ :: s.timedOut := by
  obtain ⟨start, hrefresh, h⟩ := Option.bind_eq_some_iff.mp h
  split at h
  · rename_i dropped hphase
    obtain rfl := Option.some.inj h
    have hlanded : attempt.landed = dropped := by rw [SyncAttempt.landed, hphase]
    refine ⟨fun htracks => (htracks.setHealth rfl).decided ?_, start, hrefresh, ?_, ?_⟩
    · split <;> rfl
    · rw [hphase]
      rfl
    · rw [hlanded]
      rfl
  · cases h

theorem recordTimeout_spec {s' : AttemptState} {id : Nat} {attempt : SyncAttempt}
    {budgetSecs elapsedMs : Nat}
    (h : s.recordTimeout sourceId id attempt budgetSecs elapsedMs = some s') :
    (s.Tracks sourceId → Tracks sourceId s') ∧ s'.timedOut = s.timedOut := by
  obtain ⟨start, hrefresh, h⟩ := Option.bind_eq_some_iff.mp h
  obtain ⟨_, h⟩ := Option.ite_none_right_eq_some.mp h
  obtain rfl := Option.some.inj h
  exact ⟨fun htracks => ((htracks.setHealth rfl).recordRun _).decided rfl, rfl⟩

theorem drop_spec {s' : AttemptState} {id : Nat} {attempt : SyncAttempt}
    (h : s.drop id attempt = some s') :
    (s.Tracks sourceId → Tracks sourceId s') ∧ s'.timedOut = s.timedOut := by
  unfold AttemptState.drop at h
  split at h
  · obtain rfl := Option.some.inj h
    exact ⟨fun htracks => htracks.decided rfl, rfl⟩
  · obtain rfl := Option.some.inj h
    exact ⟨fun htracks => htracks.decided rfl, rfl⟩
  · obtain rfl := Option.some.inj h
    exact ⟨fun htracks => htracks.decided rfl, rfl⟩
  · cases h
  · cases h
  · cases h

theorem acquire_spec {s' : AttemptState} {id : Nat} {attempt : SyncAttempt}
    (hattempt : attempt ∈ s.attempts) (h : s.acquire id attempt = some s') :
    (s.Tracks sourceId → Tracks sourceId s') ∧ s'.timedOut = s.timedOut := by
  unfold AttemptState.acquire at h
  split at h
  · rename_i hphase
    split at h
    · cases h
    · obtain rfl := Option.some.inj h
      refine ⟨fun htracks => htracks.move hattempt (by rw [hphase]; rfl) fun _ => ?_, rfl⟩
      simp [SyncAttempt.landed, hphase]
  · cases h

theorem refresh_spec {s' : AttemptState} {hosts : List String}
    (h : s.refresh sourceId hosts = some s') :
    (s.Tracks sourceId → Tracks sourceId s') ∧ s'.timedOut = s.timedOut := by
  unfold AttemptState.refresh at h
  split at h
  · cases h
  · obtain rfl := Option.some.inj h
    refine ⟨fun htracks => htracks.append fun start hstart => ?_, rfl⟩
    obtain rfl := Option.some.inj hstart
    exact ⟨rfl, rfl, rfl, fun own hown => by cases hown⟩

theorem gathered_timedOut {s' : AttemptState} {id : Nat} {attempt : SyncAttempt}
    {result : Except String ConnectorOutput} {durationMs : Nat}
    (h : s.gathered source sourceId id attempt result durationMs = some s') :
    s'.timedOut = s.timedOut := by
  unfold AttemptState.gathered at h
  split at h
  · split at h <;>
    · obtain rfl := Option.some.inj h
      rfl
  · cases h

/-- Every step keeps track of the newest run, and only a refresh that reads the
history past its budget says what its timeout records. -/
theorem step_spec {s' : AttemptState} {l : AttemptLabel}
    (h : s.step source sourceId l = some s') :
    (s.Tracks sourceId → Tracks sourceId s') ∧
    (s'.timedOut = s.timedOut ∧ s.Told l ∨
      ∃ id attempt start, l = .call id .readHistory ∧ s.attempts[id]? = some attempt ∧
        attempt.refresh = some start ∧ attempt.phase.decided = false ∧
        s'.timedOut =
          ⟨id, attempt.landed, !s.readsLanded sourceId attempt start⟩ :: s.timedOut) := by
  cases l with
  | tick nanos unixNow =>
    obtain rfl := Option.some.inj h
    exact ⟨id, .inl ⟨rfl, trivial⟩⟩
  | refresh hosts =>
    obtain ⟨htracks, hsame⟩ := refresh_spec h
    exact ⟨htracks, .inl ⟨hsame, trivial⟩⟩
  | sync scope trigger requestedBy =>
    obtain rfl := Option.some.inj h
    refine ⟨fun htracks => htracks.append fun start hstart => ?_, .inl ⟨rfl, trivial⟩⟩
    cases hstart
  | call id l =>
    obtain ⟨attempt, hattempt, h⟩ := Option.bind_eq_some_iff.mp h
    have hmem := List.mem_of_getElem? hattempt
    cases l with
    | acquire =>
      obtain ⟨htracks, hsame⟩ := acquire_spec hmem h
      exact ⟨htracks, .inl ⟨hsame, trivial⟩⟩
    | gathered result durationMs =>
      exact ⟨fun htracks => htracks.gathered hmem h, .inl ⟨gathered_timedOut h, trivial⟩⟩
    | finish =>
      obtain ⟨_, h⟩ := Option.ite_none_right_eq_some.mp h
      obtain rfl := Option.some.inj h
      exact ⟨fun htracks => htracks.decided rfl, .inl ⟨rfl, trivial⟩⟩
    | drop =>
      obtain ⟨htracks, hsame⟩ := drop_spec h
      exact ⟨htracks, .inl ⟨hsame, trivial⟩⟩
    | timeout =>
      obtain ⟨htracks, hsame⟩ := timeout_spec hmem h
      exact ⟨htracks, .inl ⟨hsame, trivial⟩⟩
    | readHistory =>
      obtain ⟨htracks, start, hrefresh, hlive, htimedOut⟩ := readHistory_spec h
      exact ⟨htracks, .inr ⟨id, attempt, start, rfl, hattempt, hrefresh, hlive, htimedOut⟩⟩
    | recordTimeout budgetSecs elapsedMs =>
      obtain ⟨htracks, hsame⟩ := recordTimeout_spec h
      exact ⟨htracks, .inl ⟨hsame, trivial⟩⟩

/-- What a timeout records is right exactly when nobody misleads the refresh. -/
theorem Tracks.told_iff (h : s.Tracks sourceId) {id : Nat} {attempt : SyncAttempt}
    {start : RefreshStart} (hattempt : s.attempts[id]? = some attempt)
    (hrefresh : attempt.refresh = some start) (hlive : attempt.phase.decided = false) :
    attempt.Told start ↔ (!s.readsLanded sourceId attempt start) = !attempt.landed := by
  rw [(h attempt (List.mem_of_getElem? hattempt) start hrefresh hlive).told_iff]
  unfold readsLanded
  generalize Option.any _ _ = reads
  cases reads <;> cases attempt.landed <;> simp

theorem Truthful.step {s' : AttemptState} {l : AttemptLabel} (htracks : s.Tracks sourceId)
    (h : s.Truthful) (htold : s.Told l) (hstep : s.step source sourceId l = some s') :
    s'.Truthful := by
  obtain ⟨_, ⟨hsame, _⟩ | ⟨id, attempt, start, rfl, hattempt, hrefresh, hlive, htimedOut⟩⟩ :=
    step_spec hstep
  · intro t ht
    exact h t (hsame ▸ ht)
  · intro t ht
    rw [htimedOut] at ht
    obtain rfl | hold := List.mem_cons.mp ht
    · exact (htracks.told_iff hattempt hrefresh hlive).mp
        (htold attempt start hattempt hrefresh hlive)
    · exact h t hold

theorem Tracks.not_truthful {s' : AttemptState} {l : AttemptLabel} (h : s.Tracks sourceId)
    (huntold : ¬ s.Told l) (hstep : s.step source sourceId l = some s') : ¬ s'.Truthful := by
  obtain ⟨_, ⟨_, htold⟩ | ⟨id, attempt, start, rfl, hattempt, hrefresh, hlive, htimedOut⟩⟩ :=
    step_spec hstep
  · exact absurd htold huntold
  · intro htruthful
    have hright := htruthful _ (htimedOut ▸ List.mem_cons_self)
    refine huntold fun other start' hother hrefresh' _ => ?_
    obtain rfl := Option.some.inj (hattempt.symm.trans hother)
    obtain rfl := Option.some.inj (hrefresh.symm.trans hrefresh')
    exact (h.told_iff hattempt hrefresh hlive).mpr hright

/-- Before any call, with whatever the cache and the history hold. -/
def start (now unixNow : Nat) (cache : MemoryCache) (health : SyncHealthRegistry) : AttemptState :=
  { now, unixNow, cache, health }

theorem reached_tracks {ok : AttemptState → AttemptLabel → Prop} {now unixNow : Nat}
    {cache : MemoryCache} {health : SyncHealthRegistry}
    (h : Runs.Reach (step source sourceId) ok (start now unixNow cache health) s) :
    s.Tracks sourceId :=
  h.invariant (fun _ hattempt => absurd hattempt List.not_mem_nil)
    fun _ _ _ htracks _ hstep => (step_spec hstep).1 htracks

/-- **What a timed-out refresh records.** In every run in which no timed-out
refresh is misled by what others recorded last, each records a failure exactly
when its gather had not landed; and a refresh that is misled records the wrong
thing. -/
theorem timeouts_truthful (now unixNow : Nat) (cache : MemoryCache) (health : SyncHealthRegistry) :
    (∀ s, Runs.Reach (step source sourceId) Told (start now unixNow cache health) s →
      s.Truthful) ∧
    ∀ s l s', Runs.Reach (step source sourceId) Runs.Any (start now unixNow cache health) s →
      s.step source sourceId l = some s' → ¬ s.Told l → ¬ s'.Truthful := by
  constructor
  · intro s h
    have hnone : (start now unixNow cache health).Truthful :=
      fun _ ht => absurd ht List.not_mem_nil
    have hempty : (start now unixNow cache health).Tracks sourceId :=
      fun _ hattempt => absurd hattempt List.not_mem_nil
    have hboth := h.invariant (P := fun s => s.Tracks sourceId ∧ s.Truthful) ⟨hempty, hnone⟩
      fun _ _ _ hs htold hstep => ⟨(step_spec hstep).1 hs.1, hs.2.step hs.1 htold hstep⟩
    exact hboth.2
  · intro s l s' h hstep huntold
    exact (reached_tracks h).not_truthful huntold hstep

/-- A refresh waits behind a full sync past its budget. -/
def waitedBehindSync : List AttemptLabel :=
  [.sync .full .scheduled none, .call 0 .acquire, .refresh ["a"], .call 1 .timeout,
    .call 1 .readHistory, .call 1 (.recordTimeout 10 10000)]

theorem waitedBehindSync_truthful : ∃ s,
    Runs.exec (step { ttlSeconds := 60 } "src") (start 0 0 {} {}) waitedBehindSync = some s ∧
      s.timedOut = [⟨1, false, true⟩] ∧ s.Truthful := by
  have hrun : (Runs.exec (step { ttlSeconds := 60 } "src") (start 0 0 {} {})
      waitedBehindSync).map (·.timedOut) = some [⟨1, false, true⟩] := by decide
  obtain ⟨s, hexec, htimedOut⟩ := Option.map_eq_some_iff.mp hrun
  have hmeets : Runs.Meets (step { ttlSeconds := 60 } "src") Told (start 0 0 {} {})
      waitedBehindSync := by
    refine ⟨trivial, trivial, trivial, trivial, fun attempt start hattempt hrefresh hlive => ?_, ?_⟩
    · obtain rfl := Option.some.inj hattempt
      exact trivial
    · split
      · refine Runs.meets_of_forall (fun l hl _ => ?_) _
        obtain rfl := List.mem_singleton.mp hl
        trivial
      · trivial
  exact ⟨s, hexec, htimedOut, (timeouts_truthful 0 0 {} {}).1 s
    (Runs.Reach.start.of_meets hmeets hexec)⟩

/-- A refresh lands and an enricher runs on; a refresh of another host waits
for the sync lock past its budget, and then the first is past its own. -/
def overtakenInHistory : List AttemptLabel :=
  [.refresh ["a"], .call 0 .acquire, .call 0 (.gathered (.ok ⟨{}, none, [], none⟩) 5),
    .refresh ["b"], .call 1 .timeout, .call 1 .readHistory, .call 1 (.recordTimeout 10 10000),
    .call 0 .timeout, .call 0 .readHistory]

/-- The other refresh's row is the newest, so the first records a failure of a
gather that has landed. -/
theorem overtaken_not_truthful : ¬ ∀ (source : Source) (sourceId : String) (now unixNow : Nat)
    (cache : MemoryCache) (health : SyncHealthRegistry) (s : AttemptState),
    Runs.Reach (step source sourceId) Runs.Any (start now unixNow cache health) s →
      s.Truthful := by
  intro h
  have hrun : (Runs.exec (step { ttlSeconds := 60 } "src") (start 0 0 {} {})
      overtakenInHistory).map (·.timedOut) = some [⟨0, true, true⟩, ⟨1, false, true⟩] := by
    decide
  obtain ⟨s, hexec, htimedOut⟩ := Option.map_eq_some_iff.mp hrun
  have hright := h _ _ 0 0 {} {} s (Runs.Reach.start.of_exec hexec) ⟨0, true, true⟩
    (htimedOut ▸ List.mem_cons_self)
  cases hright

end AttemptState

end UnifiedApi
