import UnifiedApi.Domain.HealthLog
import UnifiedApi.Domain.Project
import UnifiedApi.Lib.FifoLock
import UnifiedApi.Lib.Runs
import UnifiedApi.Lib.Slots

/-! # The pulls of one project, in any interleaving

A pull queues for its checkout's lock, reads the commit, runs git and then pip,
reads the commit again and records the attempt and then its row, each under a
lock of its own; the checkout's lock is held until then, or until its caller
gives up and drops it. Between the two recordings nothing waits, so no pull is
dropped there. Git moves the checkout only while its pull runs: dropping the
pull kills it. -/

namespace UnifiedApi

/-- What started a pull and who asked. -/
structure RunOrigin where
  trigger : RunTrigger
  requestedBy : Option String := none
  deriving DecidableEq

/-- What a pull knows once it has read the commit. The last field is history:
the commit the checkout was at. -/
structure PullBegun where
  startedAt : Nat
  start : Nat
  before : Option String
  took : Option String
  deriving DecidableEq

/-- Where `run` stands, and after it the recording. -/
inductive PullStage where
  | credential
  | git
  | venv
  | ended (error : Option String)
  /-- The attempt is recorded, at `instant`, and its row is not yet. -/
  | attempted (error revision : Option String) (instant : Nat)
  deriving DecidableEq

/-- The health is one attempt ahead of the history. -/
def PullStage.ahead : PullStage → Bool
  | attempted .. => true
  | credential | git | venv | ended _ => false

inductive ProjectPhase where
  | queued
  | acquired
  | running (begun : PullBegun) (stage : PullStage)
  | returned
  | dropped
  deriving DecidableEq

def ProjectPhase.holds : ProjectPhase → Bool
  | acquired | running _ _ => true
  | queued | returned | dropped => false

def ProjectPhase.ahead : ProjectPhase → Bool
  | running _ stage => stage.ahead
  | queued | acquired | returned | dropped => false

structure ProjectPull where
  project : GitProject
  origin : RunOrigin
  phase : ProjectPhase := .queued
  deriving DecidableEq

/-- One pull's turn at the checkout: the commit it took it at and the one it
left it at, when its attempt was recorded or it was dropped, and its row unless
it was dropped. -/
structure PullTurn where
  took : Option String
  left : Option String
  ended : Nat
  row : Option RunRecord
  deriving DecidableEq

/-- One checkout and what is recorded of its project. The turns, newest first,
are history. -/
structure PullState where
  checkout : Option String
  lock : FifoLock Nat := {}
  health : SyncHealthRegistry := {}
  pulls : List ProjectPull := []
  clock : Nat := 0
  turns : List PullTurn := []
  deriving DecidableEq

/-- A step of one pull. `answers` is whether git could tell the commit. -/
inductive PullStep where
  | readBefore (answers : Bool) (startedAt : Nat)
  | resolve (answer : Except String Unit)
  /-- Git moves the checkout. -/
  | move (commit : Option String)
  | pulled (answer : Except String Unit)
  | gitTimeout
  | installed (answer : Except String Unit)
  | venvTimeout
  | recordAttempt (answers : Bool)
  | recordRun
  | drop

inductive PullLabel where
  | begin (project : GitProject) (origin : RunOrigin)
  | acquire
  | wait (time : Nat)
  | pull (id : Nat) (step : PullStep)

namespace PullState

def begin (s : PullState) (project : GitProject) (origin : RunOrigin) : PullState :=
  { s with
    pulls := s.pulls ++ [{ project, origin }]
    lock := s.lock.enqueue s.pulls.length }

def setPhase (s : PullState) (id : Nat) (pull : ProjectPull) (phase : ProjectPhase) : PullState :=
  { s with pulls := s.pulls.set id { pull with phase } }

/-- What git answers when it is asked for the commit. -/
def revision (s : PullState) (answers : Bool) : Option String :=
  if answers then s.checkout else none

/-- Nothing is asked where the project names no credential. -/
def resolved (project : GitProject) (answer : Except String Unit) : PullStage :=
  match project.credentialId, answer with
  | some credentialId, .error message => .ended (some s!"credential '{credentialId}': {message}")
  | _, _ => .git

def afterGit (project : GitProject) : Except String Unit → PullStage
  | .error message => .ended (some message)
  | .ok () => if project.pythonVenv then .venv else .ended none

def afterVenv : Except String Unit → PullStage
  | .error message => .ended (some s!"venv: {message}")
  | .ok () => .ended none

def row (pull : ProjectPull) (begun : PullBegun) (error : Option String) (now : Nat)
    (revision : Option String) : RunRecord :=
  { startedAt := begun.startedAt
    durationMs := Clock.elapsed now begun.start / 1000000
    trigger := pull.origin.trigger
    requestedBy := pull.origin.requestedBy
    scope := none
    error
    revisionBefore := begun.before
    revision }

/-- How an attempt of the project is recorded. -/
def settled (projectId : String) (error : Option String) (now : Nat) : HealthEvent :=
  match error with
  | none => .success projectId now
  | some message => .failure projectId message now

/-- The turn of a pull ends. -/
def endTurn (s : PullState) (begun : PullBegun) (ended : Nat) (row : Option RunRecord) :
    PullState :=
  { s with
    lock := s.lock.release
    turns := { took := begun.took, left := s.checkout, ended, row } :: s.turns }

def recordAttempt (s : PullState) (projectId : String) (id : Nat) (pull : ProjectPull)
    (begun : PullBegun) (error : Option String) (answers : Bool) : PullState :=
  { s.setPhase id pull (.running begun (.attempted error (s.revision answers) s.clock)) with
    health := s.health.record (settled projectId error s.clock) }

def recordRow (s : PullState) (projectId : String) (id : Nat) (pull : ProjectPull)
    (begun : PullBegun) (error revision : Option String) (instant : Nat) : PullState :=
  let row := row pull begun error s.clock revision
  { (s.setPhase id pull .returned).endTurn begun instant (some row) with
    health := s.health.record (.run projectId row) }

def drop (s : PullState) (id : Nat) (pull : ProjectPull) : Option PullState :=
  let dropped := s.setPhase id pull .dropped
  match pull.phase with
  | .queued => some { dropped with lock := s.lock.withdraw id }
  | .acquired => some { dropped with lock := s.lock.release }
  | .running begun stage =>
    if stage.ahead then none else some (dropped.endTurn begun s.clock none)
  | .returned | .dropped => none

def stepPull (s : PullState) (projectId : String) (id : Nat) (pull : ProjectPull) :
    PullStep → Option PullState
  | .readBefore answers startedAt =>
    if pull.phase = .acquired then
      let begun := ⟨startedAt, s.clock, s.revision answers, s.checkout⟩
      some (s.setPhase id pull (.running begun .credential))
    else none
  | .resolve answer => match pull.phase with
    | .running begun .credential =>
      some (s.setPhase id pull (.running begun (resolved pull.project answer)))
    | _ => none
  | .move commit => match pull.phase with
    | .running _ .git => some { s with checkout := commit }
    | _ => none
  | .pulled answer => match pull.phase with
    | .running begun .git =>
      some (s.setPhase id pull (.running begun (afterGit pull.project answer)))
    | _ => none
  | .gitTimeout => match pull.phase with
    | .running begun .git => some (s.setPhase id pull (.running begun
        (.ended (some s!"git operation timed out after {pull.project.timeoutSeconds}s"))))
    | _ => none
  | .installed answer => match pull.phase with
    | .running begun .venv => some (s.setPhase id pull (.running begun (afterVenv answer)))
    | _ => none
  | .venvTimeout => match pull.phase with
    | .running begun .venv => some (s.setPhase id pull (.running begun
        (.ended (some s!"venv install timed out after {pull.project.timeoutSeconds}s"))))
    | _ => none
  | .recordAttempt answers => match pull.phase with
    | .running begun (.ended error) => some (s.recordAttempt projectId id pull begun error answers)
    | _ => none
  | .recordRun => match pull.phase with
    | .running begun (.attempted error revision instant) =>
      some (s.recordRow projectId id pull begun error revision instant)
    | _ => none
  | .drop => s.drop id pull

def step (projectId : String) (s : PullState) : PullLabel → Option PullState
  | .begin project origin => some (s.begin project origin)
  | .acquire => s.lock.acquire.bind fun (id, lock) => s.pulls[id]?.bind fun pull =>
    if pull.phase = .queued then some { s.setPhase id pull .acquired with lock } else none
  | .wait time => some { s with clock := s.clock + time }
  | .pull id own => s.pulls[id]?.bind fun pull => s.stepPull projectId id pull own

/-- Reached by any interleaving of any number of pulls. -/
abbrev Reached (projectId : String) (checkout : Option String) (s : PullState) : Prop :=
  Runs.Reach (step projectId) Runs.Any { checkout } s

/-! ## What a step can do -/

/-- The ways of one pull's step. -/
inductive Moved (projectId : String) (s : PullState) (id : Nat) (pull : ProjectPull) :
    PullState → Prop
  | acquires {lock} (hphase : pull.phase = .queued) (hlock : s.lock.acquire = some (id, lock)) :
      Moved projectId s id pull { s.setPhase id pull .acquired with lock }
  | begins {begun} (hphase : pull.phase = .acquired) (htook : begun.took = s.checkout)
      (hbefore : begun.before = none ∨ begun.before = begun.took) :
      Moved projectId s id pull (s.setPhase id pull (.running begun .credential))
  | goesOn {begun stage} (next : PullStage) (hphase : pull.phase = .running begun stage)
      (hstage : stage.ahead = false) (hnext : next.ahead = false) :
      Moved projectId s id pull (s.setPhase id pull (.running begun next))
  | moves {begun} (commit : Option String) (hphase : pull.phase = .running begun .git) :
      Moved projectId s id pull { s with checkout := commit }
  | attempts {begun error} (answers : Bool) (hphase : pull.phase = .running begun (.ended error)) :
      Moved projectId s id pull (s.recordAttempt projectId id pull begun error answers)
  | records {begun error revision instant}
      (hphase : pull.phase = .running begun (.attempted error revision instant)) :
      Moved projectId s id pull (s.recordRow projectId id pull begun error revision instant)
  | leaves (hphase : pull.phase = .queued) :
      Moved projectId s id pull { s.setPhase id pull .dropped with lock := s.lock.withdraw id }
  | givesUp (hphase : pull.phase = .acquired) :
      Moved projectId s id pull { s.setPhase id pull .dropped with lock := s.lock.release }
  | cut {begun stage} (hphase : pull.phase = .running begun stage) (hstage : stage.ahead = false) :
      Moved projectId s id pull ((s.setPhase id pull .dropped).endTurn begun s.clock none)

variable {projectId : String} {s s' : PullState} {id : Nat} {pull : ProjectPull}

theorem drop_moved (h : s.drop id pull = some s') : Moved projectId s id pull s' := by
  unfold drop at h
  split at h
  · rename_i hphase
    obtain rfl := Option.some.inj h
    exact .leaves hphase
  · rename_i hphase
    obtain rfl := Option.some.inj h
    exact .givesUp hphase
  · rename_i hphase
    split at h
    · cases h
    · rename_i hstage
      obtain rfl := Option.some.inj h
      exact .cut hphase (Bool.eq_false_iff.mpr hstage)
  · cases h
  · cases h

theorem resolved_ahead (project : GitProject) (answer : Except String Unit) :
    (resolved project answer).ahead = false := by
  unfold resolved
  split <;> rfl

theorem afterGit_ahead (project : GitProject) (answer : Except String Unit) :
    (afterGit project answer).ahead = false := by
  cases answer with
  | error message => rfl
  | ok =>
    show PullStage.ahead (if project.pythonVenv then .venv else .ended none) = false
    split <;> rfl

theorem afterVenv_ahead (answer : Except String Unit) : (afterVenv answer).ahead = false := by
  cases answer <;> rfl

theorem stepPull_moved {own : PullStep} (h : s.stepPull projectId id pull own = some s') :
    Moved projectId s id pull s' := by
  cases own with
  | readBefore answers startedAt =>
    obtain ⟨hphase, h⟩ := Option.ite_none_right_eq_some.mp h
    obtain rfl := Option.some.inj h
    refine .begins hphase rfl ?_
    cases answers with
    | false => exact .inl rfl
    | true => exact .inr rfl
  | move commit =>
    simp only [stepPull] at h
    split at h
    · rename_i hphase
      obtain rfl := Option.some.inj h
      exact .moves commit hphase
    · cases h
  | recordAttempt answers =>
    simp only [stepPull] at h
    split at h
    · rename_i hphase
      obtain rfl := Option.some.inj h
      exact .attempts answers hphase
    · cases h
  | recordRun =>
    simp only [stepPull] at h
    split at h
    · rename_i hphase
      obtain rfl := Option.some.inj h
      exact .records hphase
    · cases h
  | drop => exact drop_moved h
  | resolve answer =>
    simp only [stepPull] at h
    split at h
    · rename_i hphase
      obtain rfl := Option.some.inj h
      exact .goesOn _ hphase rfl (resolved_ahead _ _)
    · cases h
  | pulled answer =>
    simp only [stepPull] at h
    split at h
    · rename_i hphase
      obtain rfl := Option.some.inj h
      exact .goesOn _ hphase rfl (afterGit_ahead _ _)
    · cases h
  | installed answer =>
    simp only [stepPull] at h
    split at h
    · rename_i hphase
      obtain rfl := Option.some.inj h
      exact .goesOn _ hphase rfl (afterVenv_ahead _)
    · cases h
  | gitTimeout | venvTimeout =>
    simp only [stepPull] at h
    split at h
    · rename_i hphase
      obtain rfl := Option.some.inj h
      exact .goesOn _ hphase rfl rfl
    · cases h

theorem step_cases {label : PullLabel} (h : step projectId s label = some s') :
    (∃ project origin, s' = s.begin project origin) ∨
    (∃ time, s' = { s with clock := s.clock + time }) ∨
    ∃ id pull, s.pulls[id]? = some pull ∧ Moved projectId s id pull s' := by
  cases label with
  | begin project origin => exact .inl ⟨project, origin, (Option.some.inj h).symm⟩
  | wait time => exact .inr (.inl ⟨time, (Option.some.inj h).symm⟩)
  | acquire =>
    obtain ⟨⟨id, lock⟩, hlock, h⟩ := Option.bind_eq_some_iff.mp h
    obtain ⟨pull, hpull, h⟩ := Option.bind_eq_some_iff.mp h
    obtain ⟨hphase, h⟩ := Option.ite_none_right_eq_some.mp h
    obtain rfl := Option.some.inj h
    exact .inr (.inr ⟨id, pull, hpull, .acquires hphase hlock⟩)
  | pull id own =>
    obtain ⟨pull, hpull, h⟩ := Option.bind_eq_some_iff.mp h
    exact .inr (.inr ⟨id, pull, hpull, stepPull_moved h⟩)

/-! ## Who has the checkout -/

def Holding (s : PullState) (id : Nat) : Prop :=
  ∃ pull, s.pulls[id]? = some pull ∧ pull.phase.holds = true

/-- The pull is between its two reads of the commit. -/
def Running (s : PullState) (id : Nat) (begun : PullBegun) : Prop :=
  ∃ pull stage, s.pulls[id]? = some pull ∧ pull.phase = .running begun stage

theorem Running.holding {begun : PullBegun} (h : s.Running id begun) : s.Holding id := by
  obtain ⟨pull, stage, hpull, hphase⟩ := h
  exact ⟨pull, hpull, by rw [hphase]; rfl⟩

/-- The pull has recorded its attempt and not its row. -/
def Ahead (s : PullState) (id : Nat) : Prop :=
  ∃ pull, s.pulls[id]? = some pull ∧ pull.phase.ahead = true

theorem eq_attempted {phase : ProjectPhase} (h : phase.ahead = true) :
    ∃ begun error revision instant, phase = .running begun (.attempted error revision instant) := by
  cases phase with
  | queued | acquired | returned | dropped => cases h
  | running begun stage =>
    cases stage with
    | credential | git | venv | ended => cases h
    | attempted error revision instant => exact ⟨begun, error, revision, instant, rfl⟩

theorem Ahead.holding (h : s.Ahead id) : s.Holding id := by
  obtain ⟨pull, hpull, hahead⟩ := h
  obtain ⟨begun, error, revision, instant, hphase⟩ := eq_attempted hahead
  exact ⟨pull, hpull, by rw [hphase]; rfl⟩

theorem holding_setPhase (hpull : s.pulls[id]? = some pull) {phase : ProjectPhase} {other : Nat}
    (h : (s.setPhase id pull phase).Holding other) :
    (other = id ∧ phase.holds = true) ∨ (other ≠ id ∧ s.Holding other) := by
  obtain ⟨moved, hmoved, hholds⟩ := h
  have hset := Slots.getElem?_set hpull { pull with phase } other
  rw [show (s.setPhase id pull phase).pulls[other]? = _ from hset] at hmoved
  split at hmoved
  · rename_i heq
    obtain rfl := Option.some.inj hmoved
    exact .inl ⟨heq, hholds⟩
  · rename_i hne
    exact .inr ⟨hne, moved, hmoved, hholds⟩

theorem running_setPhase (hpull : s.pulls[id]? = some pull) {phase : ProjectPhase} {other : Nat}
    {begun : PullBegun} (h : (s.setPhase id pull phase).Running other begun) :
    (other = id ∧ ∃ stage, phase = .running begun stage) ∨
      (other ≠ id ∧ s.Running other begun) := by
  obtain ⟨moved, stage, hmoved, hphase⟩ := h
  have hset := Slots.getElem?_set hpull { pull with phase } other
  rw [show (s.setPhase id pull phase).pulls[other]? = _ from hset] at hmoved
  split at hmoved
  · rename_i heq
    obtain rfl := Option.some.inj hmoved
    exact .inl ⟨heq, stage, hphase⟩
  · rename_i hne
    exact .inr ⟨hne, moved, stage, hmoved, hphase⟩

theorem ahead_setPhase (hpull : s.pulls[id]? = some pull) {phase : ProjectPhase}
    (hold : pull.phase.ahead = false) (hnew : phase.ahead = false) (other : Nat) :
    (s.setPhase id pull phase).Ahead other ↔ s.Ahead other := by
  unfold Ahead
  rw [show (s.setPhase id pull phase).pulls[other]? = _ from
    Slots.getElem?_set hpull { pull with phase } other]
  split
  · rename_i heq
    subst heq
    simp [hpull, hold, hnew]
  · rfl

theorem holding_begin {project : GitProject} {origin : RunOrigin} {other : Nat}
    (h : (s.begin project origin).Holding other) : s.Holding other := by
  obtain ⟨pull, hpull, hholds⟩ := h
  rcases Slots.getElem?_append_or hpull with hold | ⟨_, rfl⟩
  · exact ⟨pull, hold, hholds⟩
  · cases hholds

theorem running_begin {project : GitProject} {origin : RunOrigin} {other : Nat}
    {begun : PullBegun} (h : (s.begin project origin).Running other begun) :
    s.Running other begun := by
  obtain ⟨pull, stage, hpull, hphase⟩ := h
  rcases Slots.getElem?_append_or hpull with hold | ⟨_, rfl⟩
  · exact ⟨pull, stage, hold, hphase⟩
  · cases hphase

/-! ## The invariant -/

/-- What the turns recorded. -/
def log (projectId : String) (s : PullState) : HealthLog :=
  s.turns.flatMap fun turn => match turn.row with
    | some row => [.run projectId row, settled projectId row.error turn.ended]
    | none => []

/-- Where the last turn left the checkout. -/
def lastLeft (start : Option String) (s : PullState) : Option String :=
  (s.turns.head?.map (·.left)).getD start

/-- A turn takes the checkout up where the turn before it left it. -/
def TakesUp (newer older : PullTurn) : Prop := newer.took = older.left

/-- Its row has the commits of the turn itself, or none where git gave none. -/
def Told (turn : PullTurn) : Prop := ∀ row, turn.row = some row →
  (row.revisionBefore = none ∨ row.revisionBefore = turn.took) ∧
    (row.revision = none ∨ row.revision = turn.left)

structure Inv (projectId : String) (start : Option String) (s : PullState) : Prop where
  alone : s.lock.Excludes s.Holding
  /-- A pull that runs took the checkout up where the last turn left it. -/
  running : ∀ id begun, s.Running id begun → begun.took = s.lastLeft start ∧
    (begun.before = none ∨ begun.before = begun.took)
  /-- Without one the checkout is still there. -/
  idle : (∀ id begun, ¬ s.Running id begun) → s.checkout = s.lastLeft start
  chain : s.turns.IsChain TakesUp
  told : ∀ turn ∈ s.turns, Told turn
  health : (∀ id, ¬ s.Ahead id) → s.health.Tells (log projectId s)
  /-- A pull between its recordings knows the commit it will leave. -/
  ahead : ∀ (id : Nat) (pull : ProjectPull) begun error revision instant,
    s.pulls[id]? = some pull →
    pull.phase = .running begun (.attempted error revision instant) →
      (revision = none ∨ revision = s.checkout) ∧
        s.health.Tells (settled projectId error instant :: log projectId s)

variable {start : Option String}

theorem Inv.initial (projectId : String) (start : Option String) :
    Inv projectId start { checkout := start } where
  alone _ h := by
    obtain ⟨_, hpull, _⟩ := h
    cases hpull
  running _ _ h := by
    obtain ⟨_, _, hpull, _⟩ := h
    cases hpull
  idle _ := rfl
  chain := .nil
  told _ h := absurd h List.not_mem_nil
  health _ := SyncHealthRegistry.Tells.empty
  ahead _ _ _ _ _ _ hpull := by cases hpull

theorem Inv.begin (h : Inv projectId start s) (project : GitProject) (origin : RunOrigin) :
    Inv projectId start (s.begin project origin) where
  alone := h.alone.of_holder_eq rfl fun _ => holding_begin
  running id begun hrunning := h.running id begun (running_begin hrunning)
  idle hnone := h.idle fun id begun ⟨pull, stage, hpull, hphase⟩ =>
    hnone id begun ⟨pull, stage, Slots.getElem?_append hpull _, hphase⟩
  chain := h.chain
  told := h.told
  health hnone := h.health fun id ⟨pull, hpull, hahead⟩ =>
    hnone id ⟨pull, Slots.getElem?_append hpull _, hahead⟩
  ahead id pull begun error revision instant hpull hphase := by
    rcases Slots.getElem?_append_or hpull with hold | ⟨_, rfl⟩
    · exact h.ahead id pull begun error revision instant hold hphase
    · cases hphase

theorem Inv.wait (h : Inv projectId start s) (time : Nat) :
    Inv projectId start { s with clock := s.clock + time } :=
  ⟨h.alone, h.running, h.idle, h.chain, h.told, h.health, h.ahead⟩

/-- Whoever has the checkout is the only one that runs. -/
theorem Inv.not_running (h : Inv projectId start s) (hpull : s.pulls[id]? = some pull)
    (hholds : pull.phase.holds = true) (hphase : ∀ begun stage, pull.phase ≠ .running begun stage)
    (other : Nat) (begun : PullBegun) : ¬ s.Running other begun := by
  intro hrunning
  obtain rfl := h.alone.unique ⟨pull, hpull, hholds⟩ hrunning.holding
  obtain ⟨found, stage, hfound, hrun⟩ := hrunning
  obtain rfl := Option.some.inj (hpull.symm.trans hfound)
  exact hphase begun stage hrun

/-- A pull that runs goes on, or the lock changes hands around one that does
not. -/
theorem Inv.setPhase (h : Inv projectId start s) (hpull : s.pulls[id]? = some pull)
    {phase : ProjectPhase} {lock : FifoLock Nat}
    (halone : lock.Excludes (s.setPhase id pull phase).Holding)
    (hphase : ∀ begun stage, phase = .running begun stage →
      (s.Running id begun ∨ s.checkout = s.lastLeft start ∧ begun.took = s.checkout ∧
        (begun.before = none ∨ begun.before = begun.took)))
    (hstays : ∀ begun stage, pull.phase = .running begun stage →
      ∃ stage, phase = .running begun stage)
    (hold : pull.phase.ahead = false) (hnew : phase.ahead = false) :
    Inv projectId start { s.setPhase id pull phase with lock } where
  alone := halone
  running other begun hrunning := by
    rcases running_setPhase hpull hrunning with ⟨rfl, stage, hstage⟩ | ⟨_, hold⟩
    · rcases hphase begun stage hstage with hold | ⟨hcheckout, htook, hbefore⟩
      · exact h.running _ begun hold
      · exact ⟨htook.trans hcheckout, hbefore⟩
    · exact h.running other begun hold
  idle hnone := h.idle fun other begun ⟨found, stage, hfound, hrun⟩ => by
    by_cases heq : other = id
    · subst heq
      obtain rfl := Option.some.inj (hpull.symm.trans hfound)
      obtain ⟨later, hlater⟩ := hstays begun stage hrun
      exact hnone other begun ⟨_, later, Slots.getElem?_set_self hpull _, hlater⟩
    · refine hnone other begun ⟨found, stage, ?_, hrun⟩
      exact (List.getElem?_set_ne (Ne.symm heq)).trans hfound
  chain := h.chain
  told := h.told
  health hnone := h.health fun other hother =>
    hnone other ((ahead_setPhase hpull hold hnew other).mpr hother)
  ahead other found begun error revision instant hfound hattempted := by
    have hset := Slots.getElem?_set hpull { pull with phase } other
    rw [show (s.setPhase id pull phase).pulls[other]? = _ from hset] at hfound
    split at hfound
    · obtain rfl := Option.some.inj hfound
      rw [show phase = _ from hattempted] at hnew
      cases hnew
    · exact h.ahead other found begun error revision instant hfound hattempted

theorem holding_of_setPhase (hpull : s.pulls[id]? = some pull) {phase : ProjectPhase}
    (hholds : phase.holds = true → pull.phase.holds = true) (other : Nat)
    (h : (s.setPhase id pull phase).Holding other) : s.Holding other := by
  rcases holding_setPhase hpull h with ⟨rfl, hphase⟩ | ⟨_, hold⟩
  · exact ⟨pull, hpull, hholds hphase⟩
  · exact hold

/-- Who gives the checkout back does not have it any more. -/
theorem Inv.released (h : Inv projectId start s) (hpull : s.pulls[id]? = some pull)
    (hheld : pull.phase.holds = true) {phase : ProjectPhase} (hholds : phase.holds = false) :
    s.lock.release.Excludes (s.setPhase id pull phase).Holding := by
  refine h.alone.release ⟨pull, hpull, hheld⟩ fun other hother => ?_
  rcases holding_setPhase hpull hother with ⟨rfl, hphase⟩ | hold
  · rw [hholds] at hphase
    cases hphase
  · exact hold

/-- A turn ends where the checkout is. -/
theorem Inv.endTurn (h : Inv projectId start s) (hpull : s.pulls[id]? = some pull)
    {begun : PullBegun} {stage : PullStage} (hphase : pull.phase = .running begun stage)
    {phase : ProjectPhase} (hholds : phase.holds = false) {ended : Nat} {row : Option RunRecord}
    {health : SyncHealthRegistry}
    (htold : ∀ run, row = some run → run.revisionBefore = begun.before ∧
      (run.revision = none ∨ run.revision = s.checkout))
    (hhealth : health.Tells (log projectId ((s.setPhase id pull phase).endTurn begun ended row))) :
    Inv projectId start { (s.setPhase id pull phase).endTurn begun ended row with health } := by
  have hheld : pull.phase.holds = true := by rw [hphase]; rfl
  have hrunning : s.Running id begun := ⟨pull, stage, hpull, hphase⟩
  obtain ⟨htook, hbefore⟩ := h.running id begun hrunning
  have hover (other : Nat) (later : PullBegun) :
      ¬ (s.setPhase id pull phase).Running other later := fun hnew => by
    rcases running_setPhase hpull hnew with ⟨_, next, rfl⟩ | ⟨hne, hold⟩
    · cases hholds
    · exact hne (h.alone.unique hold.holding ⟨pull, hpull, hheld⟩)
  refine ⟨h.released hpull hheld hholds, fun other later hnew => absurd hnew (hover other later),
    fun _ => rfl, ?_, ?_, fun _ => hhealth, fun other found later _ _ _ hfound hattempted =>
      absurd ⟨found, _, hfound, hattempted⟩ (hover other later)⟩
  · show (_ :: s.turns).IsChain TakesUp
    cases hturns : s.turns with
    | nil => exact .singleton _
    | cons last rest =>
      refine .cons_cons ?_ (hturns ▸ h.chain)
      simpa [lastLeft, hturns, TakesUp] using htook
  · intro turn hturn
    rcases List.mem_cons.mp hturn with rfl | hold
    · intro run hrun
      obtain ⟨hsame, hafter⟩ := htold run hrun
      exact ⟨hsame ▸ hbefore, hafter⟩
    · exact h.told turn hold

/-- While a pull that is not between its recordings has the checkout, none is. -/
theorem Inv.not_ahead (h : Inv projectId start s) (hpull : s.pulls[id]? = some pull)
    (hholds : pull.phase.holds = true) (hahead : pull.phase.ahead = false) (other : Nat) :
    ¬ s.Ahead other := by
  intro hother
  obtain rfl := h.alone.unique ⟨pull, hpull, hholds⟩ hother.holding
  obtain ⟨found, hfound, hfoundAhead⟩ := hother
  obtain rfl := Option.some.inj (hpull.symm.trans hfound)
  rw [hahead] at hfoundAhead
  cases hfoundAhead

/-- The attempt is recorded: the health goes one ahead of the rows. -/
theorem Inv.attempts (h : Inv projectId start s) (hpull : s.pulls[id]? = some pull)
    {begun : PullBegun} {error : Option String}
    (hphase : pull.phase = .running begun (.ended error)) (answers : Bool) :
    Inv projectId start (s.recordAttempt projectId id pull begun error answers) := by
  have hheld : pull.phase.holds = true := by rw [hphase]; rfl
  have hrunning : s.Running id begun := ⟨pull, _, hpull, hphase⟩
  have hnone := h.not_ahead hpull hheld (by rw [hphase]; rfl)
  refine ⟨?_, fun other later hnew => ?_, fun hover => ?_, h.chain, h.told, fun hover => ?_,
    fun other found later failed revision instant hfound hattempted => ?_⟩
  · exact h.alone.of_holder_eq rfl (holding_of_setPhase hpull fun _ => hheld)
  · rcases running_setPhase hpull hnew with ⟨rfl, stage, hstage⟩ | ⟨_, hold⟩
    · obtain ⟨rfl, rfl⟩ := ProjectPhase.running.inj hstage
      exact h.running other begun hrunning
    · exact h.running other later hold
  · exact absurd ⟨_, _, Slots.getElem?_set_self hpull _, rfl⟩ (hover id begun)
  · exact absurd ⟨_, Slots.getElem?_set_self hpull _, rfl⟩ (hover id)
  · have hset := Slots.getElem?_set hpull
      { pull with phase := .running begun (.attempted error (s.revision answers) s.clock) } other
    rw [show (s.recordAttempt projectId id pull begun error answers).pulls[other]? = _ from hset]
      at hfound
    split at hfound
    · obtain rfl := Option.some.inj hfound
      obtain ⟨rfl, hstage⟩ := ProjectPhase.running.inj hattempted
      obtain ⟨rfl, rfl, rfl⟩ := PullStage.attempted.inj hstage
      refine ⟨?_, (h.health hnone).record _⟩
      cases answers with
      | false => exact .inl rfl
      | true => exact .inr rfl
    · exact absurd ⟨found, hfound, by rw [hattempted]; rfl⟩ (hnone other)

theorem Inv.records (h : Inv projectId start s) (hpull : s.pulls[id]? = some pull)
    {begun : PullBegun} {error revision : Option String} {instant : Nat}
    (hphase : pull.phase = .running begun (.attempted error revision instant)) :
    Inv projectId start (s.recordRow projectId id pull begun error revision instant) := by
  obtain ⟨hrevision, hhealth⟩ := h.ahead id pull begun error revision instant hpull hphase
  refine h.endTurn hpull hphase rfl (fun run hrun => ?_) (hhealth.record _)
  obtain rfl := Option.some.inj hrun
  exact ⟨rfl, hrevision⟩

theorem Inv.moved (h : Inv projectId start s) (hpull : s.pulls[id]? = some pull)
    (hmoved : Moved projectId s id pull s') : Inv projectId start s' := by
  cases hmoved with
  | acquires hphase hlock =>
    refine h.setPhase hpull ?_ nofun (fun _ _ hrun => ?_) (by rw [hphase]; rfl) rfl
    · refine h.alone.acquire hlock fun other hother => ?_
      rcases holding_setPhase hpull hother with ⟨rfl, _⟩ | ⟨_, hold⟩
      · exact .inl rfl
      · exact .inr hold
    · rw [hphase] at hrun
      cases hrun
  | @begins begun hphase htook hbefore =>
    have hheld : pull.phase.holds = true := by rw [hphase]; rfl
    have hnone := h.not_running hpull hheld fun begun stage hrun => by
      rw [hphase] at hrun
      cases hrun
    refine h.setPhase hpull (h.alone.of_holder_eq rfl (holding_of_setPhase hpull fun _ => hheld))
      ?_ (fun _ _ hrun => absurd ⟨pull, _, hpull, hrun⟩ (hnone id _)) (by rw [hphase]; rfl) rfl
    intro now stage hnow
    obtain ⟨rfl, rfl⟩ := ProjectPhase.running.inj hnow
    exact .inr ⟨h.idle hnone, htook, hbefore⟩
  | @goesOn begun stage next hphase hstage hnext =>
    have hheld : pull.phase.holds = true := by rw [hphase]; rfl
    refine h.setPhase hpull (h.alone.of_holder_eq rfl (holding_of_setPhase hpull fun _ => hheld))
      ?_ ?_ (by rw [hphase]; exact hstage) hnext
    · intro now later hnow
      obtain ⟨rfl, rfl⟩ := ProjectPhase.running.inj hnow
      exact .inl ⟨pull, stage, hpull, hphase⟩
    · intro now later hrun
      obtain ⟨rfl, rfl⟩ := ProjectPhase.running.inj (hphase.symm.trans hrun)
      exact ⟨next, rfl⟩
  | moves commit hphase =>
    have hnone := h.not_ahead hpull (by rw [hphase]; rfl) (by rw [hphase]; rfl)
    exact ⟨h.alone, h.running, fun hover => absurd ⟨pull, _, hpull, hphase⟩ (hover id _), h.chain,
      h.told, h.health, fun other found _ _ _ _ hfound hattempted =>
        absurd ⟨found, hfound, by rw [hattempted]; rfl⟩ (hnone other)⟩
  | attempts answers hphase => exact h.attempts hpull hphase answers
  | records hphase => exact h.records hpull hphase
  | leaves hphase =>
    refine h.setPhase hpull ?_ nofun (fun _ _ hrun => ?_) (by rw [hphase]; rfl) rfl
    · exact h.alone.of_holder_eq (FifoLock.holder_withdraw ..) (holding_of_setPhase hpull nofun)
    · rw [hphase] at hrun
      cases hrun
  | givesUp hphase =>
    refine h.setPhase hpull (h.released hpull (by rw [hphase]; rfl) rfl) nofun
      (fun _ _ hrun => ?_) (by rw [hphase]; rfl) rfl
    rw [hphase] at hrun
    cases hrun
  | @cut begun stage hphase hstage =>
    have hnone := h.not_ahead hpull (by rw [hphase]; rfl) (by rw [hphase]; exact hstage)
    refine h.endTurn hpull hphase rfl nofun ?_
    have hlog : log projectId ((s.setPhase id pull .dropped).endTurn begun s.clock none) =
        log projectId s := by
      simp only [log, PullState.endTurn, PullState.setPhase, List.flatMap_cons, List.nil_append]
    rw [hlog]
    exact h.health hnone

theorem Inv.step {label : PullLabel} (h : Inv projectId start s)
    (hstep : PullState.step projectId s label = some s') : Inv projectId start s' := by
  rcases step_cases hstep with ⟨project, origin, rfl⟩ | ⟨time, rfl⟩ | ⟨id, pull, hpull, hmoved⟩
  · exact h.begin project origin
  · exact h.wait time
  · exact h.moved hpull hmoved

theorem Reached.inv (h : Reached projectId start s) : Inv projectId start s :=
  h.invariant (Inv.initial projectId start) fun _ _ _ hinv _ hstep => hinv.step hstep

/-! ## The rows -/

/-- The recorded turns, each with the moment it ended. -/
def rows (s : PullState) : List (Nat × RunRecord) :=
  s.turns.filterMap fun turn => turn.row.map (turn.ended, ·)

theorem runs_log : (log projectId s).runs projectId = s.rows.map (·.2) := by
  unfold HealthLog.runs log rows
  induction s.turns with
  | nil => rfl
  | cons turn rest ih =>
    rw [List.flatMap_cons, List.filterMap_append, ih]
    cases hrow : turn.row with
    | none => simp [hrow]
    | some row => cases herror : row.error <;> simp [hrow, herror, settled, HealthEvent.runOf]

theorem attempts_log :
    (log projectId s).attempts projectId = s.rows.map fun (ended, row) => ⟨ended, row.error⟩ := by
  unfold HealthLog.attempts log rows
  induction s.turns with
  | nil => rfl
  | cons turn rest ih =>
    rw [List.flatMap_cons, List.filterMap_append, ih]
    cases hrow : turn.row with
    | none => simp [hrow]
    | some row => cases herror : row.error <;> simp [hrow, herror, settled, HealthEvent.attemptOf]

theorem runs_settled (error : Option String) (instant : Nat) (log : HealthLog) :
    HealthLog.runs (settled projectId error instant :: log) projectId = log.runs projectId := by
  cases error <;> rfl

theorem attempts_settled (error : Option String) (instant : Nat) (log : HealthLog) :
    HealthLog.attempts (settled projectId error instant :: log) projectId =
      ⟨instant, error⟩ :: log.attempts projectId := by
  cases error <;> simp [HealthLog.attempts, settled, HealthEvent.attemptOf]

/-- A recorded attempt does not show in the rows. -/
theorem Inv.history (h : Inv projectId start s) :
    s.health.history projectId = ((s.rows.map (·.2)).map RunRecord.kept).take historyLimit := by
  by_cases hnone : ∀ id, ¬ s.Ahead id
  · rw [(h.health hnone).history projectId, runs_log]
  · obtain ⟨id, pull, hpull, hahead⟩ := not_forall_not.mp hnone
    obtain ⟨begun, error, revision, instant, hphase⟩ := eq_attempted hahead
    obtain ⟨_, hhealth⟩ := h.ahead id pull begun error revision instant hpull hphase
    rw [hhealth.history projectId, runs_settled, runs_log]

end PullState

/-! ## What the history shows -/

namespace PullState

variable {projectId : String} {start : Option String} {s : PullState}

/-- **The history is the newest fifty turns at the checkout that were recorded;
a row's commits are those its own turn took the checkout from and left it at,
and of two rows whose turns follow directly on one another, with no dropped pull
between them, the newer starts at the commit the older ended at, where git could
tell both.** -/
theorem history_joins (h : Reached projectId start s) :
    s.health.history projectId =
      (((s.turns.filterMap (·.row)).map RunRecord.kept).take historyLimit) ∧
    (∀ newer older, [newer, older] <:+: s.turns → newer.took = older.left) ∧
    (∀ turn ∈ s.turns, ∀ row, turn.row = some row →
      (row.revisionBefore = none ∨ row.revisionBefore = turn.took) ∧
        (row.revision = none ∨ row.revision = turn.left)) ∧
    ∀ newer older, [some newer, some older] <:+: s.turns.map (·.row) →
      ∀ commit commit', newer.revisionBefore = some commit → older.revision = some commit' →
        commit = commit' := by
  have hinv := h.inv
  have hjoin : ∀ newer older, [newer, older] <:+: s.turns → newer.took = older.left :=
    fun newer older hinside => by
      have hchain : [newer, older].IsChain TakesUp := List.IsChain.infix hinv.chain hinside
      exact (List.isChain_cons_cons.mp hchain).1
  refine ⟨?_, hjoin, hinv.told, fun newer older hinside commit commit' hbefore hafter => ?_⟩
  · rw [hinv.history, rows, List.map_filterMap]
    simp only [Option.map_map, Function.comp_def, Option.map_id']
  · obtain ⟨turns, hturns, hpair⟩ := List.infix_map_iff.mp hinside
    obtain ⟨turn, others, rfl, hnewer, hrest⟩ := List.map_eq_cons_iff.mp hpair.symm
    obtain ⟨turn', last, rfl, holder, hlast⟩ := List.map_eq_cons_iff.mp hrest
    obtain rfl := List.map_eq_nil_iff.mp hlast
    have hmem := hturns.subset
    obtain ⟨htook, _⟩ := hinv.told turn (hmem List.mem_cons_self) newer hnewer
    obtain ⟨_, hleft⟩ := hinv.told turn' (hmem (by simp)) older holder
    have htook : some commit = turn.took := by simpa [hbefore] using htook
    have hleft : some commit' = turn'.left := by simpa [hafter] using hleft
    exact Option.some.inj (htook.trans ((hjoin turn turn' hturns).trans hleft.symm))

/-- A manual pull asked for while a scheduled one runs, and one that is dropped
while git runs. -/
def overlappingPulls : List PullLabel :=
  let project : GitProject := { gitUrl := "https://example.com/repo.git" }
  let pull (id : Nat) (commit : String) : List PullLabel :=
    [.acquire, .pull id (.readBefore true 0), .pull id (.resolve (.ok ())),
      .pull id (.move (some commit))]
  let ending (id : Nat) : List PullLabel :=
    [.pull id (.pulled (.ok ())), .pull id (.recordAttempt true), .pull id .recordRun]
  [.begin project { trigger := .scheduled }, .begin project { trigger := .manual }] ++
    pull 0 "c1" ++ [.begin project { trigger := .manual }] ++ ending 0 ++ pull 1 "c2" ++ ending 1 ++
    pull 2 "c3" ++ [.pull 2 .drop]

theorem exec_overlappingPulls : ∃ s,
    Runs.exec (step "prj-a") { checkout := some "c0" } overlappingPulls = some s ∧
    s.turns.map (fun turn => (turn.took, turn.left, turn.row.isSome)) =
      [(some "c2", some "c3", false), (some "c1", some "c2", true),
        (some "c0", some "c1", true)] ∧
    s.pulls.all (fun pull => !pull.phase.ahead) = true := by
  have hrun : (Runs.exec (step "prj-a") { checkout := some "c0" } overlappingPulls).map
      (fun s => (s.turns.map fun turn => (turn.took, turn.left, turn.row.isSome),
        s.pulls.all fun pull => !pull.phase.ahead)) =
      some ([(some "c2", some "c3", false), (some "c1", some "c2", true),
        (some "c0", some "c1", true)], true) := by
    decide
  obtain ⟨s, hexec, hs⟩ := Option.map_eq_some_iff.mp hrun
  exact ⟨s, hexec, Prod.mk.inj hs⟩

theorem overlappingPulls_join : ∃ s,
    Runs.exec (step "prj-a") { checkout := some "c0" } overlappingPulls = some s ∧
    ∀ newer older, [some newer, some older] <:+: s.turns.map (·.row) →
      ∀ commit commit', newer.revisionBefore = some commit → older.revision = some commit' →
        commit = commit' := by
  obtain ⟨s, hexec, _⟩ := exec_overlappingPulls
  exact ⟨s, hexec, (history_joins (Runs.Reach.start.of_exec hexec)).2.2.2⟩

/-- How many of the newest rows failed in a row. -/
def failedRows (rows : List RunRecord) : Nat := (rows.takeWhile (·.error.isSome)).length

/-- The newest row has the last error, cut where it is too long, and as many rows
failed in a row as attempts did, as far as the history goes; with no attempt
there is no row. -/
def Agrees (health : Option SyncHealth) (rows : List RunRecord) : Prop :=
  match health with
  | none => rows = []
  | some health => (∃ newest rest, rows = newest :: rest ∧
        newest.error = health.lastError.map cutError) ∧
      failedRows rows = min health.consecutiveFailures historyLimit

/-- The health knows of one attempt more, that came to `error`. -/
def AgreesAhead (error : Option String) (health : Option SyncHealth) (rows : List RunRecord) :
    Prop :=
  ∃ told, health = some told ∧ told.lastError = error ∧
    min told.consecutiveFailures (historyLimit + 1) =
      if error.isSome then failedRows rows + 1 else 0

theorem failedRows_take (rows : List (Nat × RunRecord)) :
    failedRows (((rows.map (·.2)).map RunRecord.kept).take historyLimit) =
      min (streak (rows.map fun (ended, row) => ⟨ended, row.error⟩)) historyLimit := by
  have hfailed : (fun row : RunRecord => row.error.isSome) ∘ RunRecord.kept ∘ Prod.snd =
      Attempt.failed ∘ fun row : Nat × RunRecord => ⟨row.1, row.2.error⟩ :=
    funext fun row => Option.isSome_map
  have hstreak : streak (rows.map fun (ended, row) => ⟨ended, row.error⟩) =
      ((rows.map fun row => row.2.kept).takeWhile (·.error.isSome)).length := by
    rw [streak, List.takeWhile_map, List.takeWhile_map, List.length_map, List.length_map]
    exact congrArg (fun p => (rows.takeWhile p).length) hfailed.symm
  rw [hstreak, failedRows, ← List.take_takeWhile, List.length_take, List.map_map, Nat.min_comm]
  rfl

/-- **What is told of a project's health and its history never disagree, but for
the attempt of a pull that is between its two recordings: of that one the health
knows already and the history does not.** -/
theorem health_agrees (h : Reached projectId start s) (now : Nat) :
    ((∀ pull ∈ s.pulls, pull.phase.ahead = false) →
      Agrees (s.health.get projectId now) (s.health.history projectId)) ∧
    ∀ pull ∈ s.pulls, ∀ begun error revision instant,
      pull.phase = .running begun (.attempted error revision instant) →
        AgreesAhead error (s.health.get projectId now) (s.health.history projectId) := by
  have hinv := h.inv
  rw [SyncHealthRegistry.get, hinv.history]
  refine ⟨fun hnone => ?_, fun pull hpull begun error revision instant hphase => ?_⟩
  · have hbehind : ∀ id, ¬ s.Ahead id := by
      intro id hid
      obtain ⟨pull, hpull, hahead⟩ := hid
      rw [hnone pull (List.mem_of_getElem? hpull)] at hahead
      cases hahead
    rw [(hinv.health hbehind).health projectId, attempts_log]
    cases hrows : s.rows with
    | nil => rfl
    | cons newest rest =>
      refine ⟨⟨newest.2.kept, _, rfl, rfl⟩, ?_⟩
      rw [failedRows_take]
      show min (streak _) historyLimit = min (min (streak _) (2 ^ 32 - 1)) historyLimit
      rw [historyLimit]
      omega
  · obtain ⟨id, hpull⟩ := List.mem_iff_getElem?.mp hpull
    obtain ⟨_, hhealth⟩ := hinv.ahead id pull begun error revision instant hpull hphase
    rw [hhealth.health projectId, attempts_settled, attempts_log, summary]
    refine ⟨_, rfl, rfl, ?_⟩
    rw [failedRows_take]
    cases error with
    | none => simp [streak, Attempt.failed]
    | some message =>
      have hone : streak (⟨instant, some message⟩ ::
          s.rows.map fun (ended, row) => ⟨ended, row.error⟩) =
          streak (s.rows.map fun (ended, row) => ⟨ended, row.error⟩) + 1 := by
        simp [streak, Attempt.failed]
      show min (min (streak _) (2 ^ 32 - 1)) _ = _
      rw [hone, historyLimit, Option.isSome_some, if_pos rfl]
      omega

/-- A failed pull is between its recordings while the next one waits. -/
def failingPull : List PullLabel :=
  let project : GitProject := { gitUrl := "https://example.com/repo.git" }
  overlappingPulls ++ [.begin project { trigger := .scheduled },
    .begin project { trigger := .manual }, .acquire, .pull 3 (.readBefore true 0),
    .pull 3 (.resolve (.ok ())), .pull 3 .gitTimeout, .pull 3 (.recordAttempt true)]

theorem exec_failingPull : ∃ s,
    Runs.exec (step "prj-a") { checkout := some "c0" } failingPull = some s ∧
    s.pulls.any (·.phase.ahead) = true := by
  have hrun : (Runs.exec (step "prj-a") { checkout := some "c0" } failingPull).map
      (fun s => s.pulls.any (·.phase.ahead)) = some true := by
    decide
  exact Option.map_eq_some_iff.mp hrun

/-- Before the pull that fails, and in the middle of its recording. -/
theorem failingPull_agree :
    (∃ s, Runs.exec (step "prj-a") { checkout := some "c0" } overlappingPulls = some s ∧
      Agrees (s.health.get "prj-a" 0) (s.health.history "prj-a")) ∧
    ∃ s, Runs.exec (step "prj-a") { checkout := some "c0" } failingPull = some s ∧
      ∃ error, AgreesAhead error (s.health.get "prj-a" 0) (s.health.history "prj-a") := by
  obtain ⟨s, hexec, _, hnone⟩ := exec_overlappingPulls
  obtain ⟨s', hexec', hany⟩ := exec_failingPull
  obtain ⟨pull, hpull, hahead⟩ := List.any_eq_true.mp hany
  obtain ⟨begun, error, revision, instant, hphase⟩ := eq_attempted hahead
  refine ⟨⟨s, hexec, (health_agrees (Runs.Reach.start.of_exec hexec) 0).1 ?_⟩, s', hexec', error,
    (health_agrees (Runs.Reach.start.of_exec hexec') 0).2 pull hpull _ _ _ _ hphase⟩
  intro pull hpull
  simpa using List.all_eq_true.mp hnone pull hpull

end PullState

end UnifiedApi
