import UnifiedApi.Application.Config
import UnifiedApi.Application.Credentials
import UnifiedApi.Application.RefreshPermits
import UnifiedApi.Connectors.SshPlan

/-! # The numbers of a configuration

A number that the loader admits travels to a call with a precondition of its
own: the period of a timer must not be zero, and a semaphore has a largest
size. What panics is `none`. -/

namespace UnifiedApi

/-! ## The configuration -/

/-- When an item runs by itself. -/
structure Pace where
  schedule : Option String := none
  syncIntervalSeconds : Option Nat := none
  deriving DecidableEq

def ResolvedSource.pace (source : ResolvedSource) : Pace :=
  ⟨source.schedule, source.syncIntervalSeconds⟩

/-- The items whose numbers are read. -/
def PacedItem : ItemSection → Type
  | .sources => ResolvedSource
  | .enrichers | .projects => Pace
  | .connectors | .views | .endpoints | .credentials => Unit

structure VaultConfig where
  timeoutSeconds : Nat := 10

/-- The `secrets` block of config.yaml has at most a Vault. -/
abbrev NumberConfig := AppConfig PacedItem (Option VaultConfig)

namespace NumberConfig

def sources (cfg : NumberConfig) : StrMap ResolvedSource := cfg.items .sources

def enrichers (cfg : NumberConfig) : StrMap Pace := cfg.items .enrichers

def projects (cfg : NumberConfig) : StrMap Pace := cfg.items .projects

/-- What runs by itself: the sources, the enrichers and the projects. -/
def paces (cfg : NumberConfig) : List (String × Pace) :=
  (cfg.sources.toList.map fun (id, source) => (id, source.pace)) ++
    cfg.enrichers.toList ++ cfg.projects.toList

section
variable {Cron : Type} (parseCron : String → Except String Cron)

def checkCadence (kind id : String) (pace : Pace) : List String :=
  match pace.schedule with
  | none => []
  | some expression =>
    (match parseCron expression with
      | .ok _ => []
      | .error e =>
        [kind ++ " '" ++ id ++ "' has an invalid cron schedule '" ++ expression ++ "': " ++ e]) ++
    if pace.syncIntervalSeconds.any (0 < ·) then
      [kind ++ " '" ++ id ++ "' sets both schedule and sync_interval_seconds — pick one"]
    else []

/-- The checks of the loader that read a number. -/
def validateErrors (cfg : NumberConfig) : List String :=
  (if cfg.secretsConfig.any (·.timeoutSeconds = 0) then
    ["secrets.vault.timeout_seconds 0 would fail every request to that Vault — " ++
      "give it a bound in seconds (default 10)"]
  else []) ++
  (cfg.sources.toList.flatMap fun (id, source) =>
    checkCadence parseCron "Source" id source.pace) ++
  (cfg.enrichers.toList.flatMap fun (id, pace) => checkCadence parseCron "Enricher" id pace) ++
  (cfg.projects.toList.flatMap fun (id, pace) => checkCadence parseCron "Project" id pace)

end

end NumberConfig

/-! ## Timers -/

namespace Scheduler

/-- `tokio::time::interval`. -/
def interval (periodSeconds : Nat) : Option Unit := if periodSeconds = 0 then none else some ()

def maxJitterSeconds : Nat := 30

/-- The remainder of a division by zero panics. -/
def checkedRem (a b : Nat) : Option Nat := if b = 0 then none else some (a % b)

/-- Milliseconds before the first tick, from a hash of the id. -/
def startupJitter (hash : String → Nat) (id : String) (intervalSeconds : Nat) : Option Nat :=
  let windowMs := min intervalSeconds maxJitterSeconds * 1000
  if windowMs = 0 then some 0 else checkedRem (hash id) windowMs

inductive Cadence (Cron : Type) where
  | interval (seconds : Nat)
  | cron (cron : Cron)

section
variable {Cron : Type} (parseCron : String → Except String Cron) (hash : String → Nat)

/-- A schedule that does not parse, and an interval of zero, is no task. -/
def cadence (pace : Pace) : Option (Cadence Cron) :=
  match pace.schedule, pace.syncIntervalSeconds with
  | some expression, _ => (parseCron expression).toOption.map .cron
  | none, some seconds => if seconds > 0 then some (.interval seconds) else none
  | none, none => none

def startTask (id : String) (pace : Pace) : Option Unit :=
  match cadence parseCron pace with
  | some (.interval seconds) => do
    let _ ← startupJitter hash id seconds
    interval seconds
  | some (.cron _) | none => some ()

def startTasks (cfg : NumberConfig) : Option Unit :=
  forM cfg.paces fun paced => startTask parseCron hash paced.1 paced.2

theorem startupJitter_isSome (id : String) (intervalSeconds : Nat) :
    ∃ jitter, startupJitter hash id intervalSeconds = some jitter := by
  unfold startupJitter checkedRem
  dsimp only
  split
  · exact ⟨0, rfl⟩
  · exact ⟨_, rfl⟩

/-- The guard on the cadence keeps a zero away from the timer. -/
theorem startTask_eq (id : String) (pace : Pace) : startTask parseCron hash id pace = some () := by
  unfold startTask
  split
  · rename_i seconds hcadence
    have hpos : 0 < seconds := by
      unfold cadence at hcadence
      split at hcadence
      · obtain ⟨_, _, h⟩ := Option.map_eq_some_iff.mp hcadence
        cases h
      · obtain ⟨hpos, h⟩ := Option.ite_none_right_eq_some.mp hcadence
        cases h
        exact hpos
      · cases hcadence
    obtain ⟨jitter, hjitter⟩ := startupJitter_isSome hash id seconds
    simp [hjitter, interval, hpos.ne']
  · rfl
  · rfl

/-- Whatever the intervals, the tasks start. -/
theorem startTasks_eq (cfg : NumberConfig) : startTasks parseCron hash cfg = some () := by
  unfold startTasks
  induction cfg.paces with
  | nil => rfl
  | cons item rest ih =>
    rw [List.forM_cons, startTask_eq]
    exact ih

end

end Scheduler

/-! ## Sessions -/

namespace Ssh

/-- What a sync takes from libraries, and where the checkouts are. -/
structure SyncOps where
  names : SecretNames
  specsToString : List HostSpec → Except String String
  specsFromStr : String → Except String (List HostSpec)
  decodeSecretKey : String → Except String Unit
  projectsDir : String

/-- What a sync is asked and what it finds. -/
structure SyncInputs where
  request : RunRequest
  disk : Disk
  /-- A file as text. -/
  readText : String → Except String String
  cached : String → Option Dataset
  resolver : Resolver

/-- How many sessions run at a time. -/
def concurrency (config : StrMap String) : Nat :=
  (config["concurrency"]?.bind fun text => Text.parseUsize text.toList).getD 50

def keyPath (credentials : StrMap String) : Option String :=
  credentials["SSH_KEY_PATH"]?.or credentials["ssh_key_path"]?

section
variable (ops : SyncOps)

def readKnownHosts (inputs : SyncInputs) (config : StrMap String) :
    Except String (Option String) :=
  match config["ssh_known_hosts"]? with
  | none => .ok none
  | some path => match inputs.readText path with
    | .ok text => .ok (some text)
    | .error e => .error ("Cannot read ssh_known_hosts '" ++ path ++ "': " ++ e)

def readKey (inputs : SyncInputs) (credentials : StrMap String) : Except String Unit :=
  match keyPath credentials with
  | none => .error "No SSH key path provided (need SSH_KEY_PATH in credentials)"
  | some path => match inputs.readText path with
    | .error e => .error ("Cannot read SSH key at '" ++ path ++ "': " ++ e)
    | .ok data => match ops.decodeSecretKey data with
      | .error e => .error ("Failed to decode SSH private key: " ++ e)
      | .ok () => .ok ()

/-- A sync of an ssh source up to its first session, with the configuration it
runs with. -/
def prepare (source : ResolvedSource) (inputs : SyncInputs) : Except String (StrMap String) := do
  let source := source.forSync inputs.disk ops.projectsDir
  let config ← runConfig ops.specsToString inputs.cached source inputs.request
  let credentials ← resolveCredentials ops.names inputs.resolver source.credentialIds
  let _ ← execute inputs.disk ops.specsFromStr source.scriptPath
    (argsForScope source inputs.request.scope) config
  let _ ← readKnownHosts inputs config
  readKey ops inputs credentials
  return config

def startSessions (source : ResolvedSource) (inputs : SyncInputs) :
    Option (Except String Semaphore) :=
  match prepare ops source inputs with
  | .error e => some (.error e)
  | .ok config => (Semaphore.new (concurrency config)).map .ok

/-- Some sync of the source comes to its sessions: it has hosts to gather, a script
that can be sent and a key. -/
def Gathers (source : ResolvedSource) : Prop :=
  source.connectorType = .ssh ∧ ∃ inputs config, prepare ops source inputs = .ok config

theorem runConfig_of_prepare {source : ResolvedSource} {inputs : SyncInputs}
    {config : StrMap String} (h : prepare ops source inputs = .ok config) :
    runConfig ops.specsToString inputs.cached (source.forSync inputs.disk ops.projectsDir)
      inputs.request = .ok config := by
  obtain ⟨found, hconfig, h⟩ := Results.ok_of_bind h
  obtain ⟨credentials, _, h⟩ := Results.ok_of_bind h
  obtain ⟨sessions, _, h⟩ := Results.ok_of_bind h
  obtain ⟨known, _, h⟩ := Results.ok_of_bind h
  obtain ⟨_, _, h⟩ := Results.ok_of_bind h
  rw [hconfig]
  exact h

/-- Nothing that a sync adds stands in for the source's own limit. -/
theorem concurrency_prepare {source : ResolvedSource} (hssh : source.connectorType = .ssh)
    {inputs : SyncInputs} {config : StrMap String} (h : prepare ops source inputs = .ok config) :
    concurrency config = concurrency source.config := by
  have hsync := forSync_ssh inputs.disk ops.projectsDir hssh
  obtain ⟨own, hown, rfl⟩ := Results.ok_of_map (runConfig_of_prepare ops h)
  have hsource : own["concurrency"]? = source.config["concurrency"]? := by
    have hconfig : (source.forSync inputs.disk ops.projectsDir).config = source.config := by
      rw [hsync]
    unfold hostsConfig at hown
    split at hown
    · obtain ⟨json, _, rfl⟩ := Results.ok_of_map hown
      rw [StrMap.getElem?_insert, if_neg (by decide), hconfig]
    · rw [← Except.ok.inj hown, hconfig]
  have hadded : (((source.forSync inputs.disk ops.projectsDir).addLocation
      (inputs.request.addTo (inputs.request.scope.addTo own)))["concurrency"]?) =
        source.config["concurrency"]? := by
    rw [addLocation_getElem? (by rw [hsync]; exact hssh), if_neg (by decide),
      addTo_other (by decide), addScope_getElem?, if_neg (by decide), if_neg (by decide), hsource]
  rw [concurrency, concurrency, hadded]

theorem startSessions_isSome {source : ResolvedSource} (hssh : source.connectorType = .ssh)
    (h : Gathers ops source → concurrency source.config ≤ Semaphore.maxPermits)
    (inputs : SyncInputs) : ∃ result, startSessions ops source inputs = some result := by
  unfold startSessions
  cases hprepare : prepare ops source inputs with
  | error e => exact ⟨_, rfl⟩
  | ok config =>
    have hfits := h ⟨hssh, inputs, config, hprepare⟩
    dsimp only
    rw [concurrency_prepare ops hssh hprepare, Semaphore.new, if_pos hfits]
    exact ⟨_, rfl⟩

end

end Ssh

/-! ## The process -/

/-- `RefreshCoordinator::new`. -/
def coordinator (maxConcurrent : Nat) : Option RefreshPermits :=
  let capacity := max maxConcurrent 1
  (Semaphore.new capacity).map fun limiter => { limiter, capacity }

def startSnapshotTask : Option PersistenceConfig → Option Unit
  | some persistence => Scheduler.interval persistence.intervalSeconds
  | none => some ()

/-- `past` has the configurations of tasks that may not have ended yet. -/
structure Process where
  config : NumberConfig
  refresh : RefreshPermits
  past : List NumberConfig := []

inductive ProcessEvent where
  | reload (cfg : NumberConfig)
  /-- A refresh takes or returns a permit. -/
  | permit (op : PermitOp)
  | gather (source : ResolvedSource) (inputs : Ssh.SyncInputs)

namespace Process

section
variable {Cron : Type} (parseCron : String → Except String Cron) (hash : String → Nat)
  (ops : Ssh.SyncOps)

def boot (cfg : NumberConfig) : Option Process := do
  let refresh ← coordinator cfg.server.refreshMaxConcurrent
  startSnapshotTask cfg.persistence
  Scheduler.startTasks parseCron hash cfg
  return { config := cfg, refresh }

/-- The coordinator is resized where a limit changed, and the tasks are
replaced. The snapshot task stays as it was started. -/
def reload (s : Process) (cfg : NumberConfig) : Option Process := do
  let changed := s.config.server.refreshMaxConcurrent ≠ cfg.server.refreshMaxConcurrent ∨
    s.config.server.refreshTimeoutSeconds ≠ cfg.server.refreshTimeoutSeconds
  let refresh ← if changed then s.refresh.resize cfg.server.refreshMaxConcurrent else some s.refresh
  Scheduler.startTasks parseCron hash cfg
  return { config := cfg, refresh, past := s.config :: s.past }

def step (s : Process) : ProcessEvent → Option Process
  | .reload cfg => s.reload parseCron hash cfg
  | .permit op => (s.refresh.step op).map fun refresh => { s with refresh }
  | .gather source inputs =>
    if source.connectorType = .ssh then (Ssh.startSessions ops source inputs).map fun _ => s
    else some s

/-- Only an admitted configuration is loaded, only a permit that is held comes
back, and only sources of a loaded configuration are gathered. -/
def Allowed (admitted : NumberConfig → Prop) (s : Process) : ProcessEvent → Prop
  | .reload cfg => admitted cfg
  | .permit op => (∀ n, op ≠ .resize n) ∧ s.refresh.Allowed op
  | .gather source _ => ∃ cfg : NumberConfig, cfg ∈ s.config :: s.past ∧
      ∃ id : String, cfg.sources[id]? = some source

/-- From any start, over any reloads, nothing panics. -/
def NeverPanics (admitted : NumberConfig → Prop) : Prop :=
  ∀ cfg, admitted cfg → ∃ start, boot parseCron hash cfg = some start ∧
    ∀ s, Runs.Reach (step parseCron hash ops) (Allowed admitted) start s →
      ∀ event, s.Allowed admitted event → ∃ s', s.step parseCron hash ops event = some s'

end

end Process

/-- The numbers that the calls take. -/
structure NumberConfig.Fits (ops : Ssh.SyncOps) (cfg : NumberConfig) : Prop where
  period : ∀ persistence ∈ cfg.persistence, persistence.intervalSeconds ≠ 0
  refreshes : cfg.server.refreshMaxConcurrent ≤ Semaphore.maxPermits
  sessions : ∀ (id : String) (source : ResolvedSource), cfg.sources[id]? = some source →
    Ssh.Gathers ops source → Ssh.concurrency source.config ≤ Semaphore.maxPermits

namespace Process
variable {Cron : Type} (parseCron : String → Except String Cron) (hash : String → Nat)
  {ops : Ssh.SyncOps}

theorem coordinator_isSome_iff (maxConcurrent : Nat) :
    (coordinator maxConcurrent).isSome = true ↔ maxConcurrent ≤ Semaphore.maxPermits := by
  have hone : 1 ≤ Semaphore.maxPermits := by decide
  unfold coordinator Semaphore.new
  dsimp only
  split
  · exact iff_of_true rfl (by omega)
  · exact iff_of_false Bool.false_ne_true (by omega)

theorem coordinator_eq {maxConcurrent : Nat} {refresh : RefreshPermits}
    (h : coordinator maxConcurrent = some refresh) : refresh = .new maxConcurrent := by
  obtain ⟨limiter, hlimiter, rfl⟩ := Option.map_eq_some_iff.mp h
  obtain ⟨_, hlimiter⟩ := Option.ite_none_right_eq_some.mp hlimiter
  rw [← Option.some.inj hlimiter]
  rfl

theorem startSnapshotTask_iff (persistence : Option PersistenceConfig) :
    startSnapshotTask persistence = some () ↔
      ∀ configured ∈ persistence, configured.intervalSeconds ≠ 0 := by
  cases persistence with
  | none => exact iff_of_true rfl nofun
  | some configured =>
    simp [startSnapshotTask, Scheduler.interval]

/-- What holds of a process whose configurations all fit. -/
structure Sound (ops : Ssh.SyncOps) (s : Process) : Prop where
  balanced : s.refresh.Balanced
  fits : ∀ cfg ∈ s.config :: s.past, cfg.Fits ops

theorem Sound.boot {cfg : NumberConfig} (h : cfg.Fits ops) :
    ∃ start, boot parseCron hash cfg = some start ∧ start.Sound ops := by
  obtain ⟨refresh, hrefresh⟩ := Option.isSome_iff_exists.mp
    ((coordinator_isSome_iff cfg.server.refreshMaxConcurrent).mpr h.refreshes)
  have hsnapshot := (startSnapshotTask_iff cfg.persistence).mpr h.period
  refine ⟨{ config := cfg, refresh }, ?_, ?_, ?_⟩
  · simp [Process.boot, hrefresh, hsnapshot, Scheduler.startTasks_eq]
  · rw [coordinator_eq hrefresh]
    exact .new h.refreshes
  · intro other hother
    rw [List.mem_singleton.mp hother]
    exact h

theorem Sound.reload {s : Process} (h : s.Sound ops) {cfg : NumberConfig}
    (hcfg : cfg.Fits ops) :
    ∃ s', s.reload parseCron hash cfg = some s' ∧ s'.Sound ops := by
  have hfits : ∀ other ∈ cfg :: s.config :: s.past, other.Fits ops :=
    List.forall_mem_cons.mpr ⟨hcfg, h.fits⟩
  unfold Process.reload
  dsimp only
  split
  · have hallowed : s.refresh.Allowed (.resize cfg.server.refreshMaxConcurrent) := hcfg.refreshes
    obtain ⟨refresh, hrefresh, hbalanced⟩ := h.balanced.step hallowed
    have hresize : s.refresh.resize cfg.server.refreshMaxConcurrent = some refresh := hrefresh
    refine ⟨{ config := cfg, refresh, past := s.config :: s.past }, ?_, hbalanced, hfits⟩
    simp [hresize, Scheduler.startTasks_eq]
  · refine ⟨{ config := cfg, refresh := s.refresh, past := s.config :: s.past }, ?_,
      h.balanced, hfits⟩
    simp [Scheduler.startTasks_eq]

theorem Sound.step {admitted : NumberConfig → Prop}
    (hadmitted : ∀ cfg, admitted cfg → cfg.Fits ops) {s : Process}
    (h : s.Sound ops) {event : ProcessEvent} (hevent : s.Allowed admitted event) :
    ∃ s', s.step parseCron hash ops event = some s' ∧ s'.Sound ops := by
  cases event with
  | reload cfg => exact h.reload parseCron hash (hadmitted cfg hevent)
  | permit op =>
    obtain ⟨_, hallowed⟩ := hevent
    obtain ⟨refresh, hrefresh, hbalanced⟩ := h.balanced.step hallowed
    exact ⟨{ s with refresh }, by simp [Process.step, hrefresh], hbalanced, h.fits⟩
  | gather source inputs =>
    obtain ⟨cfg, hcfg, id, hsource⟩ := hevent
    refine ⟨s, ?_, h⟩
    unfold Process.step
    dsimp only
    split
    · rename_i hssh
      obtain ⟨result, hresult⟩ := Ssh.startSessions_isSome ops hssh
        ((h.fits cfg hcfg).sessions id source hsource) inputs
      rw [hresult]
      rfl
    · rfl

/-- **Admitted numbers never bring a task down** exactly when every
configuration that is admitted fits. -/
theorem neverPanics_iff (parseCron : String → Except String Cron) (hash : String → Nat)
    (ops : Ssh.SyncOps) (admitted : NumberConfig → Prop) :
    NeverPanics parseCron hash ops admitted ↔ ∀ cfg, admitted cfg → cfg.Fits ops := by
  constructor
  · intro h cfg hcfg
    obtain ⟨start, hboot, hrun⟩ := h cfg hcfg
    obtain ⟨refresh, hrefresh, hboot⟩ := Option.bind_eq_some_iff.mp hboot
    obtain ⟨_, hsnapshot, hboot⟩ := Option.bind_eq_some_iff.mp hboot
    obtain ⟨_, _, hboot⟩ := Option.bind_eq_some_iff.mp hboot
    obtain rfl := Option.some.inj hboot
    refine ⟨(startSnapshotTask_iff _).mp hsnapshot, (coordinator_isSome_iff _).mp ?_, ?_⟩
    · rw [hrefresh]
      rfl
    · intro id source hsource hgathers
      obtain ⟨hssh, inputs, config, hprepare⟩ := hgathers
      -- a sync that gets as far as its sessions
      obtain ⟨s', hs'⟩ := hrun _ .start (.gather source inputs)
        ⟨cfg, List.mem_cons_self, id, hsource⟩
      simp only [step, hssh, if_true, Ssh.startSessions, hprepare,
        Ssh.concurrency_prepare ops hssh hprepare] at hs'
      obtain ⟨_, hsessions, _⟩ := Option.map_eq_some_iff.mp hs'
      obtain ⟨_, hnew, _⟩ := Option.map_eq_some_iff.mp hsessions
      exact (Option.ite_none_right_eq_some.mp hnew).1
  · intro h cfg hcfg
    obtain ⟨start, hboot, hsound⟩ := Sound.boot parseCron hash (h cfg hcfg)
    refine ⟨start, hboot, fun s hreach event hevent => ?_⟩
    have hs : s.Sound ops := by
      refine hreach.invariant hsound fun s event s' hs hevent hstep => ?_
      obtain ⟨next, hnext, hkept⟩ := hs.step parseCron hash h hevent
      obtain rfl := Option.some.inj (hnext.symm.trans hstep)
      exact hkept
    obtain ⟨s', hs', _⟩ := hs.step parseCron hash h hevent
    exact ⟨s', hs'⟩

/-- A cache that is to be saved every zero seconds. -/
def zeroPeriod : NumberConfig where
  server := { host := "127.0.0.1", port := 9090 }
  persistence := some { path := "/var/lib/unified-api/cache.json", intervalSeconds := 0 }
  secretsConfig := none
  items _ := ∅

/-- The loader accepts it, and the snapshot task does not survive its start. -/
theorem zeroPeriod_panics : ¬ ∃ (Cron : Type) (parseCron : String → Except String Cron)
    (hash : String → Nat) (ops : Ssh.SyncOps),
    NeverPanics parseCron hash ops fun cfg => cfg.validateErrors parseCron = [] := by
  intro h
  obtain ⟨Cron, parseCron, hash, ops, h⟩ := h
  have haccepted : zeroPeriod.validateErrors parseCron = [] := rfl
  obtain ⟨start, hboot, _⟩ := h zeroPeriod haccepted
  simp [boot, zeroPeriod, startSnapshotTask, Scheduler.interval] at hboot

end Process

end UnifiedApi
