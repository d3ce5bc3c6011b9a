import UnifiedApi.Lib.Clock
import UnifiedApi.Lib.StrMap

/-! # How the runs of a source went

For each id, what the last attempts came to and the last runs, newest first.
The clock of the health is monotonic; a run's start is in unix seconds. -/

namespace UnifiedApi

inductive RunTrigger where
  | scheduled | manual | refresh | startup
  deriving DecidableEq

/-- One run, as the history keeps it. -/
structure RunRecord where
  startedAt : Nat
  durationMs : Nat
  trigger : RunTrigger
  requestedBy : Option String := none
  scope : Option String
  error : Option String := none
  hosts : Option Nat := none
  groups : Option Nat := none
  revisionBefore : Option String := none
  revision : Option String := none
  deriving DecidableEq

structure HealthRecord where
  lastAttempt : Nat
  lastSuccess : Option Nat := none
  lastError : Option String := none
  consecutiveFailures : Nat := 0
  deriving DecidableEq

/-- How many runs each id keeps. -/
def historyLimit : Nat := 50

/-- An error is kept whole up to this many bytes. -/
def historyError : Nat := 2000

/-- The longest prefix within a number of bytes. -/
def prefixWithin : Nat → List Char → List Char
  | _, [] => []
  | bytes, c :: rest =>
    if c.utf8Size ≤ bytes then c :: prefixWithin (bytes - c.utf8Size) rest else []

def cutError (error : String) : String :=
  if historyError < error.utf8ByteSize then
    (String.ofList (prefixWithin historyError error.toList)).push '…'
  else error

/-- The run as it is kept: its error may be cut. -/
def RunRecord.kept (run : RunRecord) : RunRecord := { run with error := run.error.map cutError }

/-- What is told of an id's attempts, in ages. -/
structure SyncHealth where
  lastAttemptAgeSeconds : Option Nat
  lastSuccessAgeSeconds : Option Nat
  lastError : Option String
  consecutiveFailures : Nat
  deriving DecidableEq

structure SyncHealthRegistry where
  inner : StrMap HealthRecord := ∅
  runs : StrMap (List RunRecord) := ∅
  deriving DecidableEq

namespace SyncHealthRegistry

def recordSuccess (registry : SyncHealthRegistry) (id : String) (now : Nat) :
    SyncHealthRegistry :=
  { registry with
    inner := registry.inner.insert id { lastAttempt := now, lastSuccess := some now } }

/-- A failure keeps the last success; the count saturates. -/
def recordFailure (registry : SyncHealthRegistry) (id error : String) (now : Nat) :
    SyncHealthRegistry :=
  let record := registry.inner[id]?.getD { lastAttempt := now }
  { registry with
    inner := registry.inner.insert id { record with
      lastAttempt := now
      lastError := some error
      consecutiveFailures := min (record.consecutiveFailures + 1) (2 ^ 32 - 1) } }

def get (registry : SyncHealthRegistry) (id : String) (now : Nat) : Option SyncHealth :=
  registry.inner[id]?.map fun record =>
    { lastAttemptAgeSeconds := some (Clock.asSecs (Clock.elapsed now record.lastAttempt))
      lastSuccessAgeSeconds := record.lastSuccess.map fun success =>
        Clock.asSecs (Clock.elapsed now success)
      lastError := record.lastError
      consecutiveFailures := record.consecutiveFailures }

/-- The id's runs, newest first. -/
def history (registry : SyncHealthRegistry) (id : String) : List RunRecord :=
  registry.runs[id]?.getD []

/-- The oldest run is dropped past the limit. -/
def recordRun (registry : SyncHealthRegistry) (id : String) (run : RunRecord) :
    SyncHealthRegistry :=
  { registry with
    runs := registry.runs.insert id ((run.kept :: registry.history id).take historyLimit) }

variable (registry : SyncHealthRegistry) (id : String)

@[simp] theorem history_recordSuccess (now : Nat) (other : String) :
    (registry.recordSuccess id now).history other = registry.history other := rfl

@[simp] theorem history_recordFailure (error : String) (now : Nat) (other : String) :
    (registry.recordFailure id error now).history other = registry.history other := rfl

theorem history_recordRun (run : RunRecord) (other : String) :
    (registry.recordRun id run).history other =
      if id = other then (run.kept :: registry.history id).take historyLimit
      else registry.history other := by
  unfold history recordRun
  rw [StrMap.getElem?_insert]
  split
  · rfl
  · rfl

/-- The run just recorded is the newest. -/
@[simp] theorem head?_history_recordRun (run : RunRecord) :
    ((registry.recordRun id run).history id).head? = some run.kept := by
  rw [history_recordRun, if_pos rfl]
  rfl

end SyncHealthRegistry

end UnifiedApi
