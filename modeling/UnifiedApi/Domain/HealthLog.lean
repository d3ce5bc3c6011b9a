import Mathlib.Data.List.Induction
import UnifiedApi.Domain.SyncHealth

/-! # What the health registry amounts to

Behind the registry stands the log of everything that was ever recorded in it.
Of an id's attempts it keeps a summary, of its runs the newest ones. -/

namespace UnifiedApi

/-- One attempt: when it was recorded, and why it failed. -/
structure Attempt where
  instant : Nat
  error : Option String
  deriving DecidableEq

def Attempt.failed (attempt : Attempt) : Bool := attempt.error.isSome

/-- How many of the newest attempts failed in a row. -/
def streak (attempts : List Attempt) : Nat := (attempts.takeWhile (·.failed)).length

/-- What an id's attempts come to, newest first; the count is a `u32`. -/
def summary (attempts : List Attempt) : Option HealthRecord :=
  attempts.head?.map fun newest =>
    { lastAttempt := newest.instant
      lastSuccess := (attempts.find? (!·.failed)).map (·.instant)
      lastError := newest.error
      consecutiveFailures := min (streak attempts) (2 ^ 32 - 1) }

/-- A call of the registry. -/
inductive HealthEvent where
  | success (id : String) (now : Nat)
  | failure (id error : String) (now : Nat)
  | run (id : String) (run : RunRecord)
  deriving DecidableEq

namespace HealthEvent

variable (id : String)

def attemptOf : HealthEvent → Option Attempt
  | success other now => if other = id then some ⟨now, none⟩ else none
  | failure other error now => if other = id then some ⟨now, some error⟩ else none
  | run _ _ => none

def runOf : HealthEvent → Option RunRecord
  | run other record => if other = id then some record else none
  | success _ _ | failure _ _ _ => none

end HealthEvent

/-- Everything recorded, newest first. -/
abbrev HealthLog := List HealthEvent

namespace HealthLog

def attempts (log : HealthLog) (id : String) : List Attempt := log.filterMap (·.attemptOf id)

def runs (log : HealthLog) (id : String) : List RunRecord := log.filterMap (·.runOf id)

end HealthLog

namespace SyncHealthRegistry

def record (registry : SyncHealthRegistry) : HealthEvent → SyncHealthRegistry
  | .success id now => registry.recordSuccess id now
  | .failure id error now => registry.recordFailure id error now
  | .run id run => registry.recordRun id run

/-- The registry after a log, whose oldest event comes last. -/
def ofLog (log : HealthLog) : SyncHealthRegistry :=
  log.foldr (fun event registry => registry.record event) {}

/-- The registry keeps what the log comes to. -/
structure Tells (registry : SyncHealthRegistry) (log : HealthLog) : Prop where
  health : ∀ id : String, registry.inner[id]? = summary (log.attempts id)
  history : ∀ id, registry.history id =
    ((log.runs id).map RunRecord.kept).take historyLimit

/-! ## One more attempt -/

theorem summary_success (now : Nat) (attempts : List Attempt) :
    summary (⟨now, none⟩ :: attempts) = some { lastAttempt := now, lastSuccess := some now } := by
  simp [summary, streak, Attempt.failed]

/-- A failure counts on from what was there. -/
theorem summary_failure (now : Nat) (error : String) (attempts : List Attempt) :
    summary (⟨now, some error⟩ :: attempts) =
      let record := (summary attempts).getD { lastAttempt := now }
      some { record with
        lastAttempt := now
        lastError := some error
        consecutiveFailures := min (record.consecutiveFailures + 1) (2 ^ 32 - 1) } := by
  cases attempts with
  | nil => simp [summary, streak, Attempt.failed]
  | cons newest rest =>
    have hstreak : streak (⟨now, some error⟩ :: newest :: rest) = streak (newest :: rest) + 1 := by
      simp [streak, Attempt.failed]
    simp only [summary, List.head?_cons, Option.map_some, Option.getD_some, hstreak]
    refine congrArg some (HealthRecord.mk.injEq .. |>.mpr ⟨rfl, ?_, rfl, by omega⟩)
    rw [List.find?_cons_of_neg (by simp [Attempt.failed])]

variable {registry : SyncHealthRegistry} {log : HealthLog}

theorem Tells.empty : Tells {} [] where
  health _ := rfl
  history _ := rfl

theorem Tells.record (h : registry.Tells log) (event : HealthEvent) :
    (registry.record event).Tells (event :: log) := by
  cases event with
  | success id now =>
    refine ⟨fun other => ?_, fun other => h.history other⟩
    show (registry.inner.insert id _)[other]? = summary (List.filterMap _ _)
    rw [StrMap.getElem?_insert, List.filterMap_cons]
    rcases eq_or_ne id other with rfl | hne
    · simp only [HealthEvent.attemptOf, if_true]
      exact (summary_success now _).symm
    · simp only [HealthEvent.attemptOf, if_neg hne]
      exact h.health other
  | failure id error now =>
    refine ⟨fun other => ?_, fun other => h.history other⟩
    show (registry.inner.insert id _)[other]? = summary (List.filterMap _ _)
    rw [StrMap.getElem?_insert, List.filterMap_cons]
    rcases eq_or_ne id other with rfl | hne
    · simp only [HealthEvent.attemptOf, if_true, h.health id]
      exact (summary_failure now error _).symm
    · simp only [HealthEvent.attemptOf, if_neg hne]
      exact h.health other
  | run id record =>
    refine ⟨fun other => h.health other, fun other => ?_⟩
    show (registry.recordRun id record).history other =
      ((List.filterMap _ _).map RunRecord.kept).take historyLimit
    rw [history_recordRun, List.filterMap_cons]
    rcases eq_or_ne id other with rfl | hne
    · simp only [HealthEvent.runOf, if_true, List.map_cons]
      rw [h.history id, historyLimit, List.take_succ_cons, List.take_succ_cons, List.take_take]
      rfl
    · simp only [HealthEvent.runOf, if_neg hne]
      exact h.history other

theorem tells_ofLog (log : HealthLog) : (ofLog log).Tells log := by
  induction log with
  | nil => exact Tells.empty
  | cons event rest ih => exact ih.record event

/-! ## What is kept of an error -/

theorem sum_prefixWithin_le (bytes : Nat) (text : List Char) :
    ((prefixWithin bytes text).map Char.utf8Size).sum ≤ bytes := by
  induction text generalizing bytes with
  | nil => exact Nat.zero_le bytes
  | cons c rest ih =>
    unfold prefixWithin
    split
    · rename_i hfits
      have hrest := ih (bytes - c.utf8Size)
      rw [List.map_cons, List.sum_cons]
      omega
    · exact Nat.zero_le bytes

private theorem utf8ByteSize_ofList (text : List Char) :
    (String.ofList text).utf8ByteSize = (text.map Char.utf8Size).sum := by
  induction text using List.reverseRecOn with
  | nil => rfl
  | append_singleton rest c ih =>
    have hpush : String.ofList (rest ++ [c]) = (String.ofList rest).push c :=
      String.toList_inj.mp (by simp)
    rw [hpush, String.utf8ByteSize_push, ih, List.map_append, List.sum_append]
    simp

/-- An error that was cut ends on a whole character. -/
theorem utf8ByteSize_cutError_le (error : String) : (cutError error).utf8ByteSize ≤ 2003 := by
  unfold cutError
  split
  · have hcut := sum_prefixWithin_le historyError error.toList
    have hmark : Char.utf8Size '…' = 3 := by decide
    rw [String.utf8ByteSize_push, utf8ByteSize_ofList, hmark]
    simp only [historyError] at hcut ⊢
    omega
  · simp only [historyError] at *
    omega

end SyncHealthRegistry

/-! ## The registry and its log -/

/-- **Over any sequence of recorded attempts and runs, of any ids in any order,
the registry tells of each id the summary of its own attempts and its newest
fifty runs, no kept error longer than two thousand bytes and the mark of a
cut.** -/
theorem SyncHealthRegistry.ofLog_told (log : HealthLog) (id : String) (now : Nat) :
    ((ofLog log).get id now = (log.attempts id).head?.map fun newest =>
      { lastAttemptAgeSeconds := some (Clock.asSecs (Clock.elapsed now newest.instant))
        lastSuccessAgeSeconds := ((log.attempts id).find? (!·.failed)).map fun success =>
          Clock.asSecs (Clock.elapsed now success.instant)
        lastError := newest.error
        consecutiveFailures := min (streak (log.attempts id)) (2 ^ 32 - 1) }) ∧
    (ofLog log).history id = ((log.runs id).map RunRecord.kept).take historyLimit ∧
    ∀ run ∈ (ofLog log).history id, ∀ error, run.error = some error →
      error.utf8ByteSize ≤ 2003 := by
  have htells := tells_ofLog log
  refine ⟨?_, htells.history id, ?_⟩
  · rw [get, htells.health id, summary, Option.map_map]
    refine congrArg (fun f => (log.attempts id).head?.map f) (funext fun newest => ?_)
    simp only [Function.comp, Option.map_map]
    rfl
  · intro run hrun error herror
    rw [htells.history id] at hrun
    obtain ⟨whole, _, rfl⟩ := List.mem_map.mp (List.mem_of_mem_take hrun)
    obtain ⟨full, _, rfl⟩ := Option.map_eq_some_iff.mp herror
    exact utf8ByteSize_cutError_le full

end UnifiedApi
