import UnifiedApi.Application.Refresh
import UnifiedApi.Application.SyncedHosts

/-! # What a refresh reports

A refresh looks for stale hosts, once before it takes their locks and once under
them, and syncs those that are still stale. It reports the hosts it asked for; its
sync writes the hosts that the connector returned. -/

namespace UnifiedApi

structure RefreshOutcome where
  refreshed : List String := []
  alreadyFresh : Nat := 0
  error : Option String := none
  deriving DecidableEq

def RefreshOutcome.failed (error : String) : RefreshOutcome := { error := some error }

/-- How the sync of the stale hosts ends within the budget. -/
inductive RefreshSync where
  | finished (result : Except String ConnectorOutput)
  | elapsed

/-- A call of `refresh_hosts`: what it is asked for, the cache at its first look
and under the locks, whether the limiter lets it through, and its sync. -/
structure RefreshHosts where
  sourceId : String
  source : Source
  hosts : List String
  ttlOverride : Option Nat := none
  cache : MemoryCache
  now : Nat
  lockedCache : MemoryCache
  lockedNow : Nat
  permit : Bool := true
  budgetSecs : Nat
  sync : RefreshSync

namespace RefreshHosts
variable (call : RefreshHosts)

def stale : List String :=
  staleHosts call.cache call.source call.sourceId call.hosts call.ttlOverride call.now

def stillStale : List String :=
  staleHosts call.lockedCache call.source call.sourceId call.stale call.ttlOverride call.lockedNow

def outcome : RefreshOutcome :=
  if call.hosts.isEmpty then {}
  else if call.stale.isEmpty then { alreadyFresh := call.hosts.length }
  -- whoever held the locks refreshed these very hosts
  else if call.stillStale.isEmpty then { alreadyFresh := call.hosts.length }
  else if !call.permit then .failed "refresh limiter unavailable"
  else match call.sync with
    | .finished (.ok _) =>
      { alreadyFresh := call.hosts.length - call.stillStale.length
        refreshed := call.stillStale }
    | .finished (.error error) => .failed error
    | .elapsed => .failed ("refresh did not finish within " ++ toString call.budgetSecs ++ "s")

/-- What the sync brings in, when there is one and it succeeds. -/
def gathered : Option ConnectorOutput :=
  if call.stillStale.isEmpty || !call.permit then none
  else match call.sync with
    | .finished (.ok output) => some output
    | .finished (.error _) | .elapsed => none

/-- The hosts whose entries the sync writes. -/
def written : List String :=
  match call.gathered with
  | some output => (scopedUpdates call.stillStale output).map (·.1)
  | none => []

/-- The cache after the sync, which finds it as `before` when the gather lands. -/
def landed (before : MemoryCache) (landedAt : Nat) : MemoryCache :=
  match call.gathered with
  | some output =>
    applyToCache before call.sourceId call.source (.hosts call.stillStale) output landedAt
  | none => before

variable {call}

theorem mem_written {host : String} : host ∈ call.written ↔
    ∃ output, call.gathered = some output ∧ host ∈ call.stillStale ∧
      host ∈ output.dataset.hostvars := by
  unfold written
  cases call.gathered with
  | none => simp
  | some output =>
    simp only [scopedUpdates, List.mem_map, List.mem_filterMap, Option.map_eq_some_iff,
      Option.some.injEq, exists_eq_left', StrMap.mem_iff_exists]
    constructor
    · rintro ⟨_, ⟨asked, hasked, vars, hvars, rfl⟩, rfl⟩
      exact ⟨hasked, vars, hvars⟩
    · rintro ⟨hasked, vars, hvars⟩
      exact ⟨_, ⟨host, hasked, vars, hvars, rfl⟩, rfl⟩

/-- In an entry that was there the written hosts become what the connector
returned, and no other host changes. -/
theorem landed_hostAt {output : ConnectorOutput} (hgathered : call.gathered = some output)
    {before : MemoryCache} {entry : CacheEntry} (hentry : before.get call.sourceId = some entry)
    (landedAt : Nat) (host : String) :
    ∃ entry', (call.landed before landedAt).get call.sourceId = some entry' ∧
      entry'.hostAt host =
        if host ∈ call.written then (output.dataset.hostvars[host]?,
          some (CacheEntry.backdated (output.ageOf host) landedAt))
        else entry.hostAt host := by
  have hwritten : host ∈ call.written ↔ host ∈ call.stillStale ∧
      host ∈ output.dataset.hostvars := by simp [mem_written, hgathered]
  rw [landed, hgathered, get_applyToCache, if_pos rfl, hentry, syncedEntry]
  by_cases hempty : (scopedUpdates call.stillStale output).isEmpty = true
  · have hnot : host ∉ call.written := fun hmem =>
      (scopedUpdates_isEmpty call.stillStale output).mp hempty host (hwritten.mp hmem).1
        (hwritten.mp hmem).2
    rw [if_pos hempty, if_neg hnot]
    exact ⟨entry, rfl, rfl⟩
  · rw [if_neg hempty]
    refine ⟨_, rfl, ?_⟩
    rw [patchHosts_hostAt]
    simp only [hwritten]
    rfl

/-- What is reported as refreshed are the hosts that were still stale, whatever
the connector returned. -/
theorem refreshed_eq : call.outcome.refreshed =
    if call.gathered.isSome then call.stillStale else [] := by
  have hstale : call.stillStale ≠ [] → call.stale ≠ [] ∧ call.hosts ≠ [] := by
    intro h
    obtain ⟨host, hhost⟩ := List.exists_mem_of_ne_nil _ h
    have hmem := mem_of_mem_staleHosts hhost
    exact ⟨List.ne_nil_of_mem hmem, List.ne_nil_of_mem (mem_of_mem_staleHosts hmem)⟩
  unfold outcome gathered
  by_cases hstill : call.stillStale = []
  · simp only [hstill, List.isEmpty_nil, if_true, Bool.true_or]
    split_ifs <;> simp
  · obtain ⟨hne, hasked⟩ := hstale hstill
    simp only [List.isEmpty_iff, hstill, hne, hasked, if_false]
    cases call.permit with
    | false => simp [RefreshOutcome.failed]
    | true =>
      cases call.sync with
      | finished result => cases result <;> simp [RefreshOutcome.failed]
      | elapsed => simp [RefreshOutcome.failed]

/-- Only written hosts are reported exactly when the gather, if there is one and
it succeeds, returns every host that was still stale. -/
theorem refreshed_written_iff (call : RefreshHosts) :
    (∀ host ∈ call.outcome.refreshed, host ∈ call.written) ↔
      ∀ output, call.permit = true → call.sync = .finished (.ok output) →
        ∀ host ∈ call.stillStale, host ∈ output.dataset.hostvars := by
  have hgathered : ∀ output, call.gathered = some output ↔
      call.stillStale ≠ [] ∧ call.permit = true ∧ call.sync = .finished (.ok output) := by
    intro output
    unfold gathered
    by_cases hstill : call.stillStale = []
    · simp [hstill]
    · cases call.permit with
      | false => simp
      | true =>
        cases call.sync with
        | finished result => cases result <;> simp [hstill]
        | elapsed => simp
  rw [refreshed_eq]
  constructor
  · intro h output hpermit hsync host hhost
    have hsome := (hgathered output).mpr ⟨List.ne_nil_of_mem hhost, hpermit, hsync⟩
    rw [hsome] at h
    obtain ⟨found, hfound, _, hreturned⟩ := mem_written.mp (h host hhost)
    obtain rfl := Option.some.inj (hsome.symm.trans hfound)
    exact hreturned
  · intro h host hhost
    cases hsome : call.gathered with
    | none =>
      rw [hsome] at hhost
      cases hhost
    | some output =>
      rw [hsome] at hhost
      obtain ⟨_, hpermit, hsync⟩ := (hgathered output).mp hsome
      exact mem_written.mpr ⟨output, hsome, hhost, h output hpermit hsync host hhost⟩

/-- Two hosts that are not cached, one of which the connector returns. -/
def partialAnswer : RefreshHosts where
  sourceId := "cmdb"
  source := { connectorType := .remote, ttlSeconds := 60 }
  hosts := ["web1", "ghost"]
  cache := {}
  now := 0
  lockedCache := {}
  lockedNow := 0
  budgetSecs := 10
  sync := .finished (.ok { dataset := { hostvars := (∅ : StrMap HostVars).insert "web1" ∅ } })

theorem partialAnswer_not_written :
    ¬ ∀ (call : RefreshHosts), ∀ host ∈ call.outcome.refreshed, host ∈ call.written := by
  intro h
  have hreported : "ghost" ∈ partialAnswer.outcome.refreshed := by decide +kernel
  have hnot : "ghost" ∉ partialAnswer.written := by decide +kernel
  exact hnot (h partialAnswer "ghost" hreported)

end RefreshHosts

end UnifiedApi
