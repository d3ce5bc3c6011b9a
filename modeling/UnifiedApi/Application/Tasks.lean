import UnifiedApi.Application.EnrichPass
import UnifiedApi.Application.RefreshOutcome
import UnifiedApi.Application.RunSync
import UnifiedApi.Application.ScopedCreation
import UnifiedApi.Lib.Interleaving

/-! # Syncs, refreshes and enrichers as programs on what they share

Each is the source's own order of reads, waits and writes. What waits for a
lock or a permit may wait for any time; a connector, a script, a clock and the
secrets may answer anything. Locks only take interleavings away. -/

namespace UnifiedApi
namespace Tasks
open Interleaving

structure LiveConfig where
  sources : StrMap ResolvedSource := ∅
  views : StrMap View := ∅
  enrichers : StrMap Enricher := ∅

/-- What the tasks of a process share. -/
structure World where
  config : LiveConfig := {}
  cache : MemoryCache := {}
  scopes : AdvertisedScopeRegistry := ∅
  syncHealth : SyncHealthRegistry := {}
  enrichHealth : SyncHealthRegistry := {}
  fullSyncs : StrMap UInt64 := ∅

/-- One change of it. -/
inductive Act where
  | write (write : CacheWrite)
  | claim (sourceId : String) (claim : ScopeClaim)
  | succeeded (sourceId : String) (now : Nat)
  | failed (sourceId error : String) (now : Nat)
  | ran (sourceId : String) (run : RunRecord)
  | countFullSync (sourceId : String)
  | enrichSucceeded (id : String) (now : Nat)
  | enrichFailed (id error : String) (now : Nat)

namespace Act

def run (w : World) : Act → World
  | .write op => { w with cache := op.run w.cache }
  | .claim sourceId said => { w with scopes := w.scopes.record sourceId said }
  | .succeeded sourceId now => { w with syncHealth := w.syncHealth.recordSuccess sourceId now }
  | .failed sourceId error now =>
    { w with syncHealth := w.syncHealth.recordFailure sourceId error now }
  | .ran sourceId row => { w with syncHealth := w.syncHealth.recordRun sourceId row }
  | .countFullSync sourceId =>
    { w with fullSyncs := w.fullSyncs.insert sourceId (w.fullSyncs[sourceId]?.getD 0 + 1) }
  | .enrichSucceeded id now => { w with enrichHealth := w.enrichHealth.recordSuccess id now }
  | .enrichFailed id error now =>
    { w with enrichHealth := w.enrichHealth.recordFailure id error now }

/-- The source it is about; an enricher's health is of no source. -/
def sourceId : Act → Option String
  | .write op => some op.key
  | claim sourceId _ | succeeded sourceId _ | failed sourceId _ _ | ran sourceId _
  | .countFullSync sourceId => some sourceId
  | enrichSucceeded .. | enrichFailed .. => none

end Act

/-- What the world has for one source. -/
structure Held where
  entry : Option CacheEntry
  scope : Option ScopeClaim
  health : Option HealthRecord
  history : List RunRecord
  fullSyncs : Option UInt64
  deriving DecidableEq

def World.held (w : World) (sourceId : String) : Held where
  entry := w.cache.get sourceId
  scope := w.scopes.get sourceId
  health := w.syncHealth.inner[sourceId]?
  history := w.syncHealth.history sourceId
  fullSyncs := w.fullSyncs[sourceId]?

/-- An act changes nothing of any other source. -/
theorem Act.held_of_ne {a : Act} {sourceId : String} (h : a.sourceId ≠ some sourceId) (w : World) :
    (a.run w).held sourceId = w.held sourceId := by
  cases a with
  | write op =>
    have hne : sourceId ≠ op.key := fun heq => h (congrArg some heq.symm)
    simp [World.held, run, CacheWrite.get_run_of_ne hne]
  | claim key said =>
    have hne : key ≠ sourceId := fun heq => h (congrArg some heq)
    simp [World.held, run, AdvertisedScopeRegistry.get_record, hne]
  | succeeded key now =>
    have hne : key ≠ sourceId := fun heq => h (congrArg some heq)
    simp [World.held, run, SyncHealthRegistry.recordSuccess, SyncHealthRegistry.history,
      StrMap.getElem?_insert, hne]
  | failed key error now =>
    have hne : key ≠ sourceId := fun heq => h (congrArg some heq)
    simp [World.held, run, SyncHealthRegistry.recordFailure, SyncHealthRegistry.history,
      StrMap.getElem?_insert, hne]
  | ran key row =>
    have hne : key ≠ sourceId := fun heq => h (congrArg some heq)
    simp [World.held, run, SyncHealthRegistry.recordRun, SyncHealthRegistry.history,
      StrMap.getElem?_insert, hne]
  | countFullSync key =>
    have hne : key ≠ sourceId := fun heq => h (congrArg some heq)
    simp [World.held, run, StrMap.getElem?_insert, hne]
  | enrichSucceeded id now => rfl
  | enrichFailed id error now => rfl

def act (a : Act) : Prog World Unit := .modify a.run

/-! ## Enrichers -/

/-- The reads of the target and of the source, and the merge, are apart. -/
def executeDeclarativeMerge (enricher : Enricher) : Prog World (Option EnrichOutcome) :=
  match enricher.sourceId with
  | none => return some (.failed "declarative enricher missing source_id")
  | some sourceId => do
    match ← .read fun w => w.cache.get enricher.targetId with
    | none => return none
    | some target => match ← .read fun w => w.cache.get sourceId with
      | none => return some (.failed ("source '" ++ sourceId ++ "' not in cache"))
      | some source =>
        let part : Dataset :=
          { hostvars := hostVarsForTarget target.dataset source.dataset enricher
            groups := groupVarsForTarget target.dataset source.dataset enricher }
        act (.write (.update enricher.targetId (mergeDeclared part)))
        return some ⟨part.hostvars.size, 0, none⟩

def executeEnricher (enricher : Enricher) : Prog World (Option EnrichOutcome) := do
  match ← .read (enricherInput enricher ·.cache) with
  | none => return none
  | some _ => match enricher.scriptPath with
    | none => return some (.failed "script-based enricher missing script_path")
    | some _ => match ← .ask EnricherResult with
      | .timedOut seconds =>
        return some (.failed ("enricher timed out after " ++ toString seconds ++ "s"))
      | .error message => return some (.failed message)
      | .ok answer =>
        let now ← .ask Nat
        act (.write (.update enricher.targetId fun entry => entry.mergeEnrichment answer now))
        return some ⟨answer.hostvars.size, answer.removeHosts.length, none⟩

def execute (enricher : Enricher) : Prog World (Option EnrichOutcome) :=
  if enricher.sourceId.isSome then executeDeclarativeMerge enricher else executeEnricher enricher

def runEnricher (id : String) (enricher : Enricher) : Prog World (Option EnrichOutcome) := do
  let result ← execute enricher
  let now ← .ask Nat
  match result with
  | none =>
    act (.enrichFailed id ("target '" ++ enricher.targetId ++ "' is not in the cache") now)
    return none
  | some outcome =>
    act (match outcome.error with
      | none => .enrichSucceeded id now
      | some error => .enrichFailed id error now)
    return some outcome

def runEnrichersForTarget (enrichers : List (String × Enricher)) (targetId : String) :
    Prog World Unit :=
  .each (matching enrichers targetId) fun (id, enricher) => do
    let _ ← runEnricher id enricher

/-! ## Syncs -/

structure SyncOutcome where
  scope : String
  totalHosts : Nat := 0
  totalGroups : Nat := 0
  durationMs : Nat := 0
  error : Option String := none
  coalesced : Bool := false
  deriving DecidableEq

def SyncOutcome.failed (scope : String) (durationMs : Nat) (error : String) : SyncOutcome :=
  { scope, durationMs, error := some error }

/-- A request with who asked, for the history. -/
structure SyncCall extends RunRequest where
  requestedBy : Option String := none

/-- The first operation finds out whether the source had an entry. -/
def applyToCache (sourceId : String) (source : Source) (scope : SyncScope)
    (output : ConnectorOutput) : Prog World Unit := do
  let now ← .ask Nat
  let rest ← .atomic (fun w =>
    match syncWrites sourceId source scope output now (w.cache.get sourceId).isSome with
    | [] => (w, [])
    | first :: rest => ((Act.write first).run w, rest)) .pure
  .each rest fun write => act (.write write)

section
variable (specsToString : List HostSpec → Except String String)

def runSync (sourceId : String) (source : ResolvedSource) (request : RunRequest) :
    Prog World SyncOutcome := do
  let label := request.scope.label
  let cached ← .read fun w id => (w.cache.get id).map (·.dataset)
  match runConfig specsToString cached source request with
  | .error error => return .failed label 0 error
  | .ok _ =>
    match ← .ask (Except String Unit) with
    | .error error => return .failed label (← .ask Nat) error
    | .ok () =>
      -- `none` is the connector past the source's timeout
      match ← .ask (Option (Except String ConnectorOutput)) with
      | none =>
        return .failed label (← .ask Nat)
          ("sync timed out after " ++ toString source.timeoutSeconds ++ "s")
      | some (.error error) => return .failed label (← .ask Nat) error
      | some (.ok output) =>
        let durationMs ← .ask Nat
        let dataset := match request.scope with
          | .full => output.dataset.addGroupMembers
          | .hosts _ | .group _ => output.dataset
        .each output.advertisedScope.toList fun claim => act (.claim sourceId claim)
        applyToCache sourceId source.toSource request.scope { output with dataset }
        return { scope := label, totalHosts := dataset.hostvars.size
                 totalGroups := dataset.groups.size, durationMs }

/-- A plain sync of the whole source. -/
def coalescable (request : SyncRequest) : Bool :=
  (match request.scope with
    | .full => true
    | .hosts _ | .group _ => false) && !request.refreshOrigin

def syncSource (sourceId : String) (source : ResolvedSource) (request : SyncCall)
    (enrichers : List (String × Enricher)) : Prog World SyncOutcome := do
  let before ← .read fun w => w.fullSyncs[sourceId]?.getD 0
  -- the lock of the source
  .ask Unit
  let after ← .read fun w => w.fullSyncs[sourceId]?.getD 0
  if coalescable request.toSyncRequest && after != before then
    let (totalHosts, totalGroups) ← .read fun w => match w.cache.get sourceId with
      | some entry => (entry.dataset.hostvars.size, entry.dataset.groups.size)
      | none => (0, 0)
    return { scope := SyncScope.label .full, totalHosts, totalGroups, coalesced := true }
  else
    let startedAt ← .ask Nat
    let outcome ← runSync specsToString sourceId source request.toRunRequest
    let now ← .ask Nat
    act (match outcome.error with
      | none => .succeeded sourceId now
      | some error => .failed sourceId error now)
    act (.ran sourceId
      { startedAt
        durationMs := outcome.durationMs
        trigger := request.runTrigger
        requestedBy := request.requestedBy
        scope := some outcome.scope
        error := outcome.error
        hosts := if outcome.error.isNone then some outcome.totalHosts else none
        groups := if outcome.error.isNone then some outcome.totalGroups else none })
    .when outcome.error.isNone (runEnrichersForTarget enrichers sourceId)
    .when (coalescable request.toSyncRequest && outcome.error.isNone)
      (act (.countFullSync sourceId))
    return outcome

/-! ## On-demand refreshes -/

/-- What a refresh does under the locks, with a permit: a sync of the hosts that
are still stale, within the budget. -/
def syncStale (sourceId : String) (source : ResolvedSource) (hosts stillStale : List String)
    (enrichers : List (String × Enricher)) : Prog World RefreshOutcome := do
  let budgetSecs ← .ask Nat
  let startedAt ← .ask Nat
  let newestBefore ← .read fun w => (w.syncHealth.history sourceId).head?
  match ← (syncSource specsToString sourceId source
      { SyncRequest.refreshingOrigin (.hosts stillStale) defaultRefreshDepth with
        trigger := some "refresh", runTrigger := .refresh } enrichers).within with
  | some outcome => match outcome.error with
    | none =>
      return { alreadyFresh := hosts.length - stillStale.length, refreshed := stillStale }
    | some error => return .failed error
  | none =>
    let error := "refresh did not finish within " ++ toString budgetSecs ++ "s"
    let landed ← .read fun w => (w.syncHealth.history sourceId).head?.any fun run =>
      decide (some run ≠ newestBefore ∧ run.trigger = .refresh ∧
        run.scope = some (SyncScope.hosts stillStale).label)
    if landed then return .failed error
    else
      let now ← .ask Nat
      act (.failed sourceId error now)
      let durationMs ← .ask Nat
      act (.ran sourceId
        { startedAt, durationMs, trigger := .refresh
          scope := some (SyncScope.hosts stillStale).label, error := some error })
      return .failed error

def refreshHosts (sourceId : String) (source : ResolvedSource) (hosts : List String)
    (ttlOverride : Option Nat) (enrichers : List (String × Enricher)) :
    Prog World RefreshOutcome := do
  if hosts.isEmpty then return {}
  else
    let now ← .ask Nat
    let stale ← .read fun w => staleHosts w.cache source.toSource sourceId hosts ttlOverride now
    if stale.isEmpty then return { alreadyFresh := hosts.length }
    else
      -- the locks of the stale hosts, in their order
      .each (stale.mergeSort (· ≤ ·)) fun _ => .ask Unit
      let now ← .ask Nat
      let stillStale ← .read fun w =>
        staleHosts w.cache source.toSource sourceId stale ttlOverride now
      if stillStale.isEmpty then return { alreadyFresh := hosts.length }
      else
        match ← .ask Bool with
        | false => return .failed "refresh limiter unavailable"
        | true => syncStale specsToString sourceId source hosts stillStale enrichers

end

/-! ## What each of them changes -/

/-- Nothing, or one of the acts it may do. -/
def Doing (may : Act → Prop) (w w' : World) : Prop := w' = w ∨ ∃ a, may a ∧ w' = a.run w

/-- What a run of an enricher may do. -/
inductive EnricherActs (id : String) (enricher : Enricher) : Act → Prop
  | merged (part : Dataset) :
      EnricherActs id enricher (.write (.update enricher.targetId (mergeDeclared part)))
  | answered (answer : Dataset) (now : Nat) : EnricherActs id enricher
      (.write (.update enricher.targetId fun entry => entry.mergeEnrichment answer now))
  | succeeded (now : Nat) : EnricherActs id enricher (.enrichSucceeded id now)
  | failed (error : String) (now : Nat) : EnricherActs id enricher (.enrichFailed id error now)

/-- What a sync of a source for one of the scopes may do. -/
inductive SyncActs (sourceId : String) (scopes : SyncScope → Prop) : Act → Prop
  | wrote {scope : SyncScope} (hscope : scopes scope) (source : Source) (output : ConnectorOutput)
      (now : Nat) (occupied : Bool) {op : CacheWrite}
      (hop : op ∈ syncWrites sourceId source scope output now occupied) :
      SyncActs sourceId scopes (.write op)
  | claimed (claim : ScopeClaim) : SyncActs sourceId scopes (.claim sourceId claim)
  | succeeded (now : Nat) : SyncActs sourceId scopes (.succeeded sourceId now)
  | failed (error : String) (now : Nat) : SyncActs sourceId scopes (.failed sourceId error now)
  | ran {scope : SyncScope} (hscope : scopes scope) (row : RunRecord)
      (hrow : row.scope = some scope.label) : SyncActs sourceId scopes (.ran sourceId row)
  | counted (hfull : scopes .full) : SyncActs sourceId scopes (.countFullSync sourceId)
  | enriched {id : String} {enricher : Enricher} {a : Act} (htarget : enricher.targetId = sourceId)
      (ha : EnricherActs id enricher a) : SyncActs sourceId scopes a

section
variable {live : World → Prop} {may : Act → Prop} {changed : Prop} {α : Type}
  {Q : Prop → α → Prop} {next : Unit → Prog World α}

theorem Doing.refl (w : World) : Doing may w w := .inl rfl

theorem act_guarantees {a : Act} (ha : may a)
    (h : ∀ changed, (next ()).Guarantees live (Doing may) Q changed) :
    (act a >>= next).Guarantees live (Doing may) Q changed :=
  .modify (fun _ _ => .inr ⟨a, ha, rfl⟩) h

theorem runEnricher_guarantees {id : String} {enricher : Enricher}
    (h : ∀ a, EnricherActs id enricher a → may a) :
    (runEnricher id enricher).Guarantees live (Doing may) (fun _ _ => True) changed := by
  have hmerge : (executeDeclarativeMerge enricher).Guarantees live (Doing may)
      (fun _ _ => True) changed := by
    unfold executeDeclarativeMerge
    cases enricher.sourceId with
    | none => trivial
    | some sourceId =>
      refine .read Doing.refl fun w _ => ?_
      cases w.cache.get enricher.targetId with
      | none => trivial
      | some target =>
        refine .read Doing.refl fun w _ => ?_
        cases w.cache.get sourceId with
        | none => trivial
        | some source => exact act_guarantees (h _ (.merged _)) fun _ => trivial
  have hscript : (executeEnricher enricher).Guarantees live (Doing may)
      (fun _ _ => True) changed := by
    unfold executeEnricher
    refine .read Doing.refl fun w _ => ?_
    cases enricherInput enricher w.cache with
    | none => trivial
    | some _ =>
      cases enricher.scriptPath with
      | none => trivial
      | some _ =>
        refine .ask fun result => ?_
        cases result with
        | timedOut seconds => trivial
        | error message => trivial
        | ok answer =>
          exact .ask fun now => act_guarantees (h _ (.answered answer now)) fun _ => trivial
  have hrun : (execute enricher).Guarantees live (Doing may) (fun _ _ => True) changed := by
    unfold execute
    split
    · exact hmerge
    · exact hscript
  unfold runEnricher
  refine hrun.bind fun _ result _ => .ask fun now => ?_
  cases result with
  | none => exact act_guarantees (h _ (.failed _ now)) fun _ => trivial
  | some outcome =>
    refine act_guarantees ?_ fun _ => trivial
    cases outcome.error with
    | none => exact h _ (.succeeded now)
    | some error => exact h _ (.failed error now)

theorem runEnrichersForTarget_guarantees {enrichers : List (String × Enricher)} {targetId : String}
    (h : ∀ id enricher a, enricher.targetId = targetId → EnricherActs id enricher a → may a) :
    (runEnrichersForTarget enrichers targetId).Guarantees live (Doing may) (fun _ _ => True)
      changed := by
  refine Prog.Guarantees.each trivial fun ⟨id, enricher⟩ hitem changed _ => ?_
  have htarget : enricher.targetId = targetId :=
    beq_iff_eq.mp (List.mem_filter.mp (List.mem_mergeSort.mp hitem)).2
  exact (runEnricher_guarantees fun a => h id enricher a htarget).bind fun _ _ _ => trivial

theorem applyToCache_guarantees {sourceId : String} {source : Source} {scope : SyncScope}
    {output : ConnectorOutput}
    (h : ∀ now occupied, ∀ op ∈ syncWrites sourceId source scope output now occupied,
      may (.write op)) :
    (applyToCache sourceId source scope output).Guarantees live (Doing may) (fun _ _ => True)
      changed := by
  refine .ask fun now => ?_
  have hwrites : ∀ ops : List CacheWrite, (∀ op ∈ ops, may (.write op)) → ∀ changed,
      (Prog.each ops fun op => act (.write op)).Guarantees live (Doing may) (fun _ _ => True)
        changed := fun ops hops changed =>
    .each trivial fun op hop _ _ s _ => ⟨.inr ⟨_, hops op hop, rfl⟩, trivial⟩
  intro w hw
  have hops := h now (w.cache.get sourceId).isSome
  dsimp only
  split
  · exact ⟨.inl rfl, trivial⟩
  · rename_i first rest hsync
    rw [hsync] at hops
    exact ⟨.inr ⟨_, hops first List.mem_cons_self, rfl⟩,
      hwrites rest (fun op hop => hops op (List.mem_cons_of_mem _ hop)) _⟩

variable (specsToString : List HostSpec → Except String String)

theorem runSync_guarantees {sourceId : String} {source : ResolvedSource} {request : RunRequest}
    {scopes : SyncScope → Prop} (hscopes : scopes request.scope)
    (h : ∀ a, SyncActs sourceId scopes a → may a) :
    (runSync specsToString sourceId source request).Guarantees live (Doing may)
      (fun _ outcome => outcome.scope = request.scope.label) changed := by
  refine .read Doing.refl fun w _ => ?_
  split
  · rfl
  · refine .ask fun credentials => ?_
    cases credentials with
    | error error => exact .ask fun _ => rfl
    | ok _ =>
      refine .ask fun executed => ?_
      cases executed with
      | none => exact .ask fun _ => rfl
      | some result =>
        cases result with
        | error error => exact .ask fun _ => rfl
        | ok output =>
          refine .ask fun durationMs => ?_
          refine Prog.Guarantees.bind (P := fun _ _ => True) ?_ fun changed _ _ => ?_
          · exact .each trivial fun claim _ _ _ s _ =>
              ⟨.inr ⟨_, h _ (.claimed claim), rfl⟩, trivial⟩
          · refine Prog.Guarantees.bind (applyToCache_guarantees ?_) fun _ _ _ => rfl
            exact fun now occupied op hop => h _ (.wrote hscopes _ _ now occupied hop)

theorem scope_of_coalescable {request : SyncRequest} (h : coalescable request = true) :
    request.scope = .full := by
  obtain ⟨hfull, _⟩ := Bool.and_eq_true_iff.mp h
  cases hscope : request.scope with
  | full => rfl
  | hosts hosts => simp [hscope] at hfull
  | group group => simp [hscope] at hfull

theorem syncSource_guarantees {sourceId : String} {source : ResolvedSource} {request : SyncCall}
    {enrichers : List (String × Enricher)} {scopes : SyncScope → Prop}
    (hscopes : scopes request.scope) (h : ∀ a, SyncActs sourceId scopes a → may a) :
    (syncSource specsToString sourceId source request enrichers).Guarantees live (Doing may)
      (fun _ _ => True) changed := by
  refine .read Doing.refl fun w _ => .ask fun _ => .read Doing.refl fun w' _ => ?_
  split
  · exact .read Doing.refl fun _ _ => trivial
  · refine .ask fun startedAt => (runSync_guarantees specsToString hscopes h).bind
      fun _ outcome hscope => ?_
    refine .ask fun now => act_guarantees ?_ fun _ => act_guarantees ?_ fun _ => ?_
    · cases outcome.error with
      | none => exact h _ (.succeeded now)
      | some error => exact h _ (.failed error now)
    · exact h _ (.ran hscopes _ (congrArg some hscope))
    · refine Prog.Guarantees.bind (P := fun _ _ => True) (.when ?_ trivial) fun _ _ _ => ?_
      · exact fun _ => runEnrichersForTarget_guarantees fun _ _ a htarget ha =>
          h a (.enriched htarget ha)
      · refine Prog.Guarantees.bind (P := fun _ _ => True) (.when ?_ trivial) fun _ _ _ => trivial
        intro hcounts s _
        have hfull := scope_of_coalescable (Bool.and_eq_true_iff.mp hcounts).1
        exact ⟨.inr ⟨_, h _ (.counted (hfull ▸ hscopes)), rfl⟩, trivial⟩

/-- Some of the named hosts. -/
def SomeOf (hosts : List String) (scope : SyncScope) : Prop :=
  ∃ part : List String, scope = .hosts part ∧ part ≠ [] ∧ ∀ host ∈ part, host ∈ hosts

theorem syncStale_guarantees {sourceId : String} {source : ResolvedSource}
    {hosts stillStale : List String} {enrichers : List (String × Enricher)}
    {scopes : SyncScope → Prop} (hscopes : scopes (.hosts stillStale))
    (h : ∀ a, SyncActs sourceId scopes a → may a) :
    (syncStale specsToString sourceId source hosts stillStale enrichers).Guarantees live
      (Doing may) (fun _ _ => True) changed := by
  refine .ask fun budgetSecs => .ask fun startedAt => .read Doing.refl fun before _ => ?_
  refine Prog.Guarantees.bind (P := fun _ _ => True) ?_ fun changed result _ => ?_
  · exact .within (syncSource_guarantees specsToString hscopes h) (fun _ _ _ => trivial)
      fun _ => trivial
  · cases result with
    | some outcome =>
      dsimp only
      cases outcome.error with
      | none => trivial
      | some error => trivial
    | none =>
      refine .read Doing.refl fun w _ => ?_
      split
      · trivial
      · refine .ask fun now => act_guarantees (h _ (.failed _ now)) fun _ => ?_
        refine .ask fun durationMs => ?_
        exact act_guarantees (h _ (.ran hscopes _ rfl)) fun _ => trivial

/-- A refresh syncs some of the hosts it is asked for and nothing else. -/
theorem refreshHosts_guarantees {sourceId : String} {source : ResolvedSource} {hosts : List String}
    {ttlOverride : Option Nat} {enrichers : List (String × Enricher)}
    (h : ∀ a, SyncActs sourceId (SomeOf hosts) a → may a) :
    (refreshHosts specsToString sourceId source hosts ttlOverride enrichers).Guarantees live
      (Doing may) (fun _ _ => True) changed := by
  unfold refreshHosts
  split
  · trivial
  · refine .ask fun now => .read Doing.refl fun w _ => ?_
    split
    · trivial
    · refine Prog.Guarantees.bind (P := fun _ _ => True) (.each trivial fun _ _ _ _ _ => trivial)
        fun _ _ _ => .ask fun now' => .read Doing.refl fun w' _ => ?_
      split
      · trivial
      · rename_i hstill
        refine .ask fun permit => ?_
        cases permit with
        | false => trivial
        | true =>
          have hsome : SomeOf hosts (.hosts (staleHosts w'.cache source.toSource sourceId
              (staleHosts w.cache source.toSource sourceId hosts ttlOverride now) ttlOverride
              now')) :=
            ⟨_, rfl, mt List.isEmpty_iff.mpr hstill, fun _ hhost =>
              mem_of_mem_staleHosts (mem_of_mem_staleHosts hhost)⟩
          exact syncStale_guarantees specsToString hsome h

end

end Tasks
end UnifiedApi
