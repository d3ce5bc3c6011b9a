import UnifiedApi.Cache.MemoryCache

/-! # Enrichers: derived data written onto a cached target

A declarative enricher copies variables from another source's entry; a script
enricher reads the target, runs for any time and merges its answer into
whatever the target has become. -/

namespace UnifiedApi

structure Enricher where
  targetId : String
  scriptPath : Option String := none
  /-- Set on a declarative enricher: the source it copies from. -/
  sourceId : Option String := none
  fields : Option (List String) := none
  fieldsExcluded : Option (List String) := none
  groups : Option (List String) := none
  groupsExcluded : Option (List String) := none

structure EnrichOutcome where
  hostsUpdated : Nat
  hostsRemoved : Nat
  error : Option String
  deriving DecidableEq

/-- The outcome of a run that could not start or whose script failed. -/
def EnrichOutcome.failed (error : String) : EnrichOutcome := ⟨0, 0, some error⟩

/-! ## The declarative merge -/

/-- An absent list selects everything; an exclusion beats an inclusion. -/
def admits (name : String) (allowed excluded : Option (List String)) : Bool :=
  if excluded.any (·.any (· == name)) then false
  else match allowed with
    | some names => names.any (· == name)
    | none => true

def selected (vars : HostVars) (fields excluded : Option (List String)) : HostVars :=
  if fields.isNone && excluded.isNone then vars
  else vars.filter fun key _ => admits key fields excluded

/-- The source's variables for the hosts the target has. -/
def hostVarsForTarget (target source : Dataset) (enricher : Enricher) : StrMap HostVars :=
  (target.hostvars.filterMap fun hostname _ => source.hostvars[hostname]?.map fun vars =>
    selected vars enricher.fields enricher.fieldsExcluded).filter fun _ owned => !owned.isEmpty

/-- What the source says about groups. `all` carries the target's hosts. -/
def groupVarsForTarget (target source : Dataset) (enricher : Enricher) : StrMap Group :=
  source.groups.filterMap fun name group => group.vars.bind fun vars =>
    let wanted := selected vars enricher.fields enricher.fieldsExcluded
    if admits name enricher.groups enricher.groupsExcluded && !wanted.isEmpty then
      some { hosts := if name == "all" then target.hostvars.keys else [], vars := some wanted }
    else none

/-- Group variables first, then host variables, under the target's lock. -/
def mergeDeclared (part : Dataset) (entry : CacheEntry) : CacheEntry :=
  (entry.mergeGroupVarFields { groups := part.groups }).mergeHostvarFields
    { hostvars := part.hostvars }

/-- `none` when the target is not cached: there is nothing to enrich. -/
def executeDeclarativeMerge (enricher : Enricher) (cache : MemoryCache) :
    Option EnrichOutcome × MemoryCache :=
  match enricher.sourceId with
  | none => (some (.failed "declarative enricher missing source_id"), cache)
  | some sourceId =>
    match cache.get enricher.targetId, cache.get sourceId with
    | none, _ => (none, cache)
    | some _, none => (some (.failed ("source '" ++ sourceId ++ "' not in cache")), cache)
    | some target, some source =>
      let part : Dataset :=
        { hostvars := hostVarsForTarget target.dataset source.dataset enricher
          groups := groupVarsForTarget target.dataset source.dataset enricher }
      (some ⟨part.hostvars.size, 0, none⟩, (cache.update enricher.targetId (mergeDeclared part)).2)

/-! ## The script enricher -/

/-- What running the script leads to. -/
inductive EnricherResult where
  | ok (answer : Dataset)
  | error (message : String)
  | timedOut (timeoutSeconds : Nat)

/-- The first half of a run: the dataset handed to the script. `none` when
the target is not cached. -/
def enricherInput (enricher : Enricher) (cache : MemoryCache) : Option Dataset :=
  (cache.get enricher.targetId).map (·.dataset)

/-- The second half: only an answer is merged, into the entry as it is now. -/
def mergeAnswer (enricher : Enricher) (result : EnricherResult) (now : Nat) (cache : MemoryCache) :
    EnrichOutcome × MemoryCache :=
  match enricher.scriptPath with
  | none => (.failed "script-based enricher missing script_path", cache)
  | some _ => match result with
    | .timedOut seconds => (.failed ("enricher timed out after " ++ toString seconds ++ "s"), cache)
    | .error message => (.failed message, cache)
    | .ok answer =>
      (⟨answer.hostvars.size, answer.removeHosts.length, none⟩,
        (cache.update enricher.targetId fun entry => entry.mergeEnrichment answer now).2)

/-- A declarative run changes the cache through one merge into its target, if
at all. -/
theorem executeDeclarativeMerge_cache (enricher : Enricher) (cache : MemoryCache) :
    (executeDeclarativeMerge enricher cache).2 = cache ∨
    ∃ part, (executeDeclarativeMerge enricher cache).2 =
      (cache.update enricher.targetId (mergeDeclared part)).2 := by
  unfold executeDeclarativeMerge
  cases enricher.sourceId with
  | none => exact .inl rfl
  | some sourceId =>
    dsimp only
    cases cache.get enricher.targetId with
    | none => exact .inl rfl
    | some target =>
      cases cache.get sourceId with
      | none => exact .inl rfl
      | some source => exact .inr ⟨_, rfl⟩

theorem mergeAnswer_cache (enricher : Enricher) (result : EnricherResult) (now : Nat)
    (cache : MemoryCache) :
    (mergeAnswer enricher result now cache).2 = cache ∨
    ∃ answer, result = .ok answer ∧ (mergeAnswer enricher result now cache).2 =
      (cache.update enricher.targetId fun entry => entry.mergeEnrichment answer now).2 := by
  unfold mergeAnswer
  cases enricher.scriptPath with
  | none => exact .inl rfl
  | some path =>
    cases result with
    | ok answer => exact .inr ⟨answer, rfl, rfl⟩
    | error message => exact .inl rfl
    | timedOut seconds => exact .inl rfl

end UnifiedApi
