import UnifiedApi.Application.ApplyToCache
import UnifiedApi.Lib.Runs
import UnifiedApi.Lib.Slots

/-! # Reloads that remove a source

A reload swaps the configuration, drops the cache entries of sources that are
gone and tells the scheduler, which stops its tasks and starts new ones. Once
the stopped tasks have finished their syncs, the entries are dropped again.
Syncs and refreshes asked for over HTTP run beside all this. -/

namespace UnifiedApi

/-- The periodic tasks of one generation, each with the source it was spawned
for. -/
structure SchedulerGeneration where
  number : Nat
  tasks : StrMap Source
  deriving DecidableEq

inductive SyncOrigin where
  | scheduled (generation : Nat)
  /-- An HTTP sync or an on-demand refresh. -/
  | request
  deriving DecidableEq

inductive FlightPhase where
  | gathering | landed | over
  deriving DecidableEq

structure InFlightSync where
  origin : SyncOrigin
  sourceId : String
  source : Source
  scope : SyncScope
  phase : FlightPhase := .gathering
  deriving DecidableEq

/-- Who drops the entries of sources that are not configured. A reload does so
at once and then tells the scheduler; the scheduler, when the tasks of a stopped
generation have ended. The ids are read first and then removed one by one. -/
inductive Purger where
  | swapped
  | draining (generation : SchedulerGeneration)
  | removing (ids : List String) (reload : Bool)
  /-- A reload that has yet to tell the scheduler. -/
  | purged
  | done
  deriving DecidableEq

namespace Purger

/-- The scheduler will be told of the reload. -/
def willTell : Purger → Bool
  | .swapped | .removing _ true | .purged => true
  | .draining _ | .removing _ false | .done => false

/-- It, or the purge that follows from it, has the ids still to read. -/
def willCollect : Purger → Bool
  | .draining _ => true
  | purger => purger.willTell

theorem willCollect_of_willTell {purger : Purger} (h : purger.willTell = true) :
    purger.willCollect = true := by
  cases purger with
  | draining generation => rfl
  | swapped | removing ids reload | purged | done => exact h

end Purger

structure ReloadState where
  config : StrMap Source
  cache : MemoryCache := {}
  /-- How many reloads the scheduler was told of, and how many it has seen. -/
  version : Nat := 0
  seen : Nat := 0
  /-- Generations started so far. -/
  started : Nat := 0
  current : Option SchedulerGeneration := none
  purgers : List Purger := []
  syncs : List InFlightSync := []
  deriving DecidableEq

inductive ReloadLabel where
  | swap (next : StrMap Source)
  | collect (purger : Nat)
  | removeNext (purger : Nat)
  | bump (purger : Nat)
  /-- The scheduler has seen a reload and stops its tasks. -/
  | stop
  | startTasks
  | begin (origin : SyncOrigin) (sourceId : String) (scope : SyncScope)
  | land (sync : Nat) (output : ConnectorOutput) (now : Nat)
  /-- A sync ends, in whatever way. -/
  | finish (sync : Nat)
  /-- An enricher or a host write changes an entry that is there. -/
  | change (sourceId : String) (f : CacheEntry → CacheEntry)

namespace ReloadState

/-- The entries a purge is to drop. -/
def unconfigured (s : ReloadState) : List String :=
  s.cache.keys.filter fun id => !s.config.contains id

/-- Whether the generation has no sync in flight. -/
def drained (s : ReloadState) (generation : Nat) : Bool :=
  s.syncs.all fun sync => sync.origin != .scheduled generation || sync.phase == .over

/-- The source a task of the generation was spawned for, while the generation
has not ended. -/
def taskSource (s : ReloadState) (generation : Nat) (sourceId : String) : Option Source :=
  (s.current.toList ++ s.purgers.filterMap fun purger => match purger with
    | .draining stopped => some stopped
    | _ => none).findSome? fun tasks =>
      if tasks.number = generation then tasks.tasks[sourceId]? else none

def setPurger (s : ReloadState) (i : Nat) (purger : Purger) : ReloadState :=
  { s with purgers := s.purgers.set i purger }

/-- A task syncs what is configured or else what it was spawned for; a request
needs the source configured. -/
def begin (s : ReloadState) (origin : SyncOrigin) (sourceId : String) (scope : SyncScope) :
    Option ReloadState :=
  let source := match origin with
    | .scheduled generation =>
      (s.taskSource generation sourceId).map fun fallback => s.config[sourceId]?.getD fallback
    | .request => s.config[sourceId]?
  source.map fun source =>
    { s with syncs := s.syncs ++ [⟨origin, sourceId, source, scope, .gathering⟩] }

def step (s : ReloadState) : ReloadLabel → Option ReloadState
  | .swap next => some { s with config := next, purgers := s.purgers ++ [.swapped] }
  | .collect i => s.purgers[i]?.bind fun
    | .swapped => some (s.setPurger i (.removing s.unconfigured true))
    | .draining generation =>
      if s.drained generation.number then
        some (s.setPurger i (.removing s.unconfigured false))
      else none
    | _ => none
  | .removeNext i => s.purgers[i]?.bind fun
    | .removing (id :: rest) reload =>
      some { s.setPurger i (.removing rest reload) with cache := s.cache.remove id }
    | .removing [] reload => some (s.setPurger i (if reload then .purged else .done))
    | _ => none
  | .bump i => s.purgers[i]?.bind fun
    | .purged => some { s.setPurger i .done with version := s.version + 1 }
    | _ => none
  | .stop => s.current.bind fun generation =>
    if s.seen < s.version then
      some { s with
        seen := s.version
        current := none
        purgers := s.purgers ++ [.draining generation] }
    else none
  | .startTasks => match s.current with
    | none => some { s with current := some ⟨s.started, s.config⟩, started := s.started + 1 }
    | some _ => none
  | .begin origin sourceId scope => s.begin origin sourceId scope
  | .land i output now => s.syncs[i]?.bind fun sync => match sync.phase with
    | .gathering => some { s with
        cache := applyToCache s.cache sync.sourceId sync.source sync.scope output now
        syncs := s.syncs.set i { sync with phase := .landed } }
    | _ => none
  | .finish i => s.syncs[i]?.map fun sync =>
    { s with syncs := s.syncs.set i { sync with phase := .over } }
  | .change sourceId f => some { s with cache := (s.cache.update sourceId f).2 }

/-- Before any reload, with the tasks of the configuration running. -/
def start (config : StrMap Source) (cache : MemoryCache) : ReloadState :=
  { config, cache, started := 1, current := some ⟨0, config⟩ }

/-- Every reload, and every sync of the source, has finished. -/
def Finished (s : ReloadState) (sourceId : String) : Prop :=
  (∀ purger ∈ s.purgers, purger = .done) ∧ s.seen = s.version ∧
    ∀ sync ∈ s.syncs, sync.sourceId = sourceId → sync.phase = .over

/-- A purge that has not read the ids yet is certain to follow. -/
def PurgeToCome (s : ReloadState) : Prop :=
  (∃ purger ∈ s.purgers, purger.willCollect = true) ∨ s.seen < s.version

/-- A purge has still to remove the source's entry. -/
def RemovalToCome (s : ReloadState) (sourceId : String) : Prop :=
  ∃ ids reload, .removing ids reload ∈ s.purgers ∧ sourceId ∈ ids

/-- A sync or refresh asked for over HTTP, of a source that is not configured any
more, lands while a purge is still to come. -/
def Timely (sourceId : String) (s : ReloadState) : ReloadLabel → Prop
  | .land i _ _ => ∀ sync, s.syncs[i]? = some sync → sync.origin = .request →
      sync.sourceId = sourceId → sourceId ∉ s.config →
        s.PurgeToCome ∨ s.RemovalToCome sourceId
  | _ => True

/-! ## The invariant -/

/-- A task of the generation may still run: its tasks are the current ones, or a
purge waits for them. -/
def Lives (s : ReloadState) (generation : Nat) (sourceId : String) : Prop :=
  (∃ current, s.current = some current ∧ current.number = generation ∧
    sourceId ∈ current.tasks) ∨
  ∃ stopped, .draining stopped ∈ s.purgers ∧ stopped.number = generation

/-- The scheduler will be told to stop its tasks. -/
def StopToCome (s : ReloadState) : Prop :=
  (∃ purger ∈ s.purgers, purger.willTell = true) ∨ s.seen < s.version

theorem StopToCome.purge {s : ReloadState} (h : s.StopToCome) : s.PurgeToCome :=
  h.imp_left fun htell => by
    obtain ⟨purger, hmem, htells⟩ := htell
    exact ⟨purger, hmem, Purger.willCollect_of_willTell htells⟩

structure Inv (sourceId : String) (s : ReloadState) : Prop where
  ordered : s.seen ≤ s.version
  /-- What is left of a removed source will be removed. -/
  leftover : sourceId ∉ s.config → s.cache.get sourceId ≠ none →
    s.PurgeToCome ∨ s.RemovalToCome sourceId
  /-- Tasks of a removed source will be stopped. -/
  tasks : sourceId ∉ s.config → ∀ current, s.current = some current →
    sourceId ∈ current.tasks → s.StopToCome
  /-- A task's sync is one of a generation that has not ended. -/
  syncs : ∀ sync ∈ s.syncs, sync.sourceId = sourceId → sync.phase ≠ .over →
    ∀ generation, sync.origin = .scheduled generation → s.Lives generation sourceId

variable {sourceId : String} {s : ReloadState}

theorem Inv.start {config : StrMap Source} (h : sourceId ∈ config) (cache : MemoryCache) :
    Inv sourceId (start config cache) where
  ordered := le_refl 0
  leftover hnot := absurd h hnot
  tasks hnot := absurd h hnot
  syncs _ hsync := absurd hsync List.not_mem_nil

/-- At the end nothing is left of the source. -/
theorem Inv.finished (h : Inv sourceId s) (hfinished : s.Finished sourceId)
    (hnot : sourceId ∉ s.config) : s.cache.get sourceId = none := by
  obtain ⟨hdone, hseen, _⟩ := hfinished
  by_contra hsome
  obtain (⟨purger, hmem, hcollect⟩ | hlt) | ⟨ids, reload, hmem, _⟩ := h.leftover hnot hsome
  · rw [hdone purger hmem] at hcollect
    cases hcollect
  · exact absurd hlt (by omega)
  · cases hdone _ hmem

/-- Where a purge is certain, a task's sync may write. -/
theorem Inv.task_purge (h : Inv sourceId s) {generation : Nat} (hnot : sourceId ∉ s.config)
    (hlives : s.Lives generation sourceId) : s.PurgeToCome := by
  obtain ⟨current, hcurrent, _, htask⟩ | ⟨stopped, hmem, _⟩ := hlives
  · exact (h.tasks hnot current hcurrent htask).purge
  · exact .inl ⟨_, hmem, rfl⟩

/-! ## Steps of the cache and the syncs -/

/-- A write of the cache: what it leaves of a removed source is known to be
removed. -/
theorem Inv.write (h : Inv sourceId s) {cache : MemoryCache}
    (hleft : sourceId ∉ s.config → cache.get sourceId ≠ none →
      s.cache.get sourceId ≠ none ∨ s.PurgeToCome ∨ s.RemovalToCome sourceId) :
    Inv sourceId { s with cache } where
  ordered := h.ordered
  leftover hnot hsome := (hleft hnot hsome).elim (h.leftover hnot) id
  tasks := h.tasks
  syncs := h.syncs

theorem Inv.setSync (h : Inv sourceId s) {i : Nat} {sync : InFlightSync}
    (hsync : s.syncs[i]? = some sync) {phase : FlightPhase}
    (hlive : phase ≠ .over → sync.phase ≠ .over) :
    Inv sourceId { s with syncs := s.syncs.set i { sync with phase } } where
  ordered := h.ordered
  leftover := h.leftover
  tasks := h.tasks
  syncs other hother hid hphase generation horigin := by
    obtain hold | rfl := List.mem_or_eq_of_mem_set hother
    · exact h.syncs other hold hid hphase generation horigin
    · exact h.syncs sync (List.mem_of_getElem? hsync) hid (hlive hphase) generation horigin

theorem lives_of_taskSource {generation : Nat} {source : Source}
    (h : s.taskSource generation sourceId = some source) : s.Lives generation sourceId := by
  obtain ⟨tasks, hmem, htasks⟩ := List.exists_of_findSome?_eq_some h
  obtain ⟨hnumber, hsource⟩ := Option.ite_none_right_eq_some.mp htasks
  obtain hcurrent | hstopped := List.mem_append.mp hmem
  · exact .inl ⟨tasks, Option.mem_toList.mp hcurrent, hnumber, StrMap.mem_of_some hsource⟩
  · obtain ⟨purger, hpurger, heq⟩ := List.mem_filterMap.mp hstopped
    split at heq
    · obtain rfl := Option.some.inj heq
      exact .inr ⟨_, hpurger, hnumber⟩
    · cases heq

theorem Inv.begin {s' : ReloadState} {origin : SyncOrigin} {id : String} {scope : SyncScope}
    (h : Inv sourceId s) (hstep : s.begin origin id scope = some s') : Inv sourceId s' := by
  obtain ⟨source, hsource, rfl⟩ := Option.map_eq_some_iff.mp hstep
  refine ⟨h.ordered, h.leftover, h.tasks, fun sync hsync hid hphase generation horigin => ?_⟩
  obtain hold | hnew := List.mem_append.mp hsync
  · exact h.syncs sync hold hid hphase generation horigin
  · obtain rfl := List.mem_singleton.mp hnew
    obtain rfl : origin = .scheduled generation := horigin
    obtain rfl : id = sourceId := hid
    obtain ⟨fallback, hfallback, _⟩ := Option.map_eq_some_iff.mp hsource
    exact lives_of_taskSource hfallback

/-! ## Steps of the purgers and the scheduler -/

section Purgers
variable {i : Nat} {purger next : Purger}

theorem Lives.set {generation : Nat} (h : s.Lives generation sourceId)
    (hpurger : s.purgers[i]? = some purger)
    (hnot : ∀ stopped, purger = .draining stopped → stopped.number ≠ generation) :
    (s.setPurger i next).Lives generation sourceId := by
  refine h.imp_right fun hstopped => ?_
  obtain ⟨stopped, hmem, hnumber⟩ := hstopped
  obtain hkept | heq := Slots.mem_set_or hpurger hmem
  · exact ⟨stopped, hkept, hnumber⟩
  · exact absurd hnumber (hnot stopped heq.symm)

/-- A purger's step, given what becomes of what is left of the source. -/
theorem Inv.setPurger (h : Inv sourceId s) (hpurger : s.purgers[i]? = some purger)
    {cache : MemoryCache} {version : Nat} (hversion : s.version ≤ version)
    (hleft : sourceId ∉ s.config → cache.get sourceId ≠ none →
      PurgeToCome { s.setPurger i next with cache, version } ∨
        RemovalToCome { s.setPurger i next with cache, version } sourceId)
    (htell : purger.willTell = true → next.willTell = true ∨ s.seen < version)
    (hdrained : ∀ stopped, purger = .draining stopped → s.drained stopped.number = true) :
    Inv sourceId { s.setPurger i next with cache, version } where
  ordered := h.ordered.trans hversion
  leftover := hleft
  tasks hnot current hcurrent htask := by
    obtain ⟨other, hother, htells⟩ | hlt := h.tasks hnot current hcurrent htask
    · obtain hkept | rfl := Slots.mem_set_or hpurger hother
      · exact .inl ⟨other, hkept, htells⟩
      · exact (htell htells).imp_left fun hnext => ⟨next, Slots.mem_set_self hpurger _, hnext⟩
    · exact .inr (lt_of_lt_of_le hlt hversion)
  syncs sync hsync hid hphase generation horigin := by
    refine (h.syncs sync hsync hid hphase generation horigin).set hpurger ?_
    intro stopped heq hnumber
    have hnone := List.all_eq_true.mp (hdrained stopped heq) sync hsync
    simp [horigin, hnumber, hphase] at hnone

theorem mem_unconfigured (hnot : sourceId ∉ s.config) (hsome : s.cache.get sourceId ≠ none) :
    sourceId ∈ s.unconfigured := by
  refine List.mem_filter.mpr ⟨?_, ?_⟩
  · exact Std.ExtTreeMap.mem_keys.mpr ((StrMap.mem_iff _ _).mpr hsome)
  · rw [Bool.not_eq_true', Bool.eq_false_iff, ne_eq, Std.ExtTreeMap.contains_iff_mem]
    exact hnot

theorem Inv.collect {s' : ReloadState} (h : Inv sourceId s)
    (hstep : s.step (.collect i) = some s') : Inv sourceId s' := by
  obtain ⟨purger, hpurger, hstep⟩ := Option.bind_eq_some_iff.mp hstep
  have hremoval : ∀ reload, sourceId ∉ s.config → s.cache.get sourceId ≠ none →
      RemovalToCome (s.setPurger i (.removing s.unconfigured reload)) sourceId :=
    fun reload hnot hsome => ⟨_, reload, Slots.mem_set_self hpurger _, mem_unconfigured hnot hsome⟩
  cases purger with
  | swapped =>
    obtain rfl := Option.some.inj hstep
    exact h.setPurger hpurger (le_refl s.version) (fun hnot hsome => .inr (hremoval _ hnot hsome))
      (fun _ => .inl rfl) (fun _ heq => by cases heq)
  | draining generation =>
    obtain ⟨hdrained, hstep⟩ := Option.ite_none_right_eq_some.mp hstep
    obtain rfl := Option.some.inj hstep
    refine h.setPurger hpurger (le_refl s.version)
      (fun hnot hsome => .inr (hremoval _ hnot hsome)) (fun htell => by cases htell) ?_
    intro stopped heq
    obtain rfl := Purger.draining.inj heq
    exact hdrained
  | removing ids reload | purged | done => cases hstep

/-- What is left of the source after a purger's step, when that step did not
concern it. -/
theorem Inv.left_set (h : Inv sourceId s) (hpurger : s.purgers[i]? = some purger)
    (hcollect : purger.willCollect = true → next.willCollect = true)
    (hremoval : ∀ ids reload, purger = .removing ids reload → sourceId ∈ ids →
      ∃ rest, next = .removing rest reload ∧ sourceId ∈ rest)
    (hnot : sourceId ∉ s.config) (hsome : s.cache.get sourceId ≠ none) :
    (s.setPurger i next).PurgeToCome ∨ (s.setPurger i next).RemovalToCome sourceId := by
  refine (h.leftover hnot hsome).imp ?_ ?_
  · exact Or.imp_left (Slots.exists_set hpurger hcollect)
  · intro hpending
    obtain ⟨ids, reload, hmem, hid⟩ := hpending
    obtain hkept | heq := Slots.mem_set_or hpurger hmem
    · exact ⟨ids, reload, hkept, hid⟩
    · obtain ⟨rest, rfl, hrest⟩ := hremoval ids reload heq.symm hid
      exact ⟨rest, reload, Slots.mem_set_self hpurger _, hrest⟩

theorem Inv.removeNext {s' : ReloadState} (h : Inv sourceId s)
    (hstep : s.step (.removeNext i) = some s') : Inv sourceId s' := by
  obtain ⟨purger, hpurger, hstep⟩ := Option.bind_eq_some_iff.mp hstep
  cases purger with
  | removing ids reload =>
    cases ids with
    | nil =>
      obtain rfl := Option.some.inj hstep
      refine h.setPurger hpurger (le_refl s.version) (h.left_set hpurger ?_ ?_) ?_ ?_
      · intro hcollect
        cases reload with
        | true => rfl
        | false => cases hcollect
      · intro ids _ heq hid
        obtain ⟨rfl, _⟩ := Purger.removing.inj heq
        cases hid
      · intro htell
        cases reload with
        | true => exact .inl rfl
        | false => cases htell
      · exact fun _ heq => by cases heq
    | cons id rest =>
      obtain rfl := Option.some.inj hstep
      have hsame : ∀ p : Purger → Bool, (p = Purger.willTell ∨ p = Purger.willCollect) →
          p (.removing (id :: rest) reload) = true → p (.removing rest reload) = true := by
        rintro p (rfl | rfl) hp <;> cases reload <;> first | rfl | cases hp
      refine h.setPurger hpurger (le_refl s.version) ?_
        (fun htell => .inl (hsame _ (.inl rfl) htell)) ?_
      · intro hnot hsome
        rw [MemoryCache.get_remove] at hsome
        split at hsome
        · exact absurd rfl hsome
        · rename_i hne
          refine h.left_set hpurger (hsame _ (.inr rfl)) ?_ hnot hsome
          intro ids _ heq hid
          obtain ⟨rfl, rfl⟩ := Purger.removing.inj heq
          exact ⟨rest, rfl, (List.mem_cons.mp hid).resolve_left (Ne.symm hne)⟩
      · exact fun _ heq => by cases heq
  | swapped | draining generation | purged | done => cases hstep

theorem Inv.bump {s' : ReloadState} (h : Inv sourceId s)
    (hstep : s.step (.bump i) = some s') : Inv sourceId s' := by
  obtain ⟨purger, hpurger, hstep⟩ := Option.bind_eq_some_iff.mp hstep
  cases purger with
  | purged =>
    obtain rfl := Option.some.inj hstep
    have hlt : s.seen < s.version + 1 := Nat.lt_succ_of_le h.ordered
    exact h.setPurger hpurger (Nat.le_succ _) (fun _ _ => .inl (.inr hlt)) (fun _ => .inr hlt)
      (fun _ heq => by cases heq)
  | swapped | draining generation | removing ids reload | done => cases hstep

end Purgers

theorem Lives.append {generation : Nat} (h : s.Lives generation sourceId) (purger : Purger) :
    Lives { s with purgers := s.purgers ++ [purger] } generation sourceId :=
  h.imp_right fun hstopped => by
    obtain ⟨stopped, hmem, hnumber⟩ := hstopped
    exact ⟨stopped, List.mem_append_left _ hmem, hnumber⟩

theorem Inv.swap (h : Inv sourceId s) {next : StrMap Source} :
    Inv sourceId { s with config := next, purgers := s.purgers ++ [.swapped] } where
  ordered := h.ordered
  leftover _ _ := .inl (.inl ⟨.swapped, List.mem_append_right _ List.mem_cons_self, rfl⟩)
  tasks _ _ _ _ := .inl ⟨.swapped, List.mem_append_right _ List.mem_cons_self, rfl⟩
  syncs sync hsync hid hphase generation horigin :=
    (h.syncs sync hsync hid hphase generation horigin).append .swapped

theorem Inv.stop {s' : ReloadState} (h : Inv sourceId s) (hstep : s.step .stop = some s') :
    Inv sourceId s' := by
  obtain ⟨stopped, hcurrent, hstep⟩ := Option.bind_eq_some_iff.mp hstep
  obtain ⟨_, hstep⟩ := Option.ite_none_right_eq_some.mp hstep
  obtain rfl := Option.some.inj hstep
  have hnew : Purger.draining stopped ∈ s.purgers ++ [.draining stopped] :=
    List.mem_append_right _ List.mem_cons_self
  refine ⟨le_refl _, fun _ _ => .inl (.inl ⟨_, hnew, rfl⟩), ?_, ?_⟩
  · intro _ _ hnone
    cases hnone
  · intro sync hsync hid hphase generation horigin
    obtain ⟨current, hsome, hnumber, _⟩ | ⟨other, hmem, hnumber⟩ :=
      h.syncs sync hsync hid hphase generation horigin
    · obtain rfl := Option.some.inj (hcurrent.symm.trans hsome)
      exact .inr ⟨stopped, hnew, hnumber⟩
    · exact .inr ⟨other, List.mem_append_left _ hmem, hnumber⟩

theorem Inv.startTasks {s' : ReloadState} (h : Inv sourceId s)
    (hstep : s.step .startTasks = some s') : Inv sourceId s' := by
  unfold ReloadState.step at hstep
  dsimp only at hstep
  split at hstep
  · rename_i hnone
    obtain rfl := Option.some.inj hstep
    refine ⟨h.ordered, h.leftover, fun hnot current hcurrent htask => ?_, ?_⟩
    · obtain rfl := Option.some.inj hcurrent
      exact absurd htask hnot
    · intro sync hsync hid hphase generation horigin
      obtain ⟨current, hsome, _⟩ | hstopped := h.syncs sync hsync hid hphase generation horigin
      · rw [hnone] at hsome
        cases hsome
      · exact .inr hstopped
  · cases hstep

/-! ## Runs -/

/-- A landing writes the entry of its own source. -/
theorem Inv.land {s' : ReloadState} {i : Nat} {output : ConnectorOutput} {now : Nat}
    (h : Inv sourceId s) (htimely : Timely sourceId s (.land i output now))
    (hstep : s.step (.land i output now) = some s') : Inv sourceId s' := by
  obtain ⟨sync, hsync, hstep⟩ := Option.bind_eq_some_iff.mp hstep
  split at hstep
  · rename_i hphase
    obtain rfl := Option.some.inj hstep
    refine Inv.write (h.setSync hsync fun _ => by simp [hphase]) ?_
    intro hnot hsome
    rw [get_applyToCache] at hsome
    split at hsome
    · rename_i hid
      refine .inr ?_
      cases horigin : sync.origin with
      | request => exact htimely sync hsync horigin hid hnot
      | scheduled generation =>
        have hlives := h.syncs sync (List.mem_of_getElem? hsync) hid (by simp [hphase]) generation
          horigin
        exact .inl (h.task_purge hnot hlives)
    · exact .inl hsome
  · cases hstep

theorem Inv.step {s' : ReloadState} {l : ReloadLabel} (h : Inv sourceId s)
    (htimely : Timely sourceId s l) (hstep : s.step l = some s') : Inv sourceId s' := by
  cases l with
  | swap next =>
    obtain rfl := Option.some.inj hstep
    exact h.swap
  | collect i => exact h.collect hstep
  | removeNext i => exact h.removeNext hstep
  | bump i => exact h.bump hstep
  | stop => exact h.stop hstep
  | startTasks => exact h.startTasks hstep
  | begin origin id scope => exact h.begin hstep
  | land i output now => exact h.land htimely hstep
  | finish i =>
    obtain ⟨sync, hsync, rfl⟩ := Option.map_eq_some_iff.mp hstep
    exact h.setSync hsync fun hover => absurd rfl hover
  | change id f =>
    obtain rfl := Option.some.inj hstep
    refine h.write fun _ hsome => .inl fun hnone => hsome ?_
    rw [MemoryCache.get_update]
    split
    · rename_i hid
      rw [hid, hnone, Option.map_none]
    · exact hnone

/-- A source that the configuration defines. -/
def oneSource : StrMap Source := (∅ : StrMap Source).insert "src" { ttlSeconds := 60 }

def oneHostOutput : ConnectorOutput where
  dataset := { hostvars := (∅ : StrMap HostVars).insert "a" ∅ }

/-- A request syncs the source while a reload removes it; the scheduler has
stopped its tasks, and its purge is to come. -/
def removedDuringSync : List ReloadLabel :=
  [.begin .request "src" .full, .swap ∅, .collect 0, .removeNext 0, .bump 0, .stop, .startTasks]

/-- The purge of the stopped tasks, which finds what there is to remove. -/
def lastPurge : List ReloadLabel := [.collect 1, .removeNext 1, .removeNext 1]

/-- Whether everything has finished, with the source gone from the configuration. -/
def settledWithout (sourceId : String) (s : ReloadState) : Bool :=
  !s.config.contains sourceId && s.purgers.all (· = .done) && s.seen = s.version &&
    s.syncs.all (·.phase = .over)

theorem finished_of_settledWithout (h : s.settledWithout sourceId = true) :
    sourceId ∉ s.config ∧ s.Finished sourceId := by
  simp only [settledWithout, Bool.and_eq_true, Bool.not_eq_true', decide_eq_true_eq,
    List.all_eq_true] at h
  obtain ⟨⟨⟨hconfig, hpurgers⟩, hseen⟩, hsyncs⟩ := h
  refine ⟨fun hmem => ?_, hpurgers, hseen, fun sync hsync _ => hsyncs sync hsync⟩
  rw [Std.ExtTreeMap.contains_iff_mem.mpr hmem] at hconfig
  cases hconfig

/-- **A removed source keeps no data.** In every run in which no sync or refresh
asked for over HTTP lands after the last purge, nothing is left of a source that
is not configured any more once the reloads and its syncs have finished. -/
theorem removed_keeps_nothing {config : StrMap Source} (hdefined : sourceId ∈ config)
    (cache : MemoryCache) (h : Runs.Reach step (Timely sourceId) (start config cache) s)
    (hremoved : sourceId ∉ s.config) (hfinished : s.Finished sourceId) :
    s.cache.get sourceId = none := by
  have hinv := h.invariant (Inv.start hdefined cache)
    fun _ _ _ hinv htimely hstep => hinv.step htimely hstep
  exact hinv.finished hfinished hremoved

theorem landedBeforePurge_keeps_nothing : ∃ s, Runs.exec step (start oneSource {})
      (removedDuringSync ++ [.land 0 oneHostOutput 0] ++ .finish 0 :: lastPurge) = some s ∧
    s.settledWithout "src" = true ∧ s.cache.get "src" = none := by
  have hrun : (Runs.exec step (start oneSource {})
      (removedDuringSync ++ [.land 0 oneHostOutput 0] ++ .finish 0 :: lastPurge)).any
        (·.settledWithout "src") = true := by decide
  obtain ⟨s, hexec, hsettled⟩ := (Option.any_eq_true _ _).mp hrun
  refine ⟨s, hexec, hsettled, ?_⟩
  obtain ⟨hremoved, hfinished⟩ := finished_of_settledWithout hsettled
  have hready : (Runs.exec step (start oneSource {}) removedDuringSync).any
      (·.purgers.any (·.willCollect)) = true := by decide
  rw [Runs.exec_append, Runs.exec_append] at hexec
  obtain ⟨landed, hexec, hlast⟩ := Option.bind_eq_some_iff.mp hexec
  obtain ⟨ready, hfirst, hland⟩ := Option.bind_eq_some_iff.mp hexec
  rw [hfirst] at hready
  obtain ⟨purger, hpurger, hcollect⟩ := List.any_eq_true.mp hready
  have hquiet : Runs.Meets step (Timely "src") (start oneSource {}) removedDuringSync :=
    Runs.meets_of_forall (by simp [removedDuringSync, Timely]) _
  have hreached := Runs.Reach.start.of_meets hquiet hfirst
  have htimely : Runs.Meets step (Timely "src") ready [.land 0 oneHostOutput 0] := by
    refine ⟨fun _ _ _ _ _ => .inl (.inl ⟨purger, hpurger, hcollect⟩), ?_⟩
    split <;> trivial
  have hlanded := hreached.of_meets htimely hland
  have hpurged := hlanded.of_meets
    (Runs.meets_of_forall (by simp [lastPurge, Timely]) _) hlast
  have hdefined : "src" ∈ oneSource := by decide
  exact removed_keeps_nothing hdefined {} hpurged hremoved hfinished

/-- The purge has run when the sync lands, and none follows. -/
theorem landedAfterPurge_keeps_data : ¬ ∀ (sourceId : String) (config : StrMap Source)
    (cache : MemoryCache) (s : ReloadState), sourceId ∈ config →
    Runs.Reach step Runs.Any (start config cache) s → sourceId ∉ s.config →
    s.Finished sourceId → s.cache.get sourceId = none := by
  intro h
  have hrun : (Runs.exec step (start oneSource {}) (removedDuringSync ++
      [.collect 1, .removeNext 1, .land 0 oneHostOutput 0, .finish 0])).any (fun s =>
        s.settledWithout "src" && (s.cache.get "src").isSome) = true := by decide
  obtain ⟨s, hexec, hends⟩ := (Option.any_eq_true _ _).mp hrun
  obtain ⟨hsettled, hkept⟩ := Bool.and_eq_true_iff.mp hends
  obtain ⟨hremoved, hfinished⟩ := finished_of_settledWithout hsettled
  have hnone := h "src" oneSource {} s (by decide) (Runs.Reach.start.of_exec hexec) hremoved
    hfinished
  rw [hnone] at hkept
  cases hkept

end ReloadState

end UnifiedApi
