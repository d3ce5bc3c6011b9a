import UnifiedApi.Lib.Runs
import UnifiedApi.Lib.Slots

/-! # The scheduler's tasks, from boot to the final snapshot

The supervisor starts a generation of tasks, replaces it when a reload lands and
waits for its tasks at shutdown. Main flips the shutdown flag once the server
has stopped, joins the background tasks it knows of and saves the cache. Each
party runs on its own; a handle is the number of a task. -/

namespace UnifiedApi

/-- A pruner waits for the tasks of a stopped generation and then drops the
entries that are not configured. -/
inductive TaskKind where
  | periodic
  | clone
  | pruner (handles : List Nat)
  deriving DecidableEq

def TaskKind.isPruner : TaskKind → Bool
  | pruner _ => true
  | periodic | clone => false

structure SupervisedTask where
  kind : TaskKind
  /-- Its stop channel was flipped. -/
  told : Bool := false
  finished : Bool := false
  deriving DecidableEq

inductive SupervisorPhase where
  | spawned
  | head
  | waiting (handles : List Nat)
  | draining (handles : List Nat)
  | returned
  deriving DecidableEq

/-- The supervisor and every task it ever started; `outgoing` are the stopped
ones it has yet to wait for. The last field is history: it met the shutdown
flag at the head of its loop while there were some. -/
structure SupervisorState where
  phase : SupervisorPhase := .spawned
  seen : Nat := 0
  tasks : List SupervisedTask := []
  outgoing : List Nat := []
  overtaken : Bool := false
  deriving DecidableEq

inductive SupervisorLabel where
  | subscribe
  | head (periodic clones : Nat)
  | seeShutdown
  | seeReload
  | await
  | taskEnds (task : Nat)
  deriving DecidableEq

namespace SupervisorState

def finished (s : SupervisorState) (task : Nat) : Bool := s.tasks[task]?.any (·.finished)

/-- The stop channel of the generation is flipped. -/
def tell (tasks : List SupervisedTask) (handles : List Nat) : List SupervisedTask :=
  tasks.mapIdx fun i task => if i ∈ handles then { task with told := true } else task

/-- A generation's tasks; only a reload brings projects without a checkout. -/
def generation (reloads periodic clones : Nat) : List SupervisedTask :=
  List.replicate periodic { kind := .periodic } ++
    List.replicate (if reloads > 0 then clones else 0) { kind := .clone }

/-- The head of the loop: the flag is looked at before the tasks are started. -/
def atHead (s : SupervisorState) (shutdown : Bool) (reloads periodic clones : Nat) :
    SupervisorState :=
  if shutdown then { s with phase := .returned, overtaken := !s.outgoing.isEmpty }
  else
    let started := generation reloads periodic clones
    { s with
      tasks := s.tasks ++ started
      phase := .waiting (List.range' s.tasks.length started.length) }

def stopAll (s : SupervisorState) (handles : List Nat) : SupervisorState :=
  { s with
    tasks := tell s.tasks handles
    phase := .draining (s.outgoing ++ handles)
    outgoing := [] }

/-- The generation is stopped and left to a pruner. -/
def replace (s : SupervisorState) (reloads : Nat) (handles : List Nat) : SupervisorState :=
  { s with
    seen := reloads
    tasks := tell s.tasks handles ++ [{ kind := .pruner handles }]
    phase := .head
    outgoing := s.outgoing.filter (!s.finished ·) ++ [s.tasks.length] }

def endTask (s : SupervisorState) (i : Nat) (task : SupervisedTask) : SupervisorState :=
  { s with tasks := s.tasks.set i { task with finished := true } }

def step (shutdown : Bool) (reloads : Nat) (s : SupervisorState) :
    SupervisorLabel → Option SupervisorState
  | .subscribe =>
    if s.phase = .spawned then some { s with phase := .head, seen := reloads } else none
  | .head periodic clones =>
    if s.phase = .head then some (s.atHead shutdown reloads periodic clones) else none
  | .seeShutdown => match s.phase with
    | .waiting handles => if shutdown then some (s.stopAll handles) else none
    | _ => none
  | .seeReload => match s.phase with
    | .waiting handles => if s.seen < reloads then some (s.replace reloads handles) else none
    | _ => none
  | .await => match s.phase with
    | .draining [] => some { s with phase := .returned }
    | .draining (handle :: rest) =>
      if s.finished handle then some { s with phase := .draining rest } else none
    | _ => none
  | .taskEnds i => s.tasks[i]?.bind fun task => match task.kind with
    | .periodic | .clone => some (s.endTask i task)
    | .pruner handles => if handles.all s.finished then some (s.endTask i task) else none

/-! ## Who waits for a task -/

def Unfinished (s : SupervisorState) (i : Nat) : Prop :=
  ∃ task, s.tasks[i]? = some task ∧ task.finished = false

/-- The tasks the supervisor itself is to wait for. -/
def watched (s : SupervisorState) : List Nat :=
  s.outgoing ++ match s.phase with
    | .waiting handles | .draining handles => handles
    | .spawned | .head | .returned => []

/-- A pruner that has not ended waits for the task. -/
def LeftTo (s : SupervisorState) (i : Nat) : Prop :=
  ∃ (j : Nat) (task : SupervisedTask) (handles : List Nat), s.tasks[j]? = some task ∧
    task.finished = false ∧ task.kind = .pruner handles ∧ i ∈ handles

structure Kept (s : SupervisorState) : Prop where
  spawned : s.phase = .spawned → s.tasks = [] ∧ s.outgoing = []
  fresh : ∀ handles, s.phase = .waiting handles → ∀ i ∈ handles,
    ∃ task, s.tasks[i]? = some task ∧ task.kind.isPruner = false
  /-- A pruner waits for no other pruner, and ends after what it waits for. -/
  pruned : ∀ (j : Nat) task handles, s.tasks[j]? = some task → task.kind = .pruner handles →
    ∀ i ∈ handles, ∃ other, s.tasks[i]? = some other ∧ other.kind.isPruner = false ∧
      (task.finished = true → other.finished = true)
  held : ∀ i, s.Unfinished i → i ∈ s.watched ∨ s.LeftTo i
  told : ∀ (i : Nat) task, s.tasks[i]? = some task → task.kind = .periodic →
    task.finished = false →
      task.told = true ∨ ∃ handles, s.phase = .waiting handles ∧ i ∈ handles
  drained : ∀ handles, s.phase = .draining handles → s.outgoing = []
  returned : s.phase = .returned → s.overtaken = true ∨ s.outgoing = []

/-- With nothing left to wait for, everything has ended. -/
theorem Kept.quiet {s : SupervisorState} (h : s.Kept) (hwatched : s.watched = []) (i : Nat) :
    ¬ s.Unfinished i := by
  intro hi
  rcases h.held i hi with hmem | ⟨j, task, handles, hj, hfinished, hkind, _⟩
  · rw [hwatched] at hmem
    cases hmem
  · rcases h.held j ⟨task, hj, hfinished⟩ with hmem | ⟨k, pruner, others, hk, _, hpruner, hmem⟩
    · rw [hwatched] at hmem
      cases hmem
    · obtain ⟨other, hother, hnot, _⟩ := h.pruned k pruner others hk hpruner j hmem
      obtain rfl := Option.some.inj (hj.symm.trans hother)
      rw [hkind] at hnot
      cases hnot

/-! ## What becomes of the tasks -/

/-- Every task is still there, of its kind, and what it was told or finished
stays so. -/
def Extends (tasks tasks' : List SupervisedTask) : Prop :=
  ∀ (i : Nat) old, tasks[i]? = some old → ∃ task, tasks'[i]? = some task ∧ task.kind = old.kind ∧
    (old.finished = true → task.finished = true) ∧ (old.told = true → task.told = true)

theorem extends_append (tasks more : List SupervisedTask) : Extends tasks (tasks ++ more) :=
  fun _ old hold => ⟨old, Slots.getElem?_append hold more, rfl, id, id⟩

theorem getElem?_tell (tasks : List SupervisedTask) (handles : List Nat) (i : Nat) :
    (tell tasks handles)[i]? =
      tasks[i]?.map fun task => if i ∈ handles then { task with told := true } else task := by
  simp [tell]

theorem of_tell {tasks : List SupervisedTask} {handles : List Nat} {i : Nat}
    {task : SupervisedTask} (h : (tell tasks handles)[i]? = some task) :
    ∃ old, tasks[i]? = some old ∧ task.kind = old.kind ∧ task.finished = old.finished ∧
      (i ∈ handles → task.told = true) ∧ (old.told = true → task.told = true) := by
  rw [getElem?_tell] at h
  obtain ⟨old, hold, rfl⟩ := Option.map_eq_some_iff.mp h
  refine ⟨old, hold, ?_⟩
  split
  · exact ⟨rfl, rfl, fun _ => rfl, fun _ => rfl⟩
  · exact ⟨rfl, rfl, fun hi => absurd hi ‹_›, id⟩

theorem exists_tell {tasks : List SupervisedTask} {i : Nat} {old : SupervisedTask}
    (h : tasks[i]? = some old) (handles : List Nat) :
    ∃ task, (tell tasks handles)[i]? = some task ∧ task.kind = old.kind ∧
      task.finished = old.finished ∧ (old.told = true → task.told = true) := by
  have hsome : (tell tasks handles)[i]? =
      some (if i ∈ handles then { old with told := true } else old) := by
    rw [getElem?_tell, h, Option.map_some]
  obtain ⟨_, hfound, hkind, hfinished, _, htold⟩ := of_tell hsome
  obtain rfl := Option.some.inj (h.symm.trans hfound)
  exact ⟨_, hsome, hkind, hfinished, htold⟩

theorem extends_tell (tasks : List SupervisedTask) (handles : List Nat) :
    Extends tasks (tell tasks handles) := by
  intro i old hold
  obtain ⟨task, htask, hkind, hfinished, htold⟩ := exists_tell hold handles
  exact ⟨task, htask, hkind, hfinished.trans, htold⟩

theorem extends_endTask {s : SupervisorState} {i : Nat} {task : SupervisedTask}
    (h : s.tasks[i]? = some task) : Extends s.tasks (s.endTask i task).tasks := by
  intro j old hold
  have hset := Slots.getElem?_set h { task with finished := true } j
  split at hset
  · rename_i heq
    subst heq
    obtain rfl := Option.some.inj (h.symm.trans hold)
    exact ⟨_, hset, rfl, fun _ => rfl, id⟩
  · exact ⟨old, hset.trans hold, rfl, id, id⟩

theorem Extends.fresh {tasks tasks' : List SupervisedTask} (h : Extends tasks tasks') {i : Nat}
    (hfresh : ∃ task, tasks[i]? = some task ∧ task.kind.isPruner = false) :
    ∃ task, tasks'[i]? = some task ∧ task.kind.isPruner = false := by
  obtain ⟨old, hold, hkind⟩ := hfresh
  obtain ⟨task, htask, hsame, _⟩ := h i old hold
  exact ⟨task, htask, hsame ▸ hkind⟩

/-- A pruner that was there before waits as before, unless it has just ended. -/
theorem Extends.pruned {tasks tasks' : List SupervisedTask} (h : Extends tasks tasks')
    {finished finished' : Bool} {i : Nat}
    (hpruned : ∃ other, tasks[i]? = some other ∧ other.kind.isPruner = false ∧
      (finished = true → other.finished = true))
    (hfinished : finished' = true → finished = true) :
    ∃ other, tasks'[i]? = some other ∧ other.kind.isPruner = false ∧
      (finished' = true → other.finished = true) := by
  obtain ⟨old, hold, hkind, hdone⟩ := hpruned
  obtain ⟨task, htask, hsame, hstays, _⟩ := h i old hold
  exact ⟨task, htask, hsame ▸ hkind, fun hnow => hstays (hdone (hfinished hnow))⟩

/-! ## The steps of the supervisor -/

section Steps
variable {s : SupervisorState}

theorem Kept.returnsAtHead (h : s.Kept) (hphase : s.phase = .head) :
    Kept { s with phase := .returned, overtaken := !s.outgoing.isEmpty } where
  spawned := nofun
  fresh := nofun
  pruned := h.pruned
  held i hi := by
    have hheld := h.held i hi
    simp only [watched, hphase] at hheld
    exact hheld
  told i task htask hkind hfinished := by
    rcases h.told i task htask hkind hfinished with htold | ⟨handles, hwaiting, _⟩
    · exact .inl htold
    · rw [hphase] at hwaiting
      cases hwaiting
  drained := nofun
  returned _ := by cases s.outgoing <;> simp

theorem mem_generation {reloads periodic clones : Nat} {task : SupervisedTask}
    (h : task ∈ generation reloads periodic clones) : task.kind.isPruner = false := by
  rcases List.mem_append.mp h with h | h
  · obtain rfl := List.eq_of_mem_replicate h
    rfl
  · obtain rfl := List.eq_of_mem_replicate h
    rfl

theorem LeftTo.extends {s' : SupervisorState} {i : Nat} (h : s.LeftTo i)
    (hstays : ∀ (j : Nat) (task : SupervisedTask), s.tasks[j]? = some task →
      task.finished = false → task.kind.isPruner = true →
      ∃ task', s'.tasks[j]? = some task' ∧ task'.finished = false ∧ task'.kind = task.kind) :
    s'.LeftTo i := by
  obtain ⟨j, task, handles, hj, hfinished, hkind, hmem⟩ := h
  obtain ⟨task', hj', hfinished', hsame⟩ := hstays j task hj hfinished (by rw [hkind]; rfl)
  exact ⟨j, task', handles, hj', hfinished', hsame.trans hkind, hmem⟩

/-- The tasks of the new generation are all waited for. -/
theorem Kept.startsTasks (h : s.Kept) (hphase : s.phase = .head) (reloads periodic clones : Nat) :
    Kept { s with
      tasks := s.tasks ++ generation reloads periodic clones
      phase := .waiting (List.range' s.tasks.length (generation reloads periodic clones).length) }
    where
  spawned := nofun
  fresh handles hhandles i hi := by
    obtain rfl := SupervisorPhase.waiting.inj hhandles
    obtain ⟨hle, hlt⟩ := List.mem_range'_1.mp hi
    have hnew : (s.tasks ++ generation reloads periodic clones)[i]? =
        (generation reloads periodic clones)[i - s.tasks.length]? :=
      List.getElem?_append_right hle
    have hbound : i - s.tasks.length < (generation reloads periodic clones).length := by omega
    exact ⟨_, hnew.trans (List.getElem?_eq_getElem hbound),
      mem_generation (List.getElem_mem hbound)⟩
  pruned j task handles htask hkind i hi := by
    rcases Nat.lt_or_ge j s.tasks.length with hlt | hge
    · rw [List.getElem?_append_left hlt] at htask
      exact (extends_append _ _).pruned (h.pruned j task handles htask hkind i hi) id
    · rw [List.getElem?_append_right hge] at htask
      have hnot := mem_generation (List.mem_of_getElem? htask)
      rw [hkind] at hnot
      cases hnot
  held i hi := by
    obtain ⟨task, htask, hfinished⟩ := hi
    rcases Nat.lt_or_ge i s.tasks.length with hlt | hge
    · rw [List.getElem?_append_left hlt] at htask
      rcases h.held i ⟨task, htask, hfinished⟩ with hmem | hleft
      · simp only [watched, hphase, List.append_nil] at hmem
        exact .inl (List.mem_append_left _ hmem)
      · exact .inr (hleft.extends fun j old hj hopen _ =>
          ⟨old, Slots.getElem?_append hj _, hopen, rfl⟩)
    · have hbound := Slots.lt_length htask
      rw [List.length_append] at hbound
      exact .inl (List.mem_append_right _ (List.mem_range'_1.mpr ⟨hge, hbound⟩))
  told i task htask hkind hfinished := by
    rcases Nat.lt_or_ge i s.tasks.length with hlt | hge
    · rw [List.getElem?_append_left hlt] at htask
      rcases h.told i task htask hkind hfinished with htold | ⟨handles, hwaiting, _⟩
      · exact .inl htold
      · rw [hphase] at hwaiting
        cases hwaiting
    · have hbound := Slots.lt_length htask
      rw [List.length_append] at hbound
      exact .inr ⟨_, rfl, List.mem_range'_1.mpr ⟨hge, hbound⟩⟩
  drained := nofun
  returned := nofun

/-- Who waited for a task before its generation was told to stop. -/
theorem Kept.heldBefore (h : s.Kept) {handles : List Nat} (hphase : s.phase = .waiting handles)
    {i : Nat} {task : SupervisedTask} (htask : (tell s.tasks handles)[i]? = some task)
    (hfinished : task.finished = false) : i ∈ s.outgoing ++ handles ∨ s.LeftTo i := by
  obtain ⟨old, hold, _, hsame, _⟩ := of_tell htask
  have hheld := h.held i ⟨old, hold, hsame ▸ hfinished⟩
  simp only [watched, hphase] at hheld
  exact hheld

/-- What was told to stop by now is all there was to tell. -/
theorem Kept.toldNow (h : s.Kept) {handles : List Nat} (hphase : s.phase = .waiting handles)
    {i : Nat} {task : SupervisedTask} (htask : (tell s.tasks handles)[i]? = some task)
    (hkind : task.kind = .periodic) (hfinished : task.finished = false) : task.told = true := by
  obtain ⟨old, hold, hsame, hopen, hnow, hbefore⟩ := of_tell htask
  rcases h.told i old hold (hsame ▸ hkind) (hopen ▸ hfinished) with htold | ⟨others, heq, hmem⟩
  · exact hbefore htold
  · obtain rfl := SupervisorPhase.waiting.inj (hphase.symm.trans heq)
    exact hnow hmem

theorem Kept.prunedTold (h : s.Kept) {handles : List Nat} {j : Nat} {task : SupervisedTask}
    {others : List Nat} (htask : (tell s.tasks handles)[j]? = some task)
    (hkind : task.kind = .pruner others) {i : Nat} (hi : i ∈ others) :
    ∃ other, (tell s.tasks handles)[i]? = some other ∧ other.kind.isPruner = false ∧
      (task.finished = true → other.finished = true) := by
  obtain ⟨old, hold, hsame, hopen, _⟩ := of_tell htask
  exact (extends_tell s.tasks handles).pruned (h.pruned j old others hold (hsame ▸ hkind) i hi)
    hopen.symm.trans

theorem leftTo_tell {handles : List Nat} {s' : SupervisorState} {i : Nat}
    (hkept : ∀ (j : Nat) (task : SupervisedTask), (tell s.tasks handles)[j]? = some task →
      s'.tasks[j]? = some task) (h : s.LeftTo i) : s'.LeftTo i := by
  refine h.extends fun j old hj hopen _ => ?_
  obtain ⟨task, htask, hkind, hfinished, _⟩ := exists_tell hj handles
  exact ⟨task, hkept j task htask, hfinished.trans hopen, hkind⟩

theorem Kept.stopAll (h : s.Kept) {handles : List Nat} (hphase : s.phase = .waiting handles) :
    (s.stopAll handles).Kept where
  spawned := nofun
  fresh := nofun
  pruned _ _ _ htask hkind _ hi := h.prunedTold htask hkind hi
  held i hi := by
    obtain ⟨task, htask, hfinished⟩ := hi
    exact (h.heldBefore hphase htask hfinished).imp id (leftTo_tell fun _ _ => id)
  told i task htask hkind hfinished := .inl (h.toldNow hphase htask hkind hfinished)
  drained _ _ := rfl
  returned := nofun

theorem Kept.replace (h : s.Kept) {handles : List Nat} (hphase : s.phase = .waiting handles)
    (reloads : Nat) : (s.replace reloads handles).Kept := by
  have hlength : (tell s.tasks handles).length = s.tasks.length := by simp [tell]
  have hlookup : ∀ (i : Nat) task, (s.replace reloads handles).tasks[i]? = some task →
      (tell s.tasks handles)[i]? = some task ∨
        i = s.tasks.length ∧ task = { kind := .pruner handles } := fun i task htask =>
    (Slots.getElem?_append_or htask).imp id fun ⟨hi, heq⟩ => ⟨hi.trans hlength, heq⟩
  have hkeeps : ∀ (i : Nat) (task : SupervisedTask), (tell s.tasks handles)[i]? = some task →
      (s.replace reloads handles).tasks[i]? = some task := fun i task htask =>
    Slots.getElem?_append htask _
  have hpruner : (s.replace reloads handles).tasks[s.tasks.length]? =
      some { kind := .pruner handles } := by
    show (tell s.tasks handles ++ [_])[s.tasks.length]? = _
    rw [← hlength, List.getElem?_concat_length]
  refine ⟨nofun, nofun, ?_, ?_, ?_, nofun, nofun⟩
  · intro j task others htask hkind i hi
    rcases hlookup j task htask with hold | ⟨_, rfl⟩
    · exact (extends_append _ _).pruned (h.prunedTold hold hkind hi) id
    · obtain rfl := TaskKind.pruner.inj hkind
      obtain ⟨other, hother, hnot⟩ := h.fresh _ hphase i hi
      obtain ⟨found, hfound, hsame⟩ := ((extends_tell s.tasks handles).fresh ⟨other, hother, hnot⟩)
      exact ⟨found, hkeeps i found hfound, hsame, nofun⟩
  · intro i ⟨task, htask, hfinished⟩
    rcases hlookup i task htask with hold | ⟨rfl, _⟩
    · rcases h.heldBefore hphase hold hfinished with hmem | hleft
      · rcases List.mem_append.mp hmem with hout | hcurrent
        · refine .inl (List.mem_append_left _ (List.mem_append_left _ ?_))
          obtain ⟨old, hfound, _, hsame, _⟩ := of_tell hold
          refine List.mem_filter.mpr ⟨hout, ?_⟩
          simp [finished, hfound, ← hsame, hfinished]
        · exact .inr ⟨_, _, handles, hpruner, rfl, rfl, hcurrent⟩
      · exact .inr (leftTo_tell hkeeps hleft)
    · exact .inl (List.mem_append_left _ (List.mem_append_right _ (List.mem_singleton_self _)))
  · intro i task htask hkind hfinished
    rcases hlookup i task htask with hold | ⟨_, rfl⟩
    · exact .inl (h.toldNow hphase hold hkind hfinished)
    · cases hkind

/-- A task that has ended is waited for no longer. -/
theorem Kept.awaits (h : s.Kept) {handle : Nat} {rest : List Nat}
    (hphase : s.phase = .draining (handle :: rest)) (hfinished : s.finished handle = true) :
    Kept { s with phase := .draining rest } where
  spawned := nofun
  fresh := nofun
  pruned := h.pruned
  held i hi := by
    obtain ⟨task, htask, hopen⟩ := hi
    have hheld := h.held i ⟨task, htask, hopen⟩
    simp only [watched, hphase] at hheld
    rcases hheld with hmem | hleft
    · rcases List.mem_append.mp hmem with hout | hlist
      · exact .inl (List.mem_append_left _ hout)
      · rcases List.mem_cons.mp hlist with rfl | hlater
        · simp [finished, htask, hopen] at hfinished
        · exact .inl (List.mem_append_right _ hlater)
    · exact .inr hleft
  told i task htask hkind hopen := by
    rcases h.told i task htask hkind hopen with htold | ⟨handles, hwaiting, _⟩
    · exact .inl htold
    · rw [hphase] at hwaiting
      cases hwaiting
  drained _ _ := h.drained _ hphase
  returned := nofun

theorem Kept.returns (h : s.Kept) (hphase : s.phase = .draining []) :
    Kept { s with phase := .returned } where
  spawned := nofun
  fresh := nofun
  pruned := h.pruned
  held i hi := by
    have hheld := h.held i hi
    simp only [watched, hphase] at hheld
    exact hheld
  told i task htask hkind hopen := by
    rcases h.told i task htask hkind hopen with htold | ⟨handles, hwaiting, _⟩
    · exact .inl htold
    · rw [hphase] at hwaiting
      cases hwaiting
  drained := nofun
  returned _ := .inr (h.drained _ hphase)

theorem of_endTask {i j : Nat} {task found : SupervisedTask} (htask : s.tasks[i]? = some task)
    (h : (s.endTask i task).tasks[j]? = some found) :
    (j = i ∧ found = { task with finished := true }) ∨ (j ≠ i ∧ s.tasks[j]? = some found) := by
  rw [show (s.endTask i task).tasks[j]? = _ from Slots.getElem?_set htask _ j] at h
  split at h
  · exact .inl ⟨‹_›, (Option.some.inj h).symm⟩
  · exact .inr ⟨‹_›, h⟩

/-- A task ends; a pruner only after all it waits for. -/
theorem Kept.endTask (h : s.Kept) {i : Nat} {task : SupervisedTask}
    (htask : s.tasks[i]? = some task)
    (hends : ∀ handles, task.kind = .pruner handles → handles.all s.finished = true) :
    (s.endTask i task).Kept where
  spawned hphase := by
    rw [(h.spawned hphase).1] at htask
    cases htask
  fresh handles hphase j hj := (extends_endTask htask).fresh (h.fresh handles hphase j hj)
  pruned j found handles hfound hkind k hk := by
    rcases of_endTask htask hfound with ⟨rfl, rfl⟩ | ⟨_, hold⟩
    · obtain ⟨other, hother, hnot, _⟩ := h.pruned j task handles htask hkind k hk
      have hdone := List.all_eq_true.mp (hends handles hkind) k hk
      have hended : true = true → other.finished = true :=
        fun _ => by simpa [finished, hother] using hdone
      exact (extends_endTask htask).pruned ⟨other, hother, hnot, hended⟩ id
    · exact (extends_endTask htask).pruned (h.pruned j found handles hold hkind k hk) id
  held j hj := by
    obtain ⟨found, hfound, hopen⟩ := hj
    rcases of_endTask htask hfound with ⟨rfl, rfl⟩ | ⟨_, hold⟩
    · cases hopen
    · refine (h.held j ⟨found, hold, hopen⟩).imp id fun hleft => ?_
      obtain ⟨k, pruner, handles, hk, hrunning, hpruner, hmem⟩ := hleft
      by_cases heq : k = i
      · subst heq
        obtain rfl := Option.some.inj (htask.symm.trans hk)
        have hdone := List.all_eq_true.mp (hends handles hpruner) j hmem
        simp [finished, hold, hopen] at hdone
      · refine ⟨k, pruner, handles, ?_, hrunning, hpruner, hmem⟩
        exact (List.getElem?_set_ne (Ne.symm heq)).trans hk
  told j found hfound hkind hopen := by
    rcases of_endTask htask hfound with ⟨rfl, rfl⟩ | ⟨_, hold⟩
    · cases hopen
    · exact h.told j found hold hkind hopen
  drained := h.drained
  returned := h.returned

theorem Kept.step (h : s.Kept) {shutdown : Bool} {reloads : Nat} {label : SupervisorLabel}
    {s' : SupervisorState} (hstep : SupervisorState.step shutdown reloads s label = some s') :
    s'.Kept := by
  cases label with
  | subscribe =>
    obtain ⟨hphase, hstep⟩ := Option.ite_none_right_eq_some.mp hstep
    obtain rfl := Option.some.inj hstep
    obtain ⟨htasks, hout⟩ := h.spawned hphase
    refine ⟨nofun, nofun, h.pruned, fun i hi => ?_, fun i task htask => ?_, nofun, nofun⟩
    · obtain ⟨task, htask, _⟩ := hi
      rw [show _ = [] from htasks] at htask
      cases htask
    · rw [show _ = [] from htasks] at htask
      cases htask
  | head periodic clones =>
    obtain ⟨hphase, hstep⟩ := Option.ite_none_right_eq_some.mp hstep
    obtain rfl := Option.some.inj hstep
    cases shutdown with
    | false => exact h.startsTasks hphase reloads periodic clones
    | true => exact h.returnsAtHead hphase
  | seeShutdown =>
    simp only [SupervisorState.step] at hstep
    split at hstep
    · obtain ⟨_, hstep⟩ := Option.ite_none_right_eq_some.mp hstep
      obtain rfl := Option.some.inj hstep
      exact h.stopAll ‹_›
    · cases hstep
  | seeReload =>
    simp only [SupervisorState.step] at hstep
    split at hstep
    · obtain ⟨_, hstep⟩ := Option.ite_none_right_eq_some.mp hstep
      obtain rfl := Option.some.inj hstep
      exact h.replace ‹_› reloads
    · cases hstep
  | await =>
    simp only [SupervisorState.step] at hstep
    split at hstep
    · obtain rfl := Option.some.inj hstep
      exact h.returns ‹_›
    · obtain ⟨hfinished, hstep⟩ := Option.ite_none_right_eq_some.mp hstep
      obtain rfl := Option.some.inj hstep
      exact h.awaits ‹_› hfinished
    · cases hstep
  | taskEnds i =>
    obtain ⟨task, htask, hstep⟩ := Option.bind_eq_some_iff.mp hstep
    split at hstep
    · obtain rfl := Option.some.inj hstep
      exact h.endTask htask (by simp [*])
    · obtain rfl := Option.some.inj hstep
      exact h.endTask htask (by simp [*])
    · rename_i handles hpruner
      obtain ⟨hall, hstep⟩ := Option.ite_none_right_eq_some.mp hstep
      obtain rfl := Option.some.inj hstep
      refine h.endTask htask fun others hkind => ?_
      obtain rfl := TaskKind.pruner.inj (hpruner.symm.trans hkind)
      exact hall

theorem Kept.initial : Kept {} where
  spawned _ := ⟨rfl, rfl⟩
  fresh := nofun
  pruned := nofun
  held _ h := by
    obtain ⟨_, htask, _⟩ := h
    cases htask
  told := nofun
  drained := nofun
  returned := nofun

end Steps

end SupervisorState

/-- The task that clones the checkouts and then starts the supervisor. -/
inductive BootPhase where
  | cloning | cleared | started | finished
  deriving DecidableEq

/-- A background task that main joins. -/
inductive Background where
  | snapshot | boot | supervisor
  deriving DecidableEq

inductive MainPhase where
  | serving
  | flagged
  | joining (handles : List Background)
  | saving (handles : List Background)
  deriving DecidableEq

/-- A process that keeps its cache in a file. The last two fields are history:
the grace ran out, and the supervisor was registered after main had taken the
handles. -/
structure ShutdownState where
  shutdown : Bool := false
  reloads : Nat := 0
  supervisor : Option SupervisorState := none
  boot : BootPhase := .cloning
  snapshotFinished : Bool := false
  registry : List Background := [.snapshot, .boot]
  main : MainPhase := .serving
  graceOver : Bool := false
  unregistered : Bool := false
  deriving DecidableEq

inductive ShutdownLabel where
  | reload
  | flip | take | joined | grace
  | bootClear | bootStop | bootStart | bootRegister
  | snapshotStop
  | supervisor (own : SupervisorLabel)
  deriving DecidableEq

namespace ShutdownState

def backgroundFinished (s : ShutdownState) : Background → Bool
  | .snapshot => s.snapshotFinished
  | .boot => s.boot = .finished
  | .supervisor => s.supervisor.any (·.phase = .returned)

/-- The handles main knows of: it takes them once. -/
def known (s : ShutdownState) : List Background :=
  match s.main with
  | .serving | .flagged => s.registry
  | .joining handles | .saving handles => handles

def step (s : ShutdownState) : ShutdownLabel → Option ShutdownState
  | .reload => if s.main = .serving then some { s with reloads := s.reloads + 1 } else none
  | .flip =>
    if s.main = .serving then some { s with shutdown := true, main := .flagged } else none
  | .take =>
    if s.main = .flagged then some { s with registry := [], main := .joining s.registry } else none
  | .joined => match s.main with
    | .joining handles =>
      if handles.all s.backgroundFinished then some { s with main := .saving handles } else none
    | _ => none
  | .grace => match s.main with
    | .joining handles => some { s with main := .saving handles, graceOver := true }
    | _ => none
  | .bootClear =>
    if s.boot = .cloning ∧ s.shutdown = false then some { s with boot := .cleared } else none
  | .bootStop =>
    if s.boot = .cloning ∧ s.shutdown = true then some { s with boot := .finished } else none
  | .bootStart =>
    if s.boot = .cleared then some { s with boot := .started, supervisor := some {} } else none
  | .bootRegister =>
    if s.boot = .started then
      let unregistered := match s.main with
        | .serving | .flagged => s.unregistered
        | .joining _ | .saving _ => true
      some { s with boot := .finished, registry := s.registry ++ [.supervisor], unregistered }
    else none
  | .snapshotStop => if s.shutdown then some { s with snapshotFinished := true } else none
  | .supervisor own => (s.supervisor.bind (·.step s.shutdown s.reloads own)).map fun supervisor =>
    { s with supervisor := some supervisor }

/-- Reached from the start of the process, whatever the parties do. -/
abbrev Reached (s : ShutdownState) : Prop := Runs.Reach step Runs.Any {} s

/-! ## What main waits for -/

structure Inv (s : ShutdownState) : Prop where
  kept : ∀ supervisor, s.supervisor = some supervisor → supervisor.Kept
  unstarted : s.boot = .cloning ∨ s.boot = .cleared → s.supervisor = none
  /-- A supervisor that runs will be registered or is, unless that came late. -/
  registered : s.supervisor ≠ none →
    s.boot = .started ∨ .supervisor ∈ s.known ∨ s.unregistered = true
  known : .snapshot ∈ s.known ∧ .boot ∈ s.known
  joined : ∀ handles, s.main = .saving handles →
    s.graceOver = true ∨ ∀ handle ∈ handles, s.backgroundFinished handle = true

theorem Inv.initial : Inv {} where
  kept := nofun
  unstarted _ := rfl
  registered h := absurd rfl h
  known := by decide
  joined := nofun

variable {s s' : ShutdownState}

/-- The supervisor that has returned stays so. -/
theorem returned_stays {supervisor supervisor' : SupervisorState} {shutdown : Bool} {reloads : Nat}
    {own : SupervisorLabel} (h : supervisor.step shutdown reloads own = some supervisor')
    (hphase : supervisor.phase = .returned) : supervisor'.phase = .returned := by
  cases own with
  | taskEnds i =>
    obtain ⟨task, _, h⟩ := Option.bind_eq_some_iff.mp h
    split at h
    · obtain rfl := Option.some.inj h
      exact hphase
    · obtain rfl := Option.some.inj h
      exact hphase
    · obtain ⟨_, h⟩ := Option.ite_none_right_eq_some.mp h
      obtain rfl := Option.some.inj h
      exact hphase
  | subscribe | head | seeShutdown | seeReload | await => simp [SupervisorState.step, hphase] at h

theorem Inv.supervisor (h : s.Inv) {own : SupervisorLabel}
    (hstep : s.step (.supervisor own) = some s') : s'.Inv := by
  obtain ⟨supervisor', hown, rfl⟩ := Option.map_eq_some_iff.mp hstep
  obtain ⟨supervisor, hsome, hown⟩ := Option.bind_eq_some_iff.mp hown
  refine ⟨fun found hfound => ?_, fun hboot => ?_, fun _ => ?_, h.known, fun handles hmain => ?_⟩
  · obtain rfl := Option.some.inj hfound
    exact (h.kept supervisor hsome).step hown
  · rw [h.unstarted hboot] at hsome
    cases hsome
  · exact h.registered (by simp [hsome])
  · refine (h.joined handles hmain).imp id fun hall handle hmem => ?_
    have hfinished := hall handle hmem
    cases handle with
    | snapshot | boot => exact hfinished
    | supervisor =>
      simp only [backgroundFinished, hsome, Option.any_some, decide_eq_true_eq] at hfinished
      simpa [backgroundFinished] using returned_stays hown hfinished

/-- Main goes on: what it knows of stays, and it saves only once all of that has
ended or the grace is over. -/
theorem Inv.mainMoves (h : s.Inv) {shutdown : Bool} {registry : List Background} {main : MainPhase}
    {graceOver : Bool}
    (hknown : ShutdownState.known { s with shutdown, registry, main, graceOver } = s.known)
    (hjoined : ∀ handles, main = .saving handles →
      graceOver = true ∨ ∀ handle ∈ handles, s.backgroundFinished handle = true) :
    Inv { s with shutdown, registry, main, graceOver } where
  kept := h.kept
  unstarted := h.unstarted
  registered := hknown.symm ▸ h.registered
  known := hknown.symm ▸ h.known
  joined := hjoined

/-- While the boot task runs main saves only past the grace. -/
theorem Inv.graceOver_of_boot (h : s.Inv) (hboot : s.boot ≠ .finished) {handles : List Background}
    (hmain : s.main = .saving handles) : s.graceOver = true := by
  have hknown : s.known = handles := by simp only [ShutdownState.known, hmain]
  rcases h.joined handles hmain with hover | hall
  · exact hover
  · have hfinished := hall .boot (hknown ▸ h.known.2)
    exact absurd (of_decide_eq_true hfinished) hboot

theorem Inv.bootRegisters (h : s.Inv) (hboot : s.boot = .started) (unregistered : Bool)
    (hlate : unregistered = true ∨ s.main = .serving ∨ s.main = .flagged) :
    Inv { s with boot := .finished, registry := s.registry ++ [.supervisor], unregistered } := by
  have hnot : s.boot ≠ .finished := by rw [hboot]; nofun
  have hsub : ∀ handle ∈ s.known, handle ∈ ShutdownState.known
      { s with boot := .finished, registry := s.registry ++ [.supervisor], unregistered } := by
    intro handle hmem
    cases hmain : s.main with
    | serving | flagged =>
      simp only [ShutdownState.known, hmain] at hmem ⊢
      exact List.mem_append_left _ hmem
    | joining handles | saving handles =>
      simp only [ShutdownState.known, hmain] at hmem ⊢
      exact hmem
  refine ⟨h.kept, nofun, fun _ => .inr ?_, ⟨hsub _ h.known.1, hsub _ h.known.2⟩,
    fun handles hmain => .inl (h.graceOver_of_boot hnot hmain)⟩
  rcases hlate with hlate | hmain | hmain
  · exact .inr hlate
  · simp [ShutdownState.known, hmain]
  · simp [ShutdownState.known, hmain]

theorem Inv.step (h : s.Inv) {label : ShutdownLabel} (hstep : s.step label = some s') : s'.Inv := by
  cases label with
  | supervisor own => exact h.supervisor hstep
  | reload =>
    obtain ⟨_, hstep⟩ := Option.ite_none_right_eq_some.mp hstep
    obtain rfl := Option.some.inj hstep
    exact ⟨h.kept, h.unstarted, h.registered, h.known, h.joined⟩
  | flip =>
    obtain ⟨hmain, hstep⟩ := Option.ite_none_right_eq_some.mp hstep
    obtain rfl := Option.some.inj hstep
    exact h.mainMoves (by simp only [ShutdownState.known, hmain]) nofun
  | take =>
    obtain ⟨hmain, hstep⟩ := Option.ite_none_right_eq_some.mp hstep
    obtain rfl := Option.some.inj hstep
    exact h.mainMoves (by simp only [ShutdownState.known, hmain]) nofun
  | joined =>
    simp only [ShutdownState.step] at hstep
    split at hstep
    · rename_i handles hmain
      obtain ⟨hall, hstep⟩ := Option.ite_none_right_eq_some.mp hstep
      obtain rfl := Option.some.inj hstep
      refine h.mainMoves (by simp only [ShutdownState.known, hmain]) fun found hfound => ?_
      obtain rfl := MainPhase.saving.inj hfound
      exact .inr (List.all_eq_true.mp hall)
    · cases hstep
  | grace =>
    simp only [ShutdownState.step] at hstep
    split at hstep
    · rename_i handles hmain
      obtain rfl := Option.some.inj hstep
      exact h.mainMoves (by simp only [ShutdownState.known, hmain]) fun _ _ => .inl rfl
    · cases hstep
  | bootClear | bootStop =>
    obtain ⟨⟨hboot, _⟩, hstep⟩ := Option.ite_none_right_eq_some.mp hstep
    obtain rfl := Option.some.inj hstep
    have hnone := h.unstarted (.inl hboot)
    have hnot : s.boot ≠ .finished := by rw [hboot]; nofun
    exact ⟨h.kept, fun _ => hnone, fun hsome => absurd hnone hsome, h.known,
      fun handles hmain => .inl (h.graceOver_of_boot hnot hmain)⟩
  | bootStart =>
    obtain ⟨hboot, hstep⟩ := Option.ite_none_right_eq_some.mp hstep
    obtain rfl := Option.some.inj hstep
    have hnot : s.boot ≠ .finished := by rw [hboot]; nofun
    refine ⟨fun found hfound => ?_, nofun, fun _ => .inl rfl, h.known,
      fun handles hmain => .inl (h.graceOver_of_boot hnot hmain)⟩
    obtain rfl := Option.some.inj hfound
    exact SupervisorState.Kept.initial
  | bootRegister =>
    obtain ⟨hboot, hstep⟩ := Option.ite_none_right_eq_some.mp hstep
    obtain rfl := Option.some.inj hstep
    refine h.bootRegisters hboot _ ?_
    cases hmain : s.main with
    | serving => exact .inr (.inl rfl)
    | flagged => exact .inr (.inr rfl)
    | joining handles | saving handles => exact .inl rfl
  | snapshotStop =>
    obtain ⟨_, hstep⟩ := Option.ite_none_right_eq_some.mp hstep
    obtain rfl := Option.some.inj hstep
    refine ⟨h.kept, h.unstarted, h.registered, h.known,
      fun handles hmain => (h.joined handles hmain).imp id fun hall handle hmem => ?_⟩
    have hfinished := hall handle hmem
    cases handle with
    | snapshot => rfl
    | boot | supervisor => exact hfinished

theorem Reached.inv (h : Reached s) : s.Inv :=
  h.invariant Inv.initial fun _ _ _ hinv _ hstep => hinv.step hstep

/-! ## The final snapshot -/

/-- **When main saves the cache for the last time, the periodic snapshots, the
boot and every task the scheduler ever started have ended, unless the grace ran
out, the supervisor was registered after main had taken the handles, or it met
the shutdown flag at the head of its loop, right after a reload.** -/
theorem final_snapshot_alone (h : Reached s) {handles : List Background}
    (hsaving : s.main = .saving handles) (hgrace : s.graceOver = false) :
    s.snapshotFinished = true ∧ s.boot = .finished ∧
    ∀ supervisor, s.supervisor = some supervisor →
      s.unregistered = false → supervisor.overtaken = false →
        supervisor.phase = .returned ∧ ∀ task ∈ supervisor.tasks, task.finished = true := by
  have hinv := h.inv
  have hknown : s.known = handles := by simp only [known, hsaving]
  have hall : ∀ handle ∈ s.known, s.backgroundFinished handle = true := by
    rcases hinv.joined handles hsaving with hover | hall
    · rw [hgrace] at hover
      cases hover
    · exact hknown ▸ hall
  have hboot : s.boot = .finished := of_decide_eq_true (hall .boot hinv.known.2)
  refine ⟨hall .snapshot hinv.known.1, hboot, fun supervisor hsome hregistered hmet => ?_⟩
  have hmem : Background.supervisor ∈ s.known := by
    rcases hinv.registered (by simp [hsome]) with hstarted | hmem | hlate
    · rw [hboot] at hstarted
      cases hstarted
    · exact hmem
    · rw [hregistered] at hlate
      cases hlate
  have hreturned : supervisor.phase = .returned := by
    simpa [backgroundFinished, hsome] using hall .supervisor hmem
  refine ⟨hreturned, fun task htask => ?_⟩
  have hkept := hinv.kept supervisor hsome
  have hwatched : supervisor.watched = [] := by
    rcases hkept.returned hreturned with hover | hnone
    · rw [hmet] at hover
      cases hover
    · simp only [SupervisorState.watched, hnone, hreturned, List.append_nil]
  obtain ⟨i, hi⟩ := List.mem_iff_getElem?.mp htask
  have hquiet := hkept.quiet hwatched i
  by_contra hopen
  exact hquiet ⟨task, hi, Bool.eq_false_iff.mpr hopen⟩

/-- The scheduler runs, and a reload comes in. -/
def reloaded : List ShutdownLabel :=
  [.bootClear, .bootStart, .bootRegister, .supervisor .subscribe, .supervisor (.head 1 0), .reload]

/-- The reload is taken up in time, and everything ends. -/
def orderlyShutdown : List ShutdownLabel :=
  reloaded ++ [.supervisor .seeReload, .supervisor (.head 1 0), .flip, .take,
    .supervisor .seeShutdown, .supervisor (.taskEnds 0), .supervisor (.taskEnds 1),
    .supervisor (.taskEnds 2), .supervisor .await, .supervisor .await, .supervisor .await,
    .snapshotStop, .joined]

theorem orderlyShutdown_alone : ∃ s, Runs.exec step {} orderlyShutdown = some s ∧
    s.snapshotFinished = true ∧ s.boot = .finished ∧ ∀ supervisor, s.supervisor = some supervisor →
      s.unregistered = false → supervisor.overtaken = false →
        supervisor.phase = .returned ∧ ∀ task ∈ supervisor.tasks, task.finished = true := by
  have hrun : (Runs.exec step {} orderlyShutdown).map (fun s => (s.main, s.graceOver)) =
      some (.saving [.snapshot, .boot, .supervisor], false) := by
    decide
  obtain ⟨s, hexec, hsaving⟩ := Option.map_eq_some_iff.mp hrun
  obtain ⟨hmain, hgrace⟩ := Prod.mk.inj hsaving
  exact ⟨s, hexec, final_snapshot_alone (Runs.Reach.start.of_exec hexec) hmain hgrace⟩

/-- The reload is taken up after the flag was flipped: nobody waits for the
stopped task, and the cache is saved while it runs. -/
example : (Runs.exec step {} (reloaded ++ [.flip, .take, .supervisor .seeReload,
    .supervisor (.head 1 0), .snapshotStop, .joined])).map (fun s => (s.main, s.graceOver,
      s.unregistered, s.supervisor.map fun supervisor =>
        (supervisor.overtaken, supervisor.tasks.map (·.finished)))) =
    some (.saving [.snapshot, .boot, .supervisor], false, false,
      some (true, [false, false])) := by
  decide

/-- **Whatever generation a periodic task is of, it was told to stop unless the
supervisor waits in its loop with that very generation running; and a pruner ends
only after every task of the generation it was left with.** -/
theorem tasks_replaced (h : Reached s) {supervisor : SupervisorState}
    (hsome : s.supervisor = some supervisor) :
    (∀ (i : Nat) task, supervisor.tasks[i]? = some task → task.kind = .periodic →
      task.finished = true ∨ task.told = true ∨
        ∃ handles, supervisor.phase = .waiting handles ∧ i ∈ handles) ∧
    ∀ (j : Nat) pruner handles, supervisor.tasks[j]? = some pruner →
      pruner.kind = .pruner handles → pruner.finished = true →
        ∀ i ∈ handles, supervisor.finished i = true := by
  have hkept := h.inv.kept supervisor hsome
  refine ⟨fun i task htask hkind => ?_, fun j pruner handles hpruner hkind hended i hi => ?_⟩
  · rcases Bool.eq_false_or_eq_true task.finished with hended | hopen
    · exact .inl hended
    · exact .inr (hkept.told i task htask hkind hopen)
  · obtain ⟨other, hother, _, hdone⟩ := hkept.pruned j pruner handles hpruner hkind i hi
    simp [SupervisorState.finished, hother, hdone hended]

theorem orderlyShutdown_replaced : ∃ s supervisor,
    Runs.exec step {} orderlyShutdown = some s ∧ s.supervisor = some supervisor ∧
    ∀ (j : Nat) pruner handles, supervisor.tasks[j]? = some pruner →
      pruner.kind = .pruner handles → pruner.finished = true →
        ∀ i ∈ handles, supervisor.finished i = true := by
  have hrun : (Runs.exec step {} orderlyShutdown).bind (·.supervisor) ≠ none := by decide
  obtain ⟨supervisor, hsupervisor⟩ := Option.ne_none_iff_exists'.mp hrun
  obtain ⟨s, hexec, hsome⟩ := Option.bind_eq_some_iff.mp hsupervisor
  exact ⟨s, supervisor, hexec, hsome, (tasks_replaced (Runs.Reach.start.of_exec hexec) hsome).2⟩

end ShutdownState

end UnifiedApi
