import UnifiedApi.Adapters.Http.ConditionalReads
import UnifiedApi.Lib.Memo
import UnifiedApi.Lib.Lists

/-! # How many hosts a view serves, memoised

A scrape of the metrics visits the views of the configuration it started with.
It takes the view's snapshot, reads the cache generation and asks the memo,
while writes, reloads, recordings of scopes and other scrapes go on. -/

namespace UnifiedApi

structure ViewHostsMemo where
  inner : StrMap (UInt64 × Nat) := ∅

namespace ViewHostsMemo

/-- The count for the view at the generation, and the memo after it. -/
def hostsCount (memo : ViewHostsMemo) (viewId : String) (generation : UInt64) (compute : Nat) :
    Nat × ViewHostsMemo :=
  let counted := (compute, { memo with inner := memo.inner.insert viewId (generation, compute) })
  match memo.inner[viewId]? with
  | some (seen, count) => if seen = generation then (count, memo) else counted
  | none => counted

abbrev Ask := Memo.Ask String UInt64 Nat

/-- The memo is what the questions have left. -/
def Keeps (memo : ViewHostsMemo) (asks : List Ask) : Prop :=
  ∀ viewId, memo.inner[viewId]? = Memo.kept asks viewId

variable {memo : ViewHostsMemo} {asks : List Ask}

theorem hostsCount_eq (viewId : String) (generation : UInt64) (compute : Nat) :
    (memo.hostsCount viewId generation compute).1 =
      Memo.answer memo.inner[viewId]? generation compute := by
  unfold hostsCount Memo.answer
  cases memo.inner[viewId]? with
  | none => rfl
  | some kept =>
    dsimp only
    split <;> rfl

/-- The question leaves its answer, also where the memo knew it. -/
theorem Keeps.hostsCount (h : memo.Keeps asks) (viewId : String) (generation : UInt64)
    (compute : Nat) : (memo.hostsCount viewId generation compute).2.Keeps
      (⟨viewId, generation, compute, (memo.hostsCount viewId generation compute).1⟩ :: asks) := by
  intro other
  rw [Memo.kept_cons, ← h other]
  unfold ViewHostsMemo.hostsCount
  cases hkept : memo.inner[viewId]? with
  | none => exact StrMap.getElem?_insert _ _ _ _
  | some kept =>
    dsimp only
    split
    · rename_i hseen
      split
      · rename_i hother
        rw [← hother, hkept, ← hseen]
      · rfl
    · exact StrMap.getElem?_insert _ _ _ _

end ViewHostsMemo

/-! ## Scrapes -/

inductive ScrapePhase where
  | idle
  | looking (viewId : String) (lookup : SnapshotLookup)
  | taken (viewId : String) (members : List MemberSnapshot)
  /-- The generation has been read. -/
  | keyed (viewId : String) (members : List MemberSnapshot) (generation : UInt64)

/-- How many hosts the snapshot serves. -/
def hostCount (members : List MemberSnapshot) : Nat :=
  (ViewSnapshot.hosts ⟨members, false⟩).length

namespace ScrapePhase

/-- The snapshot that the next step takes. -/
def takes : ScrapePhase → Option (String × List MemberSnapshot)
  | looking viewId lookup => if lookup.rest.isEmpty then some (viewId, lookup.members) else none
  | _ => none

def unread (viewId : String) : ScrapePhase → Option Nat
  | taken id members => if id = viewId then some (hostCount members) else none
  | _ => none

def generation : ScrapePhase → Option UInt64
  | keyed _ _ generation => some generation
  | _ => none

def read (viewId : String) (generation : UInt64) : ScrapePhase → Option Nat
  | keyed id members seen =>
    if id = viewId ∧ seen = generation then some (hostCount members) else none
  | _ => none

end ScrapePhase

structure Scrape where
  config : Config
  /-- The views it has not visited yet. -/
  rest : List String
  phase : ScrapePhase := .idle

structure GaugeState where
  app : AppState
  /-- Changes of the store whose bump is still to come. -/
  unbumped : Nat := 0
  memo : ViewHostsMemo := {}
  scrapes : List Scrape := []
  /-- Every question so far, the newest first. -/
  asked : List ViewHostsMemo.Ask := []

inductive GaugeEvent where
  | write (write : CacheWrite)
  | bump
  | reload (config : Config)
  | record (sourceId : String) (claim : ScopeClaim)
  | scrape
  /-- The next view of a scrape: a map is iterated in any order. -/
  | visit (i : Nat) (viewId : String)
  | advance (i : Nat)

namespace GaugeState

def boot (config : Config) : GaugeState := { app := { config } }

def generation (s : GaugeState) : UInt64 := s.app.cache.generation

def nextGeneration (s : GaugeState) : UInt64 := s.app.cache.generation + 1

def withStore (s : GaugeState) (store : StrMap CacheEntry) : GaugeState :=
  { s with app := { s.app with cache := { s.app.cache with store } } }

def bumped (s : GaugeState) : GaugeState :=
  { s with app := { s.app with cache := s.app.cache.bumpGeneration } }

def moved (s : GaugeState) (i : Nat) (scrape : Scrape) (phase : ScrapePhase) : GaugeState :=
  { s with scrapes := s.scrapes.set i { scrape with phase } }

/-- The memo is asked under its lock. -/
def ask (s : GaugeState) (viewId : String) (members : List MemberSnapshot)
    (generation : UInt64) : GaugeState :=
  let (hosts, memo) := s.memo.hostsCount viewId generation (hostCount members)
  { s with memo, asked := ⟨viewId, generation, hostCount members, hosts⟩ :: s.asked }

/-- The next step of a scrape. -/
def advance (s : GaugeState) (i : Nat) (scrape : Scrape) : Option GaugeState :=
  match scrape.phase with
  | .idle =>
    if scrape.rest.isEmpty then some { s with scrapes := s.scrapes.eraseIdx i } else none
  | .looking viewId lookup => some <| s.moved i scrape <|
      if lookup.rest.isEmpty then .taken viewId lookup.members
      else .looking viewId (lookup.next s.app.cache s.app.advertisedScopes)
  | .taken viewId members => some (s.moved i scrape (.keyed viewId members s.generation))
  | .keyed viewId members generation =>
    some ((s.moved i scrape .idle).ask viewId members generation)

def visit (s : GaugeState) (i : Nat) (viewId : String) (scrape : Scrape) : Option GaugeState :=
  match scrape.phase, scrape.config.views[viewId]? with
  | .idle, some view =>
    if viewId ∈ scrape.rest then
      some (s.moved i { scrape with rest := scrape.rest.erase viewId }
        (.looking viewId { sources := scrape.config.sources, rest := view.members }))
    else none
  | _, _ => none

def step (s : GaugeState) : GaugeEvent → Option GaugeState
  | .write write => match write.store s.app.cache with
    | none => some s
    | some store =>
      if write.guarded then some (s.withStore store).bumped
      else some { s.withStore store with unbumped := s.unbumped + 1 }
  | .bump =>
    if s.unbumped = 0 then none else some { s.bumped with unbumped := s.unbumped - 1 }
  | .reload config => some { s with app := { s.app with config } }
  | .record sourceId claim => some { s with
      app := { s.app with advertisedScopes := s.app.advertisedScopes.record sourceId claim } }
  | .scrape => some { s with
      scrapes := s.scrapes ++ [{ config := s.app.config, rest := s.app.config.views.keys }] }
  | .visit i viewId => s.scrapes[i]?.bind (s.visit i viewId)
  | .advance i => s.scrapes[i]?.bind (s.advance i)

/-- What a step can do. -/
inductive Turn (s : GaugeState) : GaugeEvent → GaugeState → Prop
  /-- The scrapes and the generation do not see it. -/
  | aside {event} {s' : GaugeState} (hmemo : s'.memo = s.memo) (hasked : s'.asked = s.asked)
      (hscrapes : s'.scrapes = s.scrapes) (hgeneration : s'.generation = s.generation) :
      s.Turn event s'
  | bumped {event} {s' : GaugeState} (hmemo : s'.memo = s.memo) (hasked : s'.asked = s.asked)
      (hscrapes : s'.scrapes = s.scrapes) (hgeneration : s'.generation = s.nextGeneration)
      (hevent : event = .bump ∨ ∃ write, event = .write write ∧ write.guarded = true) :
      s.Turn event s'
  | begun : s.Turn .scrape { s with
      scrapes := s.scrapes ++ [{ config := s.app.config, rest := s.app.config.views.keys }] }
  | ended (i : Nat) : s.Turn (.advance i) { s with scrapes := s.scrapes.eraseIdx i }
  | looked {event} (i : Nat) (scrape : Scrape) (viewId : String) (lookup : SnapshotLookup) :
      s.Turn event (s.moved i scrape (.looking viewId lookup))
  | took (i : Nat) (scrape : Scrape) (viewId : String) (lookup : SnapshotLookup)
      (hscrape : s.scrapes[i]? = some scrape) (hphase : scrape.phase = .looking viewId lookup)
      (hrest : lookup.rest = []) :
      s.Turn (.advance i) (s.moved i scrape (.taken viewId lookup.members))
  | keyed (i : Nat) (scrape : Scrape) (viewId : String) (members : List MemberSnapshot)
      (hscrape : s.scrapes[i]? = some scrape) (hphase : scrape.phase = .taken viewId members) :
      s.Turn (.advance i) (s.moved i scrape (.keyed viewId members s.generation))
  | asked (i : Nat) (scrape : Scrape) (viewId : String) (members : List MemberSnapshot)
      (generation : UInt64) (hscrape : s.scrapes[i]? = some scrape)
      (hphase : scrape.phase = .keyed viewId members generation) :
      s.Turn (.advance i) ((s.moved i scrape .idle).ask viewId members generation)

variable {s s' : GaugeState}

theorem advance_turn {i : Nat} {scrape : Scrape} (hscrape : s.scrapes[i]? = some scrape)
    (h : s.advance i scrape = some s') : s.Turn (.advance i) s' := by
  unfold advance at h
  split at h
  · split at h
    · obtain rfl := Option.some.inj h
      exact .ended i
    · cases h
  · rename_i viewId lookup hphase
    obtain rfl := Option.some.inj h
    split
    · rename_i hrest
      exact .took i scrape viewId lookup hscrape hphase (List.isEmpty_iff.mp hrest)
    · exact .looked i scrape viewId _
  · rename_i viewId members hphase
    obtain rfl := Option.some.inj h
    exact .keyed i scrape viewId members hscrape hphase
  · rename_i viewId members generation hphase
    obtain rfl := Option.some.inj h
    exact .asked i scrape viewId members generation hscrape hphase

theorem step_turn {event : GaugeEvent} (h : s.step event = some s') : s.Turn event s' := by
  cases event with
  | write write =>
    simp only [step] at h
    split at h
    · obtain rfl := Option.some.inj h
      exact .aside rfl rfl rfl rfl
    · split at h
      · rename_i hguarded
        obtain rfl := Option.some.inj h
        exact .bumped rfl rfl rfl rfl (.inr ⟨write, rfl, hguarded⟩)
      · obtain rfl := Option.some.inj h
        exact .aside rfl rfl rfl rfl
  | bump =>
    simp only [step] at h
    split at h
    · cases h
    · obtain rfl := Option.some.inj h
      exact .bumped rfl rfl rfl rfl (.inl rfl)
  | reload config =>
    obtain rfl := Option.some.inj h
    exact .aside rfl rfl rfl rfl
  | record sourceId claim =>
    obtain rfl := Option.some.inj h
    exact .aside rfl rfl rfl rfl
  | scrape =>
    obtain rfl := Option.some.inj h
    exact .begun
  | visit i viewId =>
    obtain ⟨scrape, _, hvisit⟩ := Option.bind_eq_some_iff.mp h
    unfold visit at hvisit
    split at hvisit
    · split at hvisit
      · obtain rfl := Option.some.inj hvisit
        exact .looked i _ viewId _
      · cases hvisit
    · cases hvisit
  | advance i =>
    obtain ⟨scrape, hscrape, hadvance⟩ := Option.bind_eq_some_iff.mp h
    exact advance_turn hscrape hadvance

/-! ## The memo and the questions -/

/-- The memo holds what the questions left, each answered from it. -/
structure Memoised (s : GaugeState) : Prop where
  keeps : s.memo.Keeps s.asked
  served : Memo.Served s.asked

theorem Memoised.of_eq (h : s.Memoised) (hmemo : s'.memo = s.memo)
    (hasked : s'.asked = s.asked) : s'.Memoised := by
  obtain ⟨hkeeps, hserved⟩ := h
  rw [← hmemo, ← hasked] at hkeeps
  rw [← hasked] at hserved
  exact ⟨hkeeps, hserved⟩

theorem Memoised.ask (h : s.Memoised) (viewId : String) (members : List MemberSnapshot)
    (generation : UInt64) : (s.ask viewId members generation).Memoised := by
  refine ⟨h.keeps.hostsCount viewId generation _, .cons _ _ h.served ?_⟩
  have hanswer : (s.memo.hostsCount viewId generation (hostCount members)).1 = _ :=
    ViewHostsMemo.hostsCount_eq viewId generation (hostCount members)
  rwa [h.keeps viewId] at hanswer

theorem Memoised.turn {event : GaugeEvent} (h : s.Memoised) (hturn : s.Turn event s') :
    s'.Memoised := by
  cases hturn with
  | aside hmemo hasked => exact h.of_eq hmemo hasked
  | bumped hmemo hasked => exact h.of_eq hmemo hasked
  | begun | ended | looked | took | keyed => exact h.of_eq rfl rfl
  | asked i scrape viewId members generation =>
    have hidle : (s.moved i scrape .idle).Memoised := h.of_eq rfl rfl
    exact hidle.ask viewId members generation

/-- In every run the answers are what the snapshots serve exactly when the
questions are steady. -/
theorem right_iff_steady {config : Config} (h : Runs.Reach step Runs.Any (boot config) s) :
    Memo.Right s.asked ↔ Memo.Steady s.asked := by
  have hmemoised : s.Memoised :=
    h.invariant ⟨fun _ => Std.ExtTreeMap.getElem?_empty, .nil⟩
      fun _ _ _ hs _ hstep => hs.turn (step_turn hstep)
  exact Memo.right_iff_steady hmemoised.served

/-! ## Settled runs -/

/-- What the snapshots serve of the view that have not read the generation. -/
def unread (s : GaugeState) (viewId : String) : List Nat :=
  s.scrapes.filterMap fun scrape => scrape.phase.unread viewId

/-- What the snapshots serve of the view that have read the generation. -/
def read (s : GaugeState) (viewId : String) (generation : UInt64) : List Nat :=
  (s.scrapes.filterMap fun scrape => scrape.phase.read viewId generation) ++
    s.asked.filterMap fun ask =>
      if ask.key = viewId ∧ ask.generation = generation then some ask.value else none

/-- Those that are of the current generation, or may be of the next. -/
def standing (s : GaugeState) (viewId : String) : List Nat :=
  s.unread viewId ++ s.read viewId s.generation

/-- The counter has not come round to a generation that has been read. -/
def Unused (s : GaugeState) (generation : UInt64) : Prop :=
  (∀ scrape ∈ s.scrapes, scrape.phase.generation ≠ some generation) ∧
    ∀ ask ∈ s.asked, ask.generation ≠ generation

/-- A snapshot that is taken serves as many hosts as every other one of its
view that stands. -/
def Settled (s : GaugeState) : GaugeEvent → Prop
  | .write write => write.guarded = true → s.Unused s.nextGeneration
  | .bump => s.Unused s.nextGeneration
  | .advance i => ∀ scrape ∈ s.scrapes[i]?, ∀ taken ∈ scrape.phase.takes,
      ∀ size ∈ s.standing taken.1, size = hostCount taken.2
  | _ => True

instance (s : GaugeState) (generation : UInt64) : Decidable (s.Unused generation) :=
  inferInstanceAs (Decidable (_ ∧ _))

instance (s : GaugeState) : (event : GaugeEvent) → Decidable (s.Settled event)
  | .write write => inferInstanceAs (Decidable (write.guarded = true → s.Unused s.nextGeneration))
  | .bump => inferInstanceAs (Decidable (s.Unused s.nextGeneration))
  | .advance i => inferInstanceAs (Decidable (∀ scrape ∈ s.scrapes[i]?,
      ∀ taken ∈ scrape.phase.takes, ∀ size ∈ s.standing taken.1, size = hostCount taken.2))
  | .reload _ | .record .. | .scrape | .visit .. => isTrue trivial

def Agree (sizes : List Nat) : Prop := ∀ n ∈ sizes, ∀ m ∈ sizes, n = m

/-- Snapshots of a view that may meet in the memo serve equally many hosts. -/
structure Agreeing (s : GaugeState) : Prop where
  read : ∀ viewId generation, Agree (s.read viewId generation)
  standing : ∀ viewId, Agree (s.standing viewId)

theorem Agree.mono {sizes sizes' : List Nat} (h : Agree sizes) (hsub : sizes' ⊆ sizes) :
    Agree sizes' := fun n hn m hm => h n (hsub hn) m (hsub hm)

theorem Agreeing.mono (h : s.Agreeing)
    (hread : ∀ viewId generation, s'.read viewId generation ⊆ s.read viewId generation)
    (hstanding : ∀ viewId, s'.standing viewId ⊆ s.standing viewId) : s'.Agreeing :=
  ⟨fun viewId generation => (h.read viewId generation).mono (hread viewId generation),
    fun viewId => (h.standing viewId).mono (hstanding viewId)⟩

theorem unread_moved (i : Nat) (scrape : Scrape) (phase : ScrapePhase) (viewId : String) :
    (s.moved i scrape phase).unread viewId ⊆ (phase.unread viewId).toList ++ s.unread viewId :=
  Lists.filterMap_set s.scrapes i { scrape with phase }

theorem read_moved (i : Nat) (scrape : Scrape) (phase : ScrapePhase) (viewId : String)
    (generation : UInt64) : (s.moved i scrape phase).read viewId generation ⊆
      (phase.read viewId generation).toList ++ s.read viewId generation := by
  intro n hn
  rcases List.mem_append.mp hn with hflight | hasked
  · rcases List.mem_append.mp (Lists.filterMap_set s.scrapes i _ hflight) with hnew | hold
    · exact List.mem_append_left _ hnew
    · exact List.mem_append_right _ (List.mem_append_left _ hold)
  · exact List.mem_append_right _ (List.mem_append_right _ hasked)

theorem standing_mono (hgeneration : s'.generation = s.generation)
    (hunread : ∀ viewId, s'.unread viewId ⊆ s.unread viewId)
    (hread : ∀ viewId generation, s'.read viewId generation ⊆ s.read viewId generation)
    (viewId : String) : s'.standing viewId ⊆ s.standing viewId := by
  unfold standing
  rw [hgeneration]
  exact List.append_subset_of_subset_of_subset
    (List.subset_append_of_subset_left _ (hunread viewId))
    (List.subset_append_of_subset_right _ (hread viewId s.generation))

theorem read_of_unused {generation : UInt64} (h : s.Unused generation) (viewId : String) :
    s.read viewId generation = [] := by
  obtain ⟨hscrapes, hasked⟩ := h
  refine List.append_eq_nil_iff.mpr ⟨?_, ?_⟩
  · refine List.filterMap_eq_nil_iff.mpr fun scrape hscrape => ?_
    have hphase := hscrapes scrape hscrape
    cases hp : scrape.phase with
    | keyed id members seen =>
      rw [hp] at hphase
      have hne : seen ≠ generation := fun heq => hphase (congrArg some heq)
      simp [ScrapePhase.read, hne]
    | idle | looking | taken => rfl
  · refine List.filterMap_eq_nil_iff.mpr fun ask hask => ?_
    simp [hasked ask hask]

theorem Agreeing.bumped (h : s.Agreeing) (hunused : s.Unused s.nextGeneration)
    (hasked : s'.asked = s.asked) (hscrapes : s'.scrapes = s.scrapes)
    (hgeneration : s'.generation = s.nextGeneration) : s'.Agreeing := by
  have hread : ∀ viewId generation, s'.read viewId generation = s.read viewId generation := by
    intro viewId generation
    unfold GaugeState.read
    rw [hscrapes, hasked]
  refine h.mono (fun viewId generation _ hn => hread viewId generation ▸ hn) ?_
  intro viewId
  unfold GaugeState.standing GaugeState.unread
  rw [hgeneration, hread, read_of_unused hunused, List.append_nil, hscrapes]
  exact List.subset_append_left _ _

/-- A snapshot taken: what stands of its view has one more. -/
theorem Agreeing.took (h : s.Agreeing) (i : Nat) (scrape : Scrape) (viewId : String)
    (members : List MemberSnapshot)
    (hsettled : ∀ size ∈ s.standing viewId, size = hostCount members) :
    (s.moved i scrape (.taken viewId members)).Agreeing := by
  refine ⟨fun other generation => (h.read other generation).mono (read_moved i scrape _ _ _),
    fun other => ?_⟩
  have hsub : (s.moved i scrape (.taken viewId members)).standing other ⊆
      (if viewId = other then some (hostCount members) else none).toList ++ s.standing other := by
    intro n hn
    rcases List.mem_append.mp hn with hunread | hread
    · rcases List.mem_append.mp (unread_moved i scrape _ other hunread) with hnew | hold
      · exact List.mem_append_left _ hnew
      · exact List.mem_append_right _ (List.mem_append_left _ hold)
    · exact List.mem_append_right _ (List.mem_append_right _ (read_moved i scrape _ _ _ hread))
  refine Agree.mono ?_ hsub
  by_cases hother : viewId = other
  · subst hother
    rw [if_pos rfl]
    have hall : ∀ n ∈ (some (hostCount members)).toList ++ s.standing viewId,
        n = hostCount members := by
      intro n hn
      rcases List.mem_append.mp hn with hnew | hold
      · exact List.mem_singleton.mp hnew
      · exact hsettled n hold
    exact fun n hn m hm => (hall n hn).trans (hall m hm).symm
  · rw [if_neg hother]
    exact h.standing other

/-- The generation is read: the snapshot stands as it did. -/
theorem Agreeing.keyed (h : s.Agreeing) {i : Nat} {scrape : Scrape} {viewId : String}
    {members : List MemberSnapshot} (hscrape : s.scrapes[i]? = some scrape)
    (hphase : scrape.phase = .taken viewId members) :
    (s.moved i scrape (.keyed viewId members s.generation)).Agreeing := by
  have hunread : hostCount members ∈ s.unread viewId := by
    refine List.mem_filterMap.mpr ⟨scrape, List.mem_of_getElem? hscrape, ?_⟩
    rw [hphase]
    exact if_pos rfl
  have hcurrent : ∀ other, (s.moved i scrape (.keyed viewId members s.generation)).read other
      s.generation ⊆ s.standing other := by
    intro other n hn
    rcases List.mem_append.mp (read_moved i scrape _ _ _ hn) with hnew | hold
    · obtain ⟨⟨rfl, _⟩, rfl⟩ := by simpa [ScrapePhase.read] using hnew
      exact List.mem_append_left _ hunread
    · exact List.mem_append_right _ hold
  refine ⟨fun other generation => ?_, fun other => ?_⟩
  · by_cases hgeneration : generation = s.generation
    · rw [hgeneration]
      exact (h.standing other).mono (hcurrent other)
    · refine (h.read other generation).mono fun n hn => ?_
      rcases List.mem_append.mp (read_moved i scrape _ _ _ hn) with hnew | hold
      · simp [ScrapePhase.read, Ne.symm hgeneration] at hnew
      · exact hold
  · refine (h.standing other).mono fun n hn => ?_
    rcases List.mem_append.mp hn with hn | hn
    · exact List.mem_append_left _ (unread_moved i scrape _ _ hn)
    · exact hcurrent other hn

/-- The memo is asked: the snapshot was of its generation before. -/
theorem read_asked {i : Nat} {scrape : Scrape} {viewId : String}
    {members : List MemberSnapshot} {generation : UInt64} (hscrape : s.scrapes[i]? = some scrape)
    (hphase : scrape.phase = .keyed viewId members generation)
    (other : String) (seen : UInt64) :
    ((s.moved i scrape .idle).ask viewId members generation).read other seen ⊆
      s.read other seen := by
  intro n hn
  rcases List.mem_append.mp hn with hflight | hasked
  · exact read_moved i scrape .idle other seen (List.mem_append_left _ hflight)
  · obtain ⟨ask, hmem, hask⟩ := List.mem_filterMap.mp hasked
    rcases List.mem_cons.mp hmem with hnew | hold
    · refine List.mem_append_left _ (List.mem_filterMap.mpr
        ⟨scrape, List.mem_of_getElem? hscrape, ?_⟩)
      rw [hphase, ← hask, hnew]
      rfl
    · exact List.mem_append_right _ (List.mem_filterMap.mpr ⟨ask, hold, hask⟩)

theorem Agreeing.turn {event : GaugeEvent} (h : s.Agreeing) (hsettled : s.Settled event)
    (hturn : s.Turn event s') : s'.Agreeing := by
  -- a phase that neither took a snapshot nor read the generation adds nothing
  have hmono : s'.generation = s.generation →
      (∀ viewId, s'.unread viewId ⊆ s.unread viewId) →
      (∀ viewId generation, s'.read viewId generation ⊆ s.read viewId generation) → s'.Agreeing :=
    fun hgeneration hunread hread => h.mono hread (standing_mono hgeneration hunread hread)
  cases hturn with
  | aside _ hasked hscrapes hgeneration =>
    refine hmono hgeneration (fun viewId => ?_) fun viewId generation => ?_
    · unfold GaugeState.unread
      rw [hscrapes]
      exact fun _ hn => hn
    · unfold GaugeState.read
      rw [hscrapes, hasked]
      exact fun _ hn => hn
  | bumped _ hasked hscrapes hgeneration hevent =>
    refine h.bumped ?_ hasked hscrapes hgeneration
    rcases hevent with rfl | ⟨write, rfl, hguarded⟩
    · exact hsettled
    · exact hsettled hguarded
  | begun =>
    refine hmono rfl (fun viewId => ?_) fun viewId generation => ?_ <;>
      simp [GaugeState.unread, GaugeState.read, ScrapePhase.unread, ScrapePhase.read]
  | ended i =>
    have hsub := fun f : Scrape → Option Nat =>
      ((List.eraseIdx_sublist s.scrapes i).filterMap f).subset
    refine hmono rfl (fun viewId => hsub _) fun viewId generation => ?_
    exact List.append_subset_of_subset_of_subset
      (List.subset_append_of_subset_left _ (hsub _)) (List.subset_append_right _ _)
  | looked i scrape viewId lookup =>
    exact hmono rfl (unread_moved i scrape _) (read_moved i scrape _)
  | took i scrape viewId lookup hscrape hphase hrest =>
    refine h.took i scrape viewId lookup.members ?_
    refine hsettled scrape hscrape (viewId, lookup.members) ?_
    simp [hphase, ScrapePhase.takes, hrest]
  | keyed i scrape viewId members hscrape hphase => exact h.keyed hscrape hphase
  | asked i scrape viewId members generation hscrape hphase =>
    exact hmono rfl (unread_moved i scrape .idle) (read_asked hscrape hphase)

/-- In a settled run any two questions about a view that read one generation
have the same answer. -/
theorem steady_of_settled {config : Config} (h : Runs.Reach step Settled (boot config) s) :
    Memo.Steady s.asked := by
  have hagreeing : s.Agreeing := by
    refine h.invariant ⟨fun _ _ _ hn => absurd hn List.not_mem_nil,
      fun _ _ hn => absurd hn List.not_mem_nil⟩ ?_
    exact fun _ _ _ hs hsettled hstep => hs.turn hsettled (step_turn hstep)
  have hread : ∀ ask ∈ s.asked, ask.value ∈ s.read ask.key ask.generation := fun ask hask =>
    List.mem_append_right _ (List.mem_filterMap.mpr ⟨ask, hask, if_pos ⟨rfl, rfl⟩⟩)
  refine Memo.steady_of_same fun a ha b hb hkey hgeneration => ?_
  have hb' := hread b hb
  rw [← hkey, ← hgeneration] at hb'
  exact hagreeing.read a.key a.generation a.value (hread a ha) b.value hb'

/-! ## Never stale -/

/-- **A view's figure is never stale** exactly where any two questions about
the view, one right after the other, that read one generation took snapshots
that serve equally many hosts; so it is in every settled run. -/
theorem hostsCount_right_iff (config : Config) (s : GaugeState) :
    (Runs.Reach step Runs.Any (boot config) s →
      (Memo.Right s.asked ↔ Memo.Steady s.asked)) ∧
    (Runs.Reach step Settled (boot config) s → Memo.Right s.asked) := by
  refine ⟨right_iff_steady, fun h => ?_⟩
  exact (right_iff_steady (h.mono fun _ _ _ => trivial)).mpr (steady_of_settled h)

/-- A view that owns the one host. -/
def viewOwning (hostname : String) : Config where
  sources := (∅ : StrMap Source).insert "a" { ttlSeconds := 60 }
  views := (∅ : StrMap View).insert "v"
    { members := [{ source := "a", owns := { source := "a", hosts := [hostname] } }] }

/-- The source is synced and has the host `web1`. -/
def synced : List GaugeEvent :=
  [.write (.set "a" (.new { hostvars := (∅ : StrMap HostVars).insert "web1" ∅ } 60 0)), .bump]

/-- A scrape from its start to its end. -/
def scraped : List GaugeEvent :=
  [.scrape, .visit 0 "v"] ++ List.replicate 7 (.advance 0)

/-- Two scrapes and, after the source's entry is removed, a third. -/
theorem rescraped_right : ∃ s : GaugeState,
    s.asked = [⟨"v", 2, 0, 0⟩, ⟨"v", 1, 1, 1⟩, ⟨"v", 1, 1, 1⟩] ∧
      (Memo.Right s.asked ↔ Memo.Steady s.asked) ∧ Memo.Right s.asked := by
  let events := synced ++ scraped ++ scraped ++ [.write (.remove "a"), .bump] ++ scraped
  have hasked : (Runs.exec step (boot (viewOwning "web1")) events).map (·.asked) =
      some [⟨"v", 2, 0, 0⟩, ⟨"v", 1, 1, 1⟩, ⟨"v", 1, 1, 1⟩] := by decide
  have hmeets : Runs.Meets step Settled (boot (viewOwning "web1")) events := by decide
  obtain ⟨s, hexec, hs⟩ := Option.map_eq_some_iff.mp hasked
  have hreach := Runs.Reach.start.of_meets hmeets hexec
  obtain ⟨hiff, hright⟩ := hostsCount_right_iff (viewOwning "web1") s
  exact ⟨s, hs, hiff (hreach.mono fun _ _ _ => trivial), hright hreach⟩

/-- A reload gives the view to a host that the source does not have. No write
tells the memo, and it goes on answering one host. -/
theorem reloaded_stale : ¬ ∀ (config : Config) (s : GaugeState),
    Runs.Reach step Runs.Any (boot config) s → Memo.Right s.asked := by
  intro h
  have hasked : (Runs.exec step (boot (viewOwning "web1"))
      (synced ++ scraped ++ .reload (viewOwning "web2") :: scraped)).map (·.asked) =
      some [⟨"v", 1, 0, 1⟩, ⟨"v", 1, 1, 1⟩] := by decide
  obtain ⟨s, hexec, hs⟩ := Option.map_eq_some_iff.mp hasked
  have hright := h _ s (Runs.Reach.start.of_exec hexec)
  rw [hs] at hright
  exact absurd (hright _ List.mem_cons_self) (by decide)

end GaugeState

end UnifiedApi
