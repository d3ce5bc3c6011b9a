import Mathlib.Logic.Relation
import Mathlib.Data.List.Basic

/-! # Programs that share a state

A program makes atomic steps on a state that others change between any two of
them, and waits for answers from outside. What it does is judged against a
guarantee: a relation between the state before and after each of its steps,
that may speak of every state since the program was started. -/

namespace Interleaving

/-- A program on states `σ` that returns an `α`. -/
inductive Prog (σ : Type) (α : Type) : Type 1 where
  | pure (a : α)
  /-- It ends without an answer. -/
  | fail
  | atomic {β : Type} (f : σ → σ × β) (k : β → Prog σ α)
  | await {β : Type} (k : β → Prog σ α)

namespace Prog

variable {σ α β γ : Type}

def bind : Prog σ α → (α → Prog σ β) → Prog σ β
  | .pure a, next => next a
  | .fail, _ => .fail
  | .atomic f k, next => .atomic f fun b => (k b).bind next
  | .await k, next => .await fun b => (k b).bind next

instance : Monad (Prog σ) where
  pure := .pure
  bind := .bind

def read (f : σ → α) : Prog σ α := .atomic (fun s => (s, f s)) .pure

def modify (f : σ → σ) : Prog σ Unit := .atomic (fun s => (f s, ())) .pure

/-- Whatever is answered. -/
def ask (α : Type) : Prog σ α := .await fun a => .pure a

def each (items : List α) (body : α → Prog σ Unit) : Prog σ Unit :=
  match items with
  | [] => .pure ()
  | item :: rest => (body item).bind fun _ => each rest body

def when (condition : Bool) (p : Prog σ Unit) : Prog σ Unit := if condition then p else .pure ()

/-- Given up at any wait, `none` then. -/
def within : Prog σ α → Prog σ (Option α)
  | .pure a => .pure (some a)
  | .fail => .fail
  | .atomic f k => .atomic f fun b => (k b).within
  | .await k => .await fun elapsed : Bool =>
    if elapsed then .pure none else .await fun b => (k b).within

/-! ## Guarantees -/

/-- In states that all meet `live`, every step the program comes to is in `G`
and every answer it comes to meets `Q`, which is told whether the program has
changed anything. -/
def Guarantees (live : σ → Prop) (G : σ → σ → Prop) (Q : Prop → α → Prop) :
    Prop → Prog σ α → Prop
  | changed, .pure a => Q changed a
  | _, .fail => True
  | changed, .atomic f k => ∀ s, live s → G s (f s).1 ∧
      (k (f s).2).Guarantees live G Q (changed ∨ (f s).1 ≠ s)
  | changed, .await k => ∀ b, (k b).Guarantees live G Q changed

section
variable {live : σ → Prop} {G : σ → σ → Prop} {P : Prop → α → Prop} {Q : Prop → β → Prop}
  {changed : Prop}

theorem Guarantees.bind {p : Prog σ α} {next : α → Prog σ β}
    (hp : p.Guarantees live G P changed)
    (hnext : ∀ changed a, P changed a → (next a).Guarantees live G Q changed) :
    (p >>= next).Guarantees live G Q changed := by
  induction p generalizing changed with
  | pure a => exact hnext changed a hp
  | fail => trivial
  | atomic f k ih => exact fun s hs => ⟨(hp s hs).1, ih _ (hp s hs).2⟩
  | await k ih => exact fun b => ih b (hp b)

theorem Guarantees.pure {a : α} (h : P changed a) :
    (Pure.pure a : Prog σ α).Guarantees live G P changed := h

theorem Guarantees.fail : (Prog.fail : Prog σ α).Guarantees live G P changed := trivial

/-- What is read is what some state has; nothing is changed by it. -/
theorem Guarantees.read {f : σ → α} {next : α → Prog σ β} (hG : ∀ s, G s s)
    (h : ∀ s, live s → (next (f s)).Guarantees live G Q changed) :
    (Prog.read f >>= next).Guarantees live G Q changed := by
  intro s hs
  have hsame : (changed ∨ s ≠ s) = changed := by simp
  refine ⟨hG s, ?_⟩
  rw [hsame]
  exact h s hs

theorem Guarantees.modify {f : σ → σ} {next : Unit → Prog σ β} (hG : ∀ s, live s → G s (f s))
    (h : ∀ changed, (next ()).Guarantees live G Q changed) :
    (Prog.modify f >>= next).Guarantees live G Q changed :=
  fun s hs => ⟨hG s hs, h _⟩

theorem Guarantees.ask {next : α → Prog σ β} (h : ∀ a, (next a).Guarantees live G Q changed) :
    (Prog.ask α >>= next).Guarantees live G Q changed :=
  h

theorem Guarantees.mono {P' : Prop → α → Prop} {p : Prog σ α} (hp : p.Guarantees live G P changed)
    (himp : ∀ changed a, P changed a → P' changed a) : p.Guarantees live G P' changed := by
  induction p generalizing changed with
  | pure a => exact himp changed a hp
  | fail => trivial
  | atomic f k ih => exact fun s hs => ⟨(hp s hs).1, ih _ (hp s hs).2⟩
  | await k ih => exact fun b => ih b (hp b)

theorem Guarantees.each {items : List α} {body : α → Prog σ Unit} {Inv : Prop → Prop}
    (hstart : Inv changed)
    (hbody : ∀ item ∈ items, ∀ changed, Inv changed →
      (body item).Guarantees live G (fun changed _ => Inv changed) changed) :
    (Prog.each items body).Guarantees live G (fun changed _ => Inv changed) changed := by
  induction items generalizing changed with
  | nil => exact hstart
  | cons item rest ih =>
    refine (hbody item List.mem_cons_self changed hstart).bind fun changed _ hinv => ?_
    exact ih hinv fun other hother => hbody other (List.mem_cons_of_mem _ hother)

theorem Guarantees.when {condition : Bool} {p : Prog σ Unit} {P : Prop → Unit → Prop}
    (hp : condition = true → p.Guarantees live G P changed) (hpure : P changed ()) :
    (Prog.when condition p).Guarantees live G P changed := by
  unfold Prog.when
  split
  · exact hp ‹_›
  · exact hpure

theorem Guarantees.within {p : Prog σ α} (hp : p.Guarantees live G P changed)
    {P' : Prop → Option α → Prop} (hsome : ∀ changed a, P changed a → P' changed (some a))
    (hnone : ∀ changed, P' changed none) : p.within.Guarantees live G P' changed := by
  induction p generalizing changed with
  | pure a => exact hsome changed a hp
  | fail => trivial
  | atomic f k ih => exact fun s hs => ⟨(hp s hs).1, ih _ (hp s hs).2⟩
  | await k ih =>
    intro elapsed
    cases elapsed with
    | true => exact hnone changed
    | false => exact fun b => ih b (hp b)

end

/-- One step, in the state as it is now. -/
inductive Step : Prog σ α → σ → Prog σ α → σ → Prop
  | atomic {β : Type} (f : σ → σ × β) (k : β → Prog σ α) (s : σ) :
      Step (.atomic f k) s (k (f s).2) (f s).1
  | await {β : Type} (k : β → Prog σ α) (b : β) (s : σ) : Step (.await k) s (k b) s

/-- Any number of its steps, while nothing else happens. -/
inductive Steps : Prog σ α → σ → Prog σ α → σ → Prop
  | refl (p : Prog σ α) (s : σ) : Steps p s p s
  | head {p q r : Prog σ α} {s s' s'' : σ} (hstep : p.Step s q s') (hrest : Steps q s' r s'') :
      Steps p s r s''

section
variable {p q r : Prog σ α} {s s' s'' : σ}

theorem Steps.trans (h : p.Steps s q s') (h' : q.Steps s' r s'') : p.Steps s r s'' := by
  induction h with
  | refl => exact h'
  | head hstep _ ih => exact .head hstep (ih h')

theorem Step.bind (h : p.Step s q s') (next : α → Prog σ β) :
    Prog.Step (p >>= next) s (q >>= next) s' := by
  cases h with
  | atomic f k => exact .atomic f (fun b => (k b).bind next) s
  | await k b => exact .await (fun b => (k b).bind next) b s

theorem Steps.bind (h : p.Steps s q s') (next : α → Prog σ β) :
    Prog.Steps (p >>= next) s (q >>= next) s' := by
  induction h with
  | refl p s => exact .refl _ s
  | head hstep _ ih => exact .head (hstep.bind next) ih

theorem Steps.andThen {next : α → Prog σ β} {r : Prog σ β} {a : α} (h : p.Steps s (.pure a) s')
    (h' : (next a).Steps s' r s'') : Prog.Steps (p >>= next) s r s'' :=
  (h.bind next).trans h'

theorem Steps.read {f : σ → β} {next : β → Prog σ α} (h : (next (f s)).Steps s q s') :
    (Prog.read f >>= next).Steps s q s' :=
  .head (.atomic _ _ s) h

theorem Steps.modify {f : σ → σ} {next : Unit → Prog σ α} (h : (next ()).Steps (f s) q s') :
    (Prog.modify f >>= next).Steps s q s' :=
  .head (.atomic _ _ s) h

theorem Steps.ask {next : β → Prog σ α} (b : β) (h : (next b).Steps s q s') :
    (Prog.ask β >>= next).Steps s q s' :=
  .head (.await _ b s) h

theorem Steps.each {items : List β} {body : β → Prog σ Unit}
    (h : ∀ item ∈ items, (body item).Steps s (.pure ()) s) :
    (Prog.each items body).Steps s (.pure ()) s := by
  induction items with
  | nil => exact .refl _ s
  | cons item rest ih =>
    exact .andThen (h item List.mem_cons_self) (ih fun other hother =>
      h other (List.mem_cons_of_mem _ hother))

/-- It comes to a state, wherever it is in its course then. -/
def Comes (p : Prog σ α) (s s' : σ) : Prop := ∃ q, p.Steps s q s'

theorem Comes.read {f : σ → β} {next : β → Prog σ α} (h : (next (f s)).Comes s s') :
    (Prog.read f >>= next).Comes s s' :=
  h.imp fun _ => .read

theorem Comes.atomic {f : σ → σ × β} {next : β → Prog σ α}
    (h : (next (f s).2).Comes (f s).1 s') : (Prog.atomic f .pure >>= next).Comes s s' :=
  h.imp fun _ => .head (.atomic _ _ s)

theorem Comes.ask {next : β → Prog σ α} (b : β) (h : (next b).Comes s s') :
    (Prog.ask β >>= next).Comes s s' :=
  h.imp fun _ => .ask b

theorem Comes.bind (h : p.Comes s s') (next : α → Prog σ β) : Prog.Comes (p >>= next) s s' :=
  h.elim fun q hq => ⟨q >>= next, hq.bind next⟩

theorem Comes.after {next : α → Prog σ β} {a : α} (h : p.Steps s (.pure a) s')
    (h' : (next a).Comes s' s'') : Prog.Comes (p >>= next) s s'' :=
  h'.imp fun _ => h.andThen

/-- In time at every wait. -/
theorem Steps.within (h : p.Steps s q s') : p.within.Steps s q.within s' := by
  induction h with
  | refl p s => exact .refl _ s
  | @head p q r s s' s'' hstep _ ih =>
    cases hstep with
    | atomic f k => exact .head (.atomic f (fun b => (k b).within) s) ih
    | await k b =>
      refine .head (.await _ false s) (.head ?_ ih)
      exact .await (fun b => (k b).within) b s

theorem Comes.within (h : p.Comes s s') : p.within.Comes s s' :=
  h.elim fun q hq => ⟨q.within, hq.within⟩

end

end Prog

/-! ## Many of them at once -/

variable {σ ρ α : Type}

/-- A program under way. `lived` and `made` are history: the states since it was
started, and its own steps. -/
structure Thread (σ ρ α : Type) where
  request : ρ
  prog : Prog σ α
  lived : List σ
  made : List (σ × σ) := []

namespace Thread

def Changed (thread : Thread σ ρ α) : Prop := ∃ step ∈ thread.made, step.2 ≠ step.1

def see (thread : Thread σ ρ α) (s : σ) : Thread σ ρ α :=
  { thread with lived := thread.lived ++ [s] }

def make (thread : Thread σ ρ α) (prog : Prog σ α) (s s' : σ) : Thread σ ρ α :=
  { thread with prog, made := thread.made ++ [(s, s')] }

theorem changed_make (thread : Thread σ ρ α) (prog : Prog σ α) (s s' : σ) :
    ((thread.make prog s s').see s').Changed = (thread.Changed ∨ s' ≠ s) := by
  simp only [Changed, make, see, List.mem_append, List.mem_singleton, or_and_right, exists_or,
    exists_eq_left]

end Thread

structure Pool (σ ρ α : Type) where
  shared : σ
  threads : List (Thread σ ρ α) := []

namespace Pool

/-- Everyone sees the new state. -/
def enter (pool : Pool σ ρ α) (s : σ) : Pool σ ρ α := ⟨s, pool.threads.map (·.see s)⟩

def put (pool : Pool σ ρ α) (i : Nat) (thread : Thread σ ρ α) : Pool σ ρ α :=
  { pool with threads := pool.threads.set i thread }

variable (program : ρ → Prog σ α)

inductive Step : Pool σ ρ α → Pool σ ρ α → Prop
  | arrive (pool : Pool σ ρ α) (request : ρ) :
      Step pool ⟨pool.shared, pool.threads ++ [⟨request, program request, [pool.shared], []⟩]⟩
  | move {pool : Pool σ ρ α} {i : Nat} {thread : Thread σ ρ α} {prog : Prog σ α} {s : σ}
      (hthread : pool.threads[i]? = some thread) (h : thread.prog.Step pool.shared prog s) :
      Step pool ((pool.put i (thread.make prog pool.shared s)).enter s)
  /-- Whoever else changes the state. -/
  | others (pool : Pool σ ρ α) (s : σ) : Step pool (pool.enter s)
  /-- Whoever waited for the answer is gone. -/
  | drop (pool : Pool σ ρ α) (i : Nat) : Step pool ⟨pool.shared, pool.threads.eraseIdx i⟩

/-- Reached from a state with nothing under way. -/
abbrev Reach (start : σ) (pool : Pool σ ρ α) : Prop :=
  Relation.ReflTransGen (Step program) { shared := start } pool

variable {program}

variable {start s : σ} {pool : Pool σ ρ α}

/-- What a program does by itself, it can do beside others. They see it, and do
nothing meanwhile. -/
theorem Reach.move (h : Reach program start pool) {i : Nat} {thread : Thread σ ρ α}
    (hthread : pool.threads[i]? = some thread) {prog : Prog σ α}
    (hsteps : thread.prog.Steps pool.shared prog s) :
    ∃ pool', Reach program start pool' ∧ pool'.shared = s ∧
      (∃ thread', pool'.threads[i]? = some thread' ∧ thread'.request = thread.request ∧
        thread'.prog = prog ∧ (thread.Changed ∨ s ≠ pool.shared → thread'.Changed)) ∧
      ∀ j ≠ i, ∀ other, pool.threads[j]? = some other → ∃ other', pool'.threads[j]? = some other' ∧
        other'.request = other.request ∧ other'.prog = other.prog ∧ other'.made = other.made := by
  obtain ⟨shared, threads⟩ := pool
  dsimp only at hthread hsteps ⊢
  generalize hrunning : thread.prog = running at hsteps
  induction hsteps generalizing threads thread with
  | refl =>
    exact ⟨_, h, rfl, ⟨thread, hthread, rfl, hrunning, fun hchanged => hchanged.resolve_right
      fun hne => hne rfl⟩, fun j _ other hother => ⟨other, hother, rfl, rfl, rfl⟩⟩
  | @head p q r shared mid last hstep _ ih =>
    subst hrunning
    have hmove := h.tail (Step.move hthread hstep)
    have hat : (((⟨shared, threads⟩ : Pool σ ρ α).put i (thread.make q shared mid)).enter
        mid).threads[i]? = some ((thread.make q shared mid).see mid) := by
      obtain ⟨hlt, _⟩ := List.getElem?_eq_some_iff.mp hthread
      simp [enter, put, hlt]
    obtain ⟨pool', hreach, hshared, ⟨thread', hthread', hrequest, hprog, hchanged⟩, hothers⟩ :=
      ih _ hmove hat rfl
    refine ⟨pool', hreach, hshared, ⟨thread', hthread', hrequest, hprog, fun h => hchanged ?_⟩,
      fun j hj other hother => hothers j hj (other.see mid)
        (by simp [put, List.getElem?_set_ne hj.symm, hother])⟩
    rw [Thread.changed_make]
    by_cases hmid : mid = shared
    · subst hmid
      exact h.imp_left .inl
    · exact .inl (.inr hmid)

end Pool

/-- A guarantee for each request. It allows a step that changes nothing, and to
whoever has seen more states it allows more. -/
structure Guarantee (σ ρ : Type) where
  allows : ρ → (σ → Prop) → σ → σ → Prop
  refl : ∀ request live s, allows request live s s
  mono : ∀ request {live live' : σ → Prop} {s s' : σ}, (∀ s, live s → live' s) →
    allows request live s s' → allows request live' s s'

namespace Guarantee

variable (G : Guarantee σ ρ) (Q : ρ → Prop → α → Prop)

/-- What holds of a thread: its steps so far, and those to come in whatever
states it lives to see. -/
structure Kept (s : σ) (thread : Thread σ ρ α) : Prop where
  lives : s ∈ thread.lived
  made : ∀ step ∈ thread.made, G.allows thread.request (· ∈ thread.lived) step.1 step.2
  rest : ∀ live : σ → Prop, (∀ s ∈ thread.lived, live s) →
    thread.prog.Guarantees live (G.allows thread.request live) (Q thread.request) thread.Changed

variable {G Q} {s s' : σ} {thread : Thread σ ρ α}

theorem Kept.see (h : G.Kept Q s thread) : G.Kept Q s' (thread.see s') where
  lives := List.mem_append_right _ (List.mem_singleton_self s')
  made := fun step hstep =>
    G.mono thread.request (fun _ hs => List.mem_append_left _ hs) (h.made step hstep)
  rest := fun live hlive => h.rest live fun s hs => hlive s (List.mem_append_left _ hs)

/-- A step of the thread's own is allowed, and what is left is as before. -/
theorem Kept.step (h : G.Kept Q s thread) {prog : Prog σ α} (hstep : thread.prog.Step s prog s')
    {live : σ → Prop} (hlive : ∀ s ∈ thread.lived, live s) :
    G.allows thread.request live s s' ∧ prog.Guarantees live (G.allows thread.request live)
      (Q thread.request) (thread.Changed ∨ s' ≠ s) := by
  have hrest := h.rest live hlive
  generalize thread.prog = running at hstep hrest
  cases hstep with
  | atomic f k => exact hrest s (hlive s h.lives)
  | await k b =>
    have hsame : (thread.Changed ∨ s ≠ s) = thread.Changed := by simp
    refine ⟨G.refl thread.request live s, ?_⟩
    rw [hsame]
    exact hrest b

theorem Kept.move (h : G.Kept Q s thread) {prog : Prog σ α} (hstep : thread.prog.Step s prog s') :
    G.Kept Q s' ((thread.make prog s s').see s') where
  lives := List.mem_append_right _ (List.mem_singleton_self s')
  made := by
    intro step hmade
    have hsofar : G.allows thread.request (· ∈ thread.lived) step.1 step.2 := by
      rcases List.mem_append.mp hmade with hold | hnew
      · exact h.made step hold
      · obtain rfl := List.mem_singleton.mp hnew
        exact (h.step hstep fun _ hs => hs).1
    exact G.mono thread.request (fun _ hs => List.mem_append_left _ hs) hsofar
  rest := by
    intro live hlive
    rw [Thread.changed_make]
    exact (h.step hstep fun s hs => hlive s (List.mem_append_left _ hs)).2

variable {program : ρ → Prog σ α}

/-- **What each program guarantees holds of all its steps, in every
interleaving of any number of them with whatever else changes the state**; and
an answer that is given meets what it guarantees of its answers. -/
theorem kept_of_reach (G : Guarantee σ ρ) {Q : ρ → Prop → α → Prop}
    (hprogram : ∀ request live, (program request).Guarantees live (G.allows request live)
      (Q request) False)
    {start : σ} {pool : Pool σ ρ α} (h : Pool.Reach program start pool) :
    ∀ thread ∈ pool.threads, G.Kept Q pool.shared thread := by
  induction h with
  | refl => exact fun _ hthread => nomatch hthread
  | @tail pool next _ hstep ih =>
    cases hstep with
    | arrive request =>
      intro thread hthread
      rcases List.mem_append.mp hthread with hold | hnew
      · exact ih thread hold
      · obtain rfl := List.mem_singleton.mp hnew
        refine ⟨List.mem_singleton_self _, (fun _ hmade => nomatch hmade), fun live _ => ?_⟩
        have hnothing : Thread.Changed (⟨request, program request, [pool.shared], []⟩ :
            Thread σ ρ α) = False := by simp [Thread.Changed]
        exact hnothing ▸ hprogram request live
    | @move i thread prog s hget hmove =>
      intro other hother
      obtain ⟨before, hbefore, rfl⟩ := List.mem_map.mp hother
      rcases List.mem_or_eq_of_mem_set hbefore with hold | rfl
      · exact (ih before hold).see
      · exact (ih thread (List.mem_of_getElem? hget)).move hmove
    | others s =>
      intro other hother
      obtain ⟨before, hbefore, rfl⟩ := List.mem_map.mp hother
      exact (ih before hbefore).see
    | drop i => exact fun thread hthread => ih thread (List.mem_of_mem_eraseIdx hthread)

end Guarantee

end Interleaving
