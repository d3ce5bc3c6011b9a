import UnifiedApi.Lib.Runs

/-! # A child process over bounded pipes

A program reads its input and writes to two outputs. Alone it has the input
whole and outputs without bound. As a child it has pipes that hold so much and
no more: one task of the parent feeds its input, two drain its outputs and all
take turns in any order. No order blocks them all, and none changes what comes
out. -/

namespace ChildIo
open Runs

variable {α σ : Type}

inductive Want (α : Type) where
  | read
  | write (toErr : Bool) (a : α)
  | closeInput
  /-- `none` is an end by a signal. -/
  | exit (code : Option Int)

/-- A program by what it does next; at the end of its input it reads `none`. -/
structure Program (α σ : Type) where
  start : σ
  wants : σ → Want α
  onRead : σ → Option α → σ
  onDone : σ → σ

/-- What a process leaves. -/
structure Output (α : Type) where
  code : Option Int
  out : List α
  err : List α

/-! ## The program alone -/

structure Alone (α σ : Type) where
  point : σ
  input : List α
  out : List α := []
  err : List α := []
  exited : Option (Option Int) := none

namespace Alone

def begin (p : Program α σ) (input : List α) : Alone α σ := { point := p.start, input }

def next (p : Program α σ) (a : Alone α σ) : Alone α σ :=
  match a.exited with
  | some _ => a
  | none => match p.wants a.point with
    | .read => { a with point := p.onRead a.point a.input.head?, input := a.input.tail }
    | .write false b => { a with point := p.onDone a.point, out := a.out ++ [b] }
    | .write true b => { a with point := p.onDone a.point, err := a.err ++ [b] }
    | .closeInput => { a with point := p.onDone a.point, input := [] }
    | .exit code => { a with exited := some code, input := [] }

def output (a : Alone α σ) : Option (Output α) := a.exited.map (⟨·, a.out, a.err⟩)

theorem exited_of_output {a : Alone α σ} {output : Output α} (h : a.output = some output) :
    a.exited.isSome := by
  obtain ⟨code, hcode, _⟩ := Option.map_eq_some_iff.mp h
  rw [hcode]
  rfl

theorem next_of_exited {p : Program α σ} {a : Alone α σ} (h : a.exited.isSome) : next p a = a := by
  obtain ⟨code, hcode⟩ := Option.isSome_iff_exists.mp h
  rw [next, hcode]

theorem iterate_of_exited {p : Program α σ} {a : Alone α σ} (h : a.exited.isSome) (n : Nat) :
    (next p)^[n] a = a := Function.iterate_fixed (next_of_exited h) n

/-- Where it ends, there is one end. -/
theorem iterate_eq {p : Program α σ} {a : Alone α σ} {m n : Nat}
    (hm : ((next p)^[m] a).exited.isSome) (hn : ((next p)^[n] a).exited.isSome) :
    (next p)^[m] a = (next p)^[n] a := by
  calc (next p)^[m] a = (next p)^[n] ((next p)^[m] a) := (iterate_of_exited hm n).symm
    _ = (next p)^[m] ((next p)^[n] a) := by
      rw [← Function.iterate_add_apply, ← Function.iterate_add_apply, Nat.add_comm]
    _ = (next p)^[n] a := iterate_of_exited hn m

end Alone

/-! ## The program as a child -/

/-- How the task that feeds the input ended. -/
inductive Fed where
  | whole
  | brokenPipe
  deriving DecidableEq

structure State (α σ : Type) where
  point : σ
  exited : Option (Option Int) := none
  /-- The child's end of its input is open. -/
  reading : Bool := true
  /-- What has yet to be fed, and how that ended. -/
  pending : List α
  fed : Option Fed := none
  stdin : List α := []
  stdout : List α := []
  stderr : List α := []
  drainedOut : List α := []
  drainedErr : List α := []

inductive Label where
  | child
  | feed
  | drainOut
  | drainErr

def begin (p : Program α σ) (input : List α) : State α σ := { point := p.start, pending := input }

/-- Whoever would have to wait does not step. -/
def stepChild (p : Program α σ) (capacity : Nat) (s : State α σ) : Option (State α σ) :=
  match s.exited with
  | some _ => none
  | none => match p.wants s.point with
    | .read => match s.reading, s.stdin with
      | true, a :: rest => some { s with point := p.onRead s.point (some a), stdin := rest }
      | true, [] => if s.fed.isSome then some { s with point := p.onRead s.point none } else none
      | false, _ => some { s with point := p.onRead s.point none }
    | .write false a =>
      if s.stdout.length < capacity then
        some { s with point := p.onDone s.point, stdout := s.stdout ++ [a] }
      else none
    | .write true a =>
      if s.stderr.length < capacity then
        some { s with point := p.onDone s.point, stderr := s.stderr ++ [a] }
      else none
    | .closeInput => some { s with point := p.onDone s.point, reading := false, stdin := [] }
    | .exit code => some { s with exited := some code, reading := false, stdin := [] }

def stepFeed (capacity : Nat) (s : State α σ) : Option (State α σ) :=
  match s.fed, s.pending with
  | some _, _ => none
  -- all is written and the pipe is closed
  | none, [] => some { s with fed := some .whole }
  | none, a :: rest =>
    if s.reading then
      if s.stdin.length < capacity then some { s with pending := rest, stdin := s.stdin ++ [a] }
      else none
    else some { s with fed := some .brokenPipe }

def stepDrainOut (s : State α σ) : Option (State α σ) :=
  match s.stdout with
  | [] => none
  | a :: rest => some { s with stdout := rest, drainedOut := s.drainedOut ++ [a] }

def stepDrainErr (s : State α σ) : Option (State α σ) :=
  match s.stderr with
  | [] => none
  | a :: rest => some { s with stderr := rest, drainedErr := s.drainedErr ++ [a] }

def step (p : Program α σ) (capacity : Nat) (s : State α σ) : Label → Option (State α σ)
  | .child => stepChild p capacity s
  | .feed => stepFeed capacity s
  | .drainOut => stepDrainOut s
  | .drainErr => stepDrainErr s

/-- What is left when all is over: the child has exited, its outputs are drained
and the feeding has ended. -/
def ended (s : State α σ) : Option (Output α × Fed) :=
  match s.exited, s.fed, s.stdout, s.stderr with
  | some code, some fed, [], [] => some (⟨code, s.drainedOut, s.drainedErr⟩, fed)
  | _, _, _, _ => none

/-! ## What is on its way counts as read and written -/

/-- The program alone, as far as the child is. -/
def toAlone (s : State α σ) : Alone α σ where
  point := s.point
  input := if s.reading then s.stdin ++ s.pending else []
  out := s.drainedOut ++ s.stdout
  err := s.drainedErr ++ s.stderr
  exited := s.exited

structure Inv (s : State α σ) : Prop where
  /-- The pipe is closed when all is written, or when no one reads. -/
  closed : s.fed.isSome → s.reading → s.pending = []
  exited : s.exited.isSome → s.reading = false
  unread : s.reading = false → s.stdin = []

theorem inv_begin (p : Program α σ) (input : List α) : Inv (begin p input) where
  closed h := by cases h
  exited h := by cases h
  unread h := by cases h

theorem toAlone_begin (p : Program α σ) (input : List α) :
    toAlone (begin p input) = Alone.begin p input := rfl

variable {p : Program α σ} {capacity : Nat}

/-- What a step comes to for the program alone. -/
def advanced (p : Program α σ) : Label → Alone α σ → Alone α σ
  | .child => Alone.next p
  | _ => id

theorem stepChild_refines {s s' : State α σ} (h : Inv s)
    (hstep : stepChild p capacity s = some s') :
    Inv s' ∧ toAlone s' = Alone.next p (toAlone s) := by
  unfold stepChild at hstep
  split at hstep
  · cases hstep
  rename_i hrunning
  split at hstep
  case h_1 hwants =>
    split at hstep
    case h_1 hreading hstdin =>
      obtain rfl := Option.some.inj hstep
      refine ⟨⟨h.closed, h.exited, fun hnot => ?_⟩, ?_⟩
      · rw [hreading] at hnot
        cases hnot
      · simp [toAlone, Alone.next, hrunning, hwants, hreading, hstdin]
    case h_2 hreading hstdin =>
      split at hstep
      · rename_i hfed
        obtain rfl := Option.some.inj hstep
        refine ⟨⟨h.closed, h.exited, h.unread⟩, ?_⟩
        simp [toAlone, Alone.next, hrunning, hwants, hreading, hstdin, h.closed hfed hreading]
      · cases hstep
    case h_3 hreading =>
      obtain rfl := Option.some.inj hstep
      refine ⟨⟨h.closed, h.exited, h.unread⟩, ?_⟩
      simp [toAlone, Alone.next, hrunning, hwants, hreading]
  case h_2 a hwants =>
    split at hstep
    · obtain rfl := Option.some.inj hstep
      refine ⟨⟨h.closed, h.exited, h.unread⟩, ?_⟩
      simp [toAlone, Alone.next, hrunning, hwants]
    · cases hstep
  case h_3 a hwants =>
    split at hstep
    · obtain rfl := Option.some.inj hstep
      refine ⟨⟨h.closed, h.exited, h.unread⟩, ?_⟩
      simp [toAlone, Alone.next, hrunning, hwants]
    · cases hstep
  case h_4 hwants =>
    obtain rfl := Option.some.inj hstep
    refine ⟨⟨fun _ hnot => (by cases hnot), fun _ => rfl, fun _ => rfl⟩, ?_⟩
    simp [toAlone, Alone.next, hrunning, hwants]
  case h_5 code hwants =>
    obtain rfl := Option.some.inj hstep
    refine ⟨⟨fun _ hnot => (by cases hnot), fun _ => rfl, fun _ => rfl⟩, ?_⟩
    simp [toAlone, Alone.next, hrunning, hwants]

theorem stepFeed_refines {s s' : State α σ} (h : Inv s) (hstep : stepFeed capacity s = some s') :
    Inv s' ∧ toAlone s' = toAlone s := by
  unfold stepFeed at hstep
  split at hstep
  · cases hstep
  · rename_i hpending
    obtain rfl := Option.some.inj hstep
    exact ⟨⟨fun _ _ => hpending, h.exited, h.unread⟩, rfl⟩
  · rename_i hfed hpending
    split at hstep
    · rename_i hreading
      split at hstep
      · obtain rfl := Option.some.inj hstep
        refine ⟨⟨fun hsome => ?_, h.exited, fun hnot => ?_⟩, ?_⟩
        · rw [hfed] at hsome
          cases hsome
        · rw [hreading] at hnot
          cases hnot
        · simp [toAlone, hreading, hpending]
      · cases hstep
    · rename_i hreading
      obtain rfl := Option.some.inj hstep
      exact ⟨⟨fun _ hread => absurd hread hreading, h.exited, h.unread⟩, rfl⟩

theorem stepDrainOut_refines {s s' : State α σ} (h : Inv s) (hstep : stepDrainOut s = some s') :
    Inv s' ∧ toAlone s' = toAlone s := by
  unfold stepDrainOut at hstep
  split at hstep
  · cases hstep
  · rename_i hstdout
    obtain rfl := Option.some.inj hstep
    exact ⟨⟨h.closed, h.exited, h.unread⟩, by simp [toAlone, hstdout]⟩

theorem stepDrainErr_refines {s s' : State α σ} (h : Inv s) (hstep : stepDrainErr s = some s') :
    Inv s' ∧ toAlone s' = toAlone s := by
  unfold stepDrainErr at hstep
  split at hstep
  · cases hstep
  · rename_i hstderr
    obtain rfl := Option.some.inj hstep
    exact ⟨⟨h.closed, h.exited, h.unread⟩, by simp [toAlone, hstderr]⟩

/-- Only the child's own steps show. -/
theorem step_refines {s s' : State α σ} {label : Label} (h : Inv s)
    (hstep : step p capacity s label = some s') :
    Inv s' ∧ toAlone s' = advanced p label (toAlone s) := by
  cases label with
  | child => exact stepChild_refines h hstep
  | feed => exact stepFeed_refines h hstep
  | drainOut => exact stepDrainOut_refines h hstep
  | drainErr => exact stepDrainErr_refines h hstep

/-! ## No order blocks them all -/

/-- Whoever is stuck with empty outputs waits for input, which is not closed. -/
theorem waits_for_input (hcapacity : 0 < capacity) {s : State α σ} (hout : s.stdout = [])
    (herr : s.stderr = []) (hrunning : s.exited = none) (hstuck : stepChild p capacity s = none) :
    s.reading = true ∧ s.stdin = [] ∧ s.fed = none := by
  unfold stepChild at hstuck
  rw [hrunning] at hstuck
  dsimp only at hstuck
  split at hstuck
  · split at hstuck
    · cases hstuck
    · rename_i hreading hstdin
      split at hstuck
      · cases hstuck
      · rename_i hfed
        exact ⟨hreading, hstdin, Option.not_isSome_iff_eq_none.mp hfed⟩
    · cases hstuck
  · rw [hout, List.length_nil, if_pos hcapacity] at hstuck
    cases hstuck
  · rw [herr, List.length_nil, if_pos hcapacity] at hstuck
    cases hstuck
  · cases hstuck
  · cases hstuck

theorem feeds (hcapacity : 0 < capacity) {s : State α σ} (hfed : s.fed = none)
    (hempty : s.reading = true → s.stdin = []) : ∃ s', stepFeed capacity s = some s' := by
  unfold stepFeed
  rw [hfed]
  cases s.pending with
  | nil => exact ⟨_, rfl⟩
  | cons a rest =>
    cases hreading : s.reading with
    | false => exact ⟨_, rfl⟩
    | true =>
      rw [hempty hreading]
      exact ⟨_, if_pos hcapacity⟩

/-- Someone can step until all is over: a full output can be drained, and an
empty input is fed or closed. -/
theorem progress (hcapacity : 0 < capacity) {s : State α σ} (h : Inv s)
    (hunfinished : ended s = none) :
    ∃ label s', step p capacity s label = some s' := by
  by_cases hout : s.stdout = []
  swap
  · obtain ⟨a, rest, hcons⟩ := List.exists_cons_of_ne_nil hout
    exact ⟨.drainOut, _, by rw [step, stepDrainOut, hcons]⟩
  by_cases herr : s.stderr = []
  swap
  · obtain ⟨a, rest, hcons⟩ := List.exists_cons_of_ne_nil herr
    exact ⟨.drainErr, _, by rw [step, stepDrainErr, hcons]⟩
  cases hrunning : s.exited with
  | none =>
    cases hchild : stepChild p capacity s with
    | some s' => exact ⟨.child, s', hchild⟩
    | none =>
      obtain ⟨_, hstdin, hfed⟩ := waits_for_input hcapacity hout herr hrunning hchild
      obtain ⟨s', hs'⟩ := feeds hcapacity hfed fun _ => hstdin
      exact ⟨.feed, s', hs'⟩
  | some code =>
    have hreading : s.reading = false := h.exited (by rw [hrunning]; rfl)
    have hfed : s.fed = none := by
      cases hfed : s.fed with
      | none => rfl
      | some fed =>
        rw [ended, hrunning, hfed, hout, herr] at hunfinished
        cases hunfinished
    obtain ⟨s', hs'⟩ := feeds hcapacity hfed fun hread => by rw [hreading] at hread; cases hread
    exact ⟨.feed, s', hs'⟩

/-! ## How long it can take -/

/-- The steps left to those who serve the child. -/
def owed (s : State α σ) : Nat :=
  s.pending.length + (if s.fed.isSome then 0 else 1) + s.stdout.length + s.stderr.length

/-- A step of the child leaves at most one more to drain. -/
theorem stepChild_owed {s s' : State α σ} (hstep : stepChild p capacity s = some s') :
    owed s' ≤ owed s + 1 := by
  unfold stepChild at hstep
  split at hstep
  · cases hstep
  split at hstep
  · split at hstep
    · obtain rfl := Option.some.inj hstep
      exact Nat.le_succ _
    · split at hstep
      · obtain rfl := Option.some.inj hstep
        exact Nat.le_succ _
      · cases hstep
    · obtain rfl := Option.some.inj hstep
      exact Nat.le_succ _
  · split at hstep
    · obtain rfl := Option.some.inj hstep
      simp only [owed, List.length_append, List.length_singleton]
      omega
    · cases hstep
  · split at hstep
    · obtain rfl := Option.some.inj hstep
      simp only [owed, List.length_append, List.length_singleton]
      omega
    · cases hstep
  · obtain rfl := Option.some.inj hstep
    exact Nat.le_succ _
  · obtain rfl := Option.some.inj hstep
    exact Nat.le_succ _

theorem stepFeed_owed {s s' : State α σ} (hstep : stepFeed capacity s = some s') :
    owed s' < owed s := by
  unfold stepFeed at hstep
  split at hstep
  · cases hstep
  · rename_i hfed hpending
    obtain rfl := Option.some.inj hstep
    simp [owed, hfed]
  · rename_i hfed hpending
    split at hstep
    · split at hstep
      · obtain rfl := Option.some.inj hstep
        simp [owed, hpending]
      · cases hstep
    · obtain rfl := Option.some.inj hstep
      simp [owed, hfed]

theorem stepDrainOut_owed {s s' : State α σ} (hstep : stepDrainOut s = some s') :
    owed s' < owed s := by
  unfold stepDrainOut at hstep
  split at hstep
  · cases hstep
  · rename_i hstdout
    obtain rfl := Option.some.inj hstep
    simp [owed, hstdout]

theorem stepDrainErr_owed {s s' : State α σ} (hstep : stepDrainErr s = some s') :
    owed s' < owed s := by
  unfold stepDrainErr at hstep
  split at hstep
  · cases hstep
  · rename_i hstderr
    obtain rfl := Option.some.inj hstep
    simp [owed, hstderr]

/-! ## Whole runs -/

/-- The child's own steps in a run. -/
def childSteps (labels : List Label) : Nat := labels.countP (· matches .child)

/-- A run: the child has come as far as the program alone does in the child's own
steps, and for each of those at most two steps more were made. -/
theorem exec_spec {s s' : State α σ} {labels : List Label} (h : Inv s)
    (hrun : exec (step p capacity) s labels = some s') :
    Inv s' ∧ toAlone s' = (Alone.next p)^[childSteps labels] (toAlone s) ∧
      owed s' + labels.length ≤ owed s + 2 * childSteps labels := by
  induction labels generalizing s with
  | nil =>
    obtain rfl := Option.some.inj hrun
    exact ⟨h, rfl, Nat.le_refl _⟩
  | cons label rest ih =>
    obtain ⟨mid, hstep, hrest⟩ := Option.bind_eq_some_iff.mp hrun
    obtain ⟨hmid, hcame⟩ := step_refines h hstep
    obtain ⟨hinv, halone, howed⟩ := ih hmid hrest
    refine ⟨hinv, ?_, ?_⟩
    · rw [halone, hcame]
      cases label with
      | child =>
        rw [childSteps, childSteps, List.countP_cons_of_pos rfl, Function.iterate_succ_apply]
        rfl
      | feed | drainOut | drainErr => rfl
    · rw [List.length_cons]
      cases label with
      | child =>
        have hone := stepChild_owed hstep
        have hcount : childSteps (.child :: rest) = childSteps rest + 1 :=
          List.countP_cons_of_pos rfl
        omega
      | feed =>
        have hless := stepFeed_owed hstep
        have hcount : childSteps (.feed :: rest) = childSteps rest := rfl
        omega
      | drainOut =>
        have hless := stepDrainOut_owed hstep
        have hcount : childSteps (.drainOut :: rest) = childSteps rest := rfl
        omega
      | drainErr =>
        have hless := stepDrainErr_owed hstep
        have hcount : childSteps (.drainErr :: rest) = childSteps rest := rfl
        omega

/-- The child makes no step that the program alone does not make. -/
theorem childSteps_le {s s' : State α σ} {labels : List Label} {n : Nat} (h : Inv s)
    (hrun : exec (step p capacity) s labels = some s')
    (hends : ((Alone.next p)^[n] (toAlone s)).exited.isSome) : childSteps labels ≤ n := by
  induction labels generalizing s n with
  | nil => exact Nat.zero_le n
  | cons label rest ih =>
    obtain ⟨mid, hstep, hrest⟩ := Option.bind_eq_some_iff.mp hrun
    obtain ⟨hmid, hcame⟩ := step_refines h hstep
    cases label with
    | child =>
      cases n with
      | zero =>
        obtain ⟨code, hexited⟩ := Option.isSome_iff_exists.mp hends
        have hnone : stepChild p capacity s = none := by
          rw [stepChild, show s.exited = some code from hexited]
        rw [step, hnone] at hstep
        cases hstep
      | succ n =>
        rw [Function.iterate_succ_apply] at hends
        rw [childSteps, List.countP_cons_of_pos rfl]
        exact Nat.succ_le_succ (ih hmid hrest (by rw [hcame]; exact hends))
    | feed | drainOut | drainErr => exact ih hmid hrest (by rw [hcame]; exact hends)

theorem output_of_ended {s : State α σ} {output : Output α} {fed : Fed}
    (h : ended s = some (output, fed)) : (toAlone s).output = some output := by
  unfold ended at h
  split at h
  · rename_i code fed' hexited _ hout herr
    obtain ⟨rfl, rfl⟩ := Prod.mk.inj (Option.some.inj h)
    simp [Alone.output, toAlone, hexited, hout, herr]
  · cases h

/-- Whatever the order of the steps: someone can step until all is over; what is
left then is what the program leaves alone; and if the program ends alone, so does
the run, in a bounded number of steps. -/
theorem run_exact (hcapacity : 0 < capacity) {input : List α} {labels : List Label} {s : State α σ}
    (hrun : exec (step p capacity) (begin p input) labels = some s) :
    (ended s = none → ∃ label s', step p capacity s label = some s') ∧
    (∀ output fed, ended s = some (output, fed) →
      ∃ n, ((Alone.next p)^[n] (Alone.begin p input)).output = some output) ∧
    ∀ n, ((Alone.next p)^[n] (Alone.begin p input)).exited.isSome →
      labels.length ≤ input.length + 1 + 2 * n := by
  obtain ⟨hinv, halone, howed⟩ := exec_spec (inv_begin p input) hrun
  refine ⟨progress hcapacity hinv, fun output fed hended => ?_, fun n hends => ?_⟩
  · refine ⟨childSteps labels, ?_⟩
    rw [← toAlone_begin, ← halone]
    exact output_of_ended hended
  · have hle := childSteps_le (inv_begin p input) hrun (n := n) hends
    have hstart : owed (begin p input) = input.length + 1 := rfl
    omega

end ChildIo
