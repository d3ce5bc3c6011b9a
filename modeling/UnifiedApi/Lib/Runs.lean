import Mathlib.Tactic.Linarith

/-! # Runs of a labelled step function

A system is a partial step function on states. A state is reachable when a
sequence of enabled steps leads to it from an initial one; a run may be
restricted to steps that meet a condition on the state and the label. -/

namespace Runs

variable {State Label : Type} (step : State → Label → Option State)

/-- The state after the labels, when each is enabled in turn. -/
def exec : State → List Label → Option State
  | s, [] => some s
  | s, l :: rest => (step s l).bind (exec · rest)

/-- The states reached by steps that all meet `ok`. -/
inductive Reach (ok : State → Label → Prop) (start : State) : State → Prop
  | start : Reach ok start start
  | step {s l s'} : Reach ok start s → ok s l → step s l = some s' → Reach ok start s'

/-- Every step allowed. -/
def Any : State → Label → Prop := fun _ _ => True

variable {step}

/-- What holds at the start and is kept by each step holds in every state
reached. -/
theorem Reach.invariant {ok : State → Label → Prop} {start s : State} {P : State → Prop}
    (hstart : P start)
    (hstep : ∀ s l s', P s → ok s l → step s l = some s' → P s')
    (h : Reach step ok start s) : P s := by
  induction h with
  | start => exact hstart
  | step _ hok hs ih => exact hstep _ _ _ ih hok hs

theorem Reach.mono {ok ok' : State → Label → Prop} {start s : State}
    (himp : ∀ s l, ok s l → ok' s l) (h : Reach step ok start s) : Reach step ok' start s := by
  induction h with
  | start => exact .start
  | step _ hok hs ih => exact ih.step (himp _ _ hok) hs

/-- Every step of the run meets the condition. -/
def Meets (step : State → Label → Option State) (ok : State → Label → Prop) :
    State → List Label → Prop
  | _, [] => True
  | s, l :: rest => ok s l ∧ match step s l with
    | some s' => Meets step ok s' rest
    | none => True

instance decidableMeets {ok : State → Label → Prop} [∀ s l, Decidable (ok s l)] :
    (s : State) → (ls : List Label) → Decidable (Meets step ok s ls)
  | _, [] => isTrue trivial
  | s, l :: rest =>
    match h : step s l with
    | some s' =>
      have : Decidable (Meets step ok s' rest) := decidableMeets s' rest
      decidable_of_iff (ok s l ∧ Meets step ok s' rest) (by rw [Meets, h])
    | none => decidable_of_iff (ok s l) (by rw [Meets, h, and_true])

/-- A run that was executed and whose steps meet the condition. -/
theorem Reach.of_meets {ok : State → Label → Prop} {start s s' : State} {ls : List Label}
    (h : Reach step ok start s) (hmeets : Meets step ok s ls) (hexec : exec step s ls = some s') :
    Reach step ok start s' := by
  induction ls generalizing s with
  | nil =>
    obtain rfl := Option.some.inj hexec
    exact h
  | cons l rest ih =>
    obtain ⟨mid, hl, hrest⟩ := Option.bind_eq_some_iff.mp hexec
    have hmid := hmeets.2
    rw [hl] at hmid
    exact ih (h.step hmeets.1 hl) hmid hrest

theorem exec_append (s : State) (ls ls' : List Label) :
    exec step s (ls ++ ls') = (exec step s ls).bind (exec step · ls') := by
  induction ls generalizing s with
  | nil => rfl
  | cons l rest ih =>
    simp only [List.cons_append, exec]
    cases step s l with
    | none => rfl
    | some s' => exact ih s'

theorem meets_of_forall {ok : State → Label → Prop} {ls : List Label}
    (h : ∀ l ∈ ls, ∀ s, ok s l) (s : State) : Meets step ok s ls := by
  induction ls generalizing s with
  | nil => trivial
  | cons l rest ih =>
    refine ⟨h l List.mem_cons_self s, ?_⟩
    split
    · exact ih (fun l hl => h l (List.mem_cons_of_mem _ hl)) _
    · trivial

theorem meets_any (s : State) (ls : List Label) : Meets step Any s ls :=
  meets_of_forall (fun _ _ _ => trivial) s

/-- A run that was executed reaches its last state. -/
theorem Reach.of_exec {start s s' : State} {ls : List Label} (h : Reach step Any start s)
    (hexec : exec step s ls = some s') : Reach step Any start s' :=
  h.of_meets (meets_any s ls) hexec

theorem reach_iff_exec {start s : State} :
    Reach step Any start s ↔ ∃ ls, exec step start ls = some s := by
  constructor
  · intro h
    induction h with
    | start => exact ⟨[], rfl⟩
    | @step s l s' _ _ hs ih =>
      obtain ⟨ls, hls⟩ := ih
      refine ⟨ls ++ [l], ?_⟩
      rw [exec_append, hls, Option.bind_some]
      simp only [exec, hs, Option.bind_some]
  · rintro ⟨ls, hls⟩
    exact Reach.start.of_exec hls

end Runs
