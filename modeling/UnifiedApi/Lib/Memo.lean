import Mathlib.Data.List.Basic

/-! # A memo keyed by a generation

A value is worked out for a key and kept with the generation it was asked for.
While the generation stays the same it is answered again, whatever would be
worked out by then. -/

namespace Memo

variable {Key Gen Value : Type} [DecidableEq Key]

/-- A question, what would be worked out for it, and what was answered. -/
structure Ask (Key Gen Value : Type) where
  key : Key
  generation : Gen
  value : Value
  answered : Value
  deriving DecidableEq

/-- The last question about the key. The newest question comes first. -/
def last (asks : List (Ask Key Gen Value)) (key : Key) : Option (Ask Key Gen Value) :=
  asks.find? fun ask => decide (ask.key = key)

/-- What the questions leave for the key. -/
def kept (asks : List (Ask Key Gen Value)) (key : Key) : Option (Gen × Value) :=
  (last asks key).map fun ask => (ask.generation, ask.answered)

/-- Every answer is what would have been worked out. -/
def Right (asks : List (Ask Key Gen Value)) : Prop := ∀ ask ∈ asks, ask.answered = ask.value

/-- Of two questions about a key, one right after the other, the same is
worked out when they are of one generation. -/
def Steady : List (Ask Key Gen Value) → Prop
  | [] => True
  | ask :: asks => (∀ before, last asks ask.key = some before →
      before.generation = ask.generation → before.value = ask.value) ∧ Steady asks

variable {asks : List (Ask Key Gen Value)} {ask : Ask Key Gen Value} {key : Key}

theorem last_cons : last (ask :: asks) key = if ask.key = key then some ask else last asks key := by
  unfold last
  by_cases h : ask.key = key <;> simp [h]

theorem kept_cons : kept (ask :: asks) key =
    if ask.key = key then some (ask.generation, ask.answered) else kept asks key := by
  unfold kept
  rw [last_cons]
  by_cases h : ask.key = key <;> simp [h]

theorem last_mem {before : Ask Key Gen Value} (h : last asks key = some before) :
    before ∈ asks ∧ before.key = key := by
  have hkey := List.find?_some h
  exact ⟨List.mem_of_find?_eq_some h, of_decide_eq_true hkey⟩

/-- Questions are steady when any two about one key and of one generation
have the same worked out. -/
theorem steady_of_same (h : ∀ a ∈ asks, ∀ b ∈ asks, a.key = b.key → a.generation = b.generation →
    a.value = b.value) : Steady asks := by
  induction asks with
  | nil => trivial
  | cons ask asks ih =>
    refine ⟨fun before hbefore hgeneration => ?_, ih fun a ha b hb =>
      h a (List.mem_cons_of_mem _ ha) b (List.mem_cons_of_mem _ hb)⟩
    obtain ⟨hmem, hkey⟩ := last_mem hbefore
    exact h before (List.mem_cons_of_mem _ hmem) ask List.mem_cons_self hkey hgeneration

variable [DecidableEq Gen]

/-- What is kept answers for its own generation only. -/
def answer (kept : Option (Gen × Value)) (generation : Gen) (value : Value) : Value :=
  match kept with
  | some (seen, known) => if seen = generation then known else value
  | none => value

/-- Each is answered from what the ones before it left. -/
inductive Served : List (Ask Key Gen Value) → Prop
  | nil : Served []
  | cons (ask : Ask Key Gen Value) (asks : List (Ask Key Gen Value)) (hserved : Served asks)
      (hanswered : ask.answered = answer (kept asks ask.key) ask.generation ask.value) :
      Served (ask :: asks)

/-- After right answers the next one is right exactly when the question is
steady. -/
theorem answer_eq_iff (hright : Right asks) (generation : Gen) (value : Value) :
    answer (kept asks key) generation value = value ↔ ∀ before, last asks key = some before →
      before.generation = generation → before.value = value := by
  unfold kept
  cases hlast : last asks key with
  | none => simp [answer]
  | some before =>
    have hbefore : before.answered = before.value := hright before (last_mem hlast).1
    by_cases hgeneration : before.generation = generation <;> simp [answer, hgeneration, hbefore]

/-- **Every answer is right exactly when the questions are steady.** -/
theorem right_iff_steady (h : Served asks) : Right asks ↔ Steady asks := by
  induction h with
  | nil => exact ⟨fun _ => trivial, fun _ => nofun⟩
  | cons ask asks _ hanswered ih =>
    unfold Right at ih ⊢
    rw [List.forall_mem_cons, Steady, ← ih, and_comm, and_comm (b := ∀ ask ∈ asks, _)]
    refine and_congr_right fun hright => ?_
    rw [hanswered]
    exact answer_eq_iff hright ask.generation ask.value

end Memo
