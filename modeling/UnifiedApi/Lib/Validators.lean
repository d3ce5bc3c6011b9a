import Mathlib.Data.Set.Insert
import Mathlib.Logic.Relation

/-! # Validators that name a generation

A server answers from data that changes. It mints a validator from a counter,
its generation, that is bumped after the data has changed: a read takes its
data first and reads the counter after that. `Step` is what may happen, with
the conditions under which equal validators mean equal answers. -/

namespace Validators

variable {Data Key Body Gen : Type}

/-- An answer and the generation that its validator names. -/
structure Answer (Key Body Gen : Type) where
  key : Key
  generation : Gen
  body : Body

/-- The data, and as it was when the generation was last set; the reads that
have taken what they answer; every answer so far. -/
structure State (Data Key Body Gen : Type) where
  data : Data
  minted : Data
  generation : Gen
  taken : Set (Key × Body) := ∅
  answered : List (Answer Key Body Gen) := []

variable (render : Key → Data → Option Body)

/-- What was answered under the generation is what the data renders to. -/
def Fits (s : State Data Key Body Gen) (data : Data) (generation : Gen) : Prop :=
  ∀ answer ∈ s.answered, answer.generation = generation →
    render answer.key data = some answer.body

inductive Step : State Data Key Body Gen → State Data Key Body Gen → Prop
  /-- A change that the generation does not tell of, or not yet. -/
  | change (s) (data : Data) : Step s { s with data }
  /-- Neither an answer under the new generation nor a read in flight may
  differ from what the data renders to. -/
  | bump (s) (generation : Gen) (hfits : Fits render s s.data generation)
      (htaken : ∀ read ∈ s.taken, render read.1 s.data = some read.2) :
      Step s { s with generation, minted := s.data }
  /-- A read takes what its key rendered to when the generation was set. -/
  | take (s) (key : Key) (body : Body) (hminted : render key s.minted = some body) :
      Step s { s with taken := insert (key, body) s.taken }
  | answer (s) (key : Key) (body : Body) (hread : (key, body) ∈ s.taken) :
      Step s { s with answered := s.answered ++ [⟨key, s.generation, body⟩] }
  /-- Some reads in flight are over. -/
  | keep (s) (taken : Set (Key × Body)) (hsub : taken ⊆ s.taken) : Step s { s with taken }

/-- Answers of one key and generation are the same; those of the current one,
and those to come, are what their keys rendered to when it was set. -/
structure Inv (s : State Data Key Body Gen) : Prop where
  same : ∀ a ∈ s.answered, ∀ b ∈ s.answered, a.key = b.key → a.generation = b.generation →
    a.body = b.body
  current : Fits render s s.minted s.generation
  taken : ∀ read ∈ s.taken, render read.1 s.minted = some read.2

variable {render}

theorem Inv.initial (data : Data) (generation : Gen) :
    Inv render ({ data, minted := data, generation } : State Data Key Body Gen) :=
  ⟨nofun, nofun, nofun⟩

/-- One more answer under the current generation. -/
theorem Inv.answer {s : State Data Key Body Gen} (h : Inv render s) {key : Key} {body : Body}
    (hread : (key, body) ∈ s.taken) :
    Inv render { s with answered := s.answered ++ [⟨key, s.generation, body⟩] } := by
  have hbody : render key s.minted = some body := h.taken _ hread
  -- the new answer against one that was there
  have hsame : ∀ a ∈ s.answered, a.key = key → a.generation = s.generation → a.body = body := by
    intro a ha hkey hgeneration
    have hold := h.current a ha hgeneration
    rw [hkey, hbody] at hold
    exact (Option.some.inj hold).symm
  refine ⟨?_, ?_, h.taken⟩
  · intro a ha b hb hkey hgeneration
    rcases List.mem_append.mp ha with ha | ha <;> rcases List.mem_append.mp hb with hb | hb
    · exact h.same a ha b hb hkey hgeneration
    · obtain rfl := List.mem_singleton.mp hb
      exact hsame a ha hkey hgeneration
    · obtain rfl := List.mem_singleton.mp ha
      exact (hsame b hb hkey.symm hgeneration.symm).symm
    · obtain rfl := List.mem_singleton.mp ha
      obtain rfl := List.mem_singleton.mp hb
      rfl
  · intro a ha hgeneration
    rcases List.mem_append.mp ha with ha | ha
    · exact h.current a ha hgeneration
    · obtain rfl := List.mem_singleton.mp ha
      exact hbody

theorem Inv.step {s s' : State Data Key Body Gen} (h : Inv render s) (hstep : Step render s s') :
    Inv render s' := by
  cases hstep with
  | change data => exact ⟨h.same, h.current, h.taken⟩
  | bump generation hfits htaken => exact ⟨h.same, hfits, htaken⟩
  | take key body hminted =>
    refine ⟨h.same, h.current, fun read hread => ?_⟩
    rcases Set.mem_insert_iff.mp hread with hnew | hold
    · rw [hnew]
      exact hminted
    · exact h.taken read hold
  | answer key body hread => exact h.answer hread
  | keep taken hsub => exact ⟨h.same, h.current, fun read hread => h.taken read (hsub hread)⟩

theorem Inv.steps {s s' : State Data Key Body Gen} (h : Inv render s)
    (hsteps : Relation.ReflTransGen (Step render) s s') : Inv render s' := by
  induction hsteps with
  | refl => exact h
  | tail _ hstep ih => exact ih.step hstep

/-- **Equal validators mean equal answers**, after any number of steps. -/
theorem same_of_steps {data : Data} {generation : Gen} {s : State Data Key Body Gen}
    (h : Relation.ReflTransGen (Step render) { data, minted := data, generation } s)
    {a b : Answer Key Body Gen} (ha : a ∈ s.answered) (hb : b ∈ s.answered)
    (hkey : a.key = b.key) (hgeneration : a.generation = b.generation) : a.body = b.body :=
  ((Inv.initial data generation).steps h).same a ha b hb hkey hgeneration

end Validators
