import Mathlib.Data.List.Dedup
import Mathlib.Data.List.Perm.Subperm

/-! # Projects: git checkouts with scripts -/

namespace UnifiedApi

/-- A git repository that holds connector scripts and transformations. -/
structure GitProject where
  gitUrl : String
  branch : String := "main"
  credentials : List String := []
  /-- The older way to name a credential. -/
  credential : Option String := none
  timeoutSeconds : Nat := 300
  pythonVenv : Bool := false
  syncOnBoot : Bool := true
  deriving DecidableEq

namespace GitProject

/-- The credential it clones and pulls with, whichever form names it. -/
def credentialId (project : GitProject) : Option String :=
  project.credentials.head?.or project.credential

def errors (project : GitProject) (id : String) : List String :=
  let distinct := project.credentials.dedup.length
  (if 1 < distinct then
    [s!"Project '{id}' lists {distinct} credentials — a clone authenticates with one"]
  else []) ++
  (if project.credentials ≠ [] ∧ project.credential.isSome then
    [s!"Project '{id}' sets both credentials and credential — keep credentials"]
  else [])

/-- In a project without errors every name it gives for a credential is the one
it authenticates with. -/
theorem credentialId_unique {project : GitProject} {id : String} (h : project.errors id = [])
    {name : String} (hname : name ∈ project.credentials ∨ project.credential = some name) :
    project.credentialId = some name := by
  obtain ⟨hmany, hboth⟩ := List.append_eq_nil_iff.mp h
  have hone : ¬ 1 < project.credentials.dedup.length := fun hlt => by simp [hlt] at hmany
  have hnotboth : ¬ (project.credentials ≠ [] ∧ project.credential.isSome) := fun hset => by
    simp only [if_pos hset] at hboth
    cases hboth
  unfold credentialId
  rcases hname with hmem | hold
  · cases hlist : project.credentials with
    | nil => simp [hlist] at hmem
    | cons first rest =>
      rw [hlist] at hmem hone
      have hsame : first = name := by
        by_contra hne
        have hsub : [first, name].Subperm (first :: rest).dedup :=
          List.subperm_of_subset (by simpa using hne) (by simpa using hmem)
        exact hone hsub.length_le
      simp [hsame]
  · have hnone : project.credentials = [] := by
      by_contra hne
      exact hnotboth ⟨hne, by simp [hold]⟩
    simp [hnone, hold]

end GitProject

end UnifiedApi
