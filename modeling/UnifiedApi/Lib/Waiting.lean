import Mathlib.Logic.Relation
import Mathlib.Order.Basic

/-! # Who waits for whom

Agents hold resources and want others. When every agent wants only what comes
after all that it holds, no agents wait for each other in a circle. -/

namespace Waiting

variable {Agent Resource Rank : Type} {holds wants : Agent → Resource → Prop}

/-- `a` wants something that `b` holds. -/
def WaitsOn (holds wants : Agent → Resource → Prop) (a b : Agent) : Prop :=
  ∃ r, wants a r ∧ holds b r

/-- Some agents wait for each other in a circle, or one for itself. -/
def Deadlock (holds wants : Agent → Resource → Prop) : Prop :=
  ∃ a, Relation.TransGen (WaitsOn holds wants) a a

/-- What an agent wants comes after all that it holds. -/
def Ascends [Preorder Rank] (rank : Resource → Rank) (holds wants : Agent → Resource → Prop) :
    Prop :=
  ∀ a r r', holds a r → wants a r' → rank r < rank r'

/-- Along a chain of waiting agents the resources come later and later. -/
theorem Ascends.le_of_chain [Preorder Rank] {rank : Resource → Rank}
    (h : Ascends rank holds wants) {a b : Agent}
    (hchain : Relation.TransGen (WaitsOn holds wants) a b) :
    ∃ r r', wants a r ∧ holds b r' ∧ rank r ≤ rank r' := by
  induction hchain with
  | single hab =>
    obtain ⟨r, hwants, hholds⟩ := hab
    exact ⟨r, r, hwants, hholds, le_refl _⟩
  | tail _ hbc ih =>
    obtain ⟨r, r', hwants, hholds, hle⟩ := ih
    obtain ⟨next, hnext, hheld⟩ := hbc
    have hlt := h _ r' next hholds hnext
    exact ⟨r, next, hwants, hheld, hle.trans hlt.le⟩

/-- **Asking in one order never closes a circle.** -/
theorem Ascends.not_deadlock [Preorder Rank] {rank : Resource → Rank}
    (h : Ascends rank holds wants) : ¬ Deadlock holds wants := by
  intro ⟨a, hcycle⟩
  obtain ⟨r, r', hwants, hholds, hle⟩ := h.le_of_chain hcycle
  exact absurd (h a r' r hholds hwants) (not_lt_of_ge hle)

end Waiting
