import UnifiedApi.Lib.Clock
import UnifiedApi.Lib.StrMap

/-! # Values that expire

A map keeps the last value written under each key with the moment it was
written. Each write throws out what has expired by then; a reader is shown what
has not. Throwing out changes nothing a reader sees: the map shows what a log
of every write would. -/

/-- Values with the moment they were written. -/
abbrev Expiring (α : Type) := StrMap (α × Nat)

namespace Expiring

variable {α : Type} (lifetime : Nat)

def fresh (now : Nat) (stamped : α × Nat) : Bool :=
  decide (Clock.elapsed now stamped.2 < lifetime)

def record (m : Expiring α) (now : Nat) (key : String) (value : α) : Expiring α :=
  (m.filter fun _ stamped => fresh lifetime now stamped).insert key (value, now)

/-- What is shown of a key. -/
def shown (m : Expiring α) (now : Nat) (key : String) : Option (α × Nat) :=
  m[key]?.filter (fresh lifetime now)

/-! ## The log of every write -/

/-- A write: its key, its value and its moment. -/
structure Write (α : Type) where
  key : String
  value : α
  instant : Nat
  deriving DecidableEq

/-- The newest write of a key; the log is newest first. -/
def latest (log : List (Write α)) (key : String) : Option (α × Nat) :=
  (log.find? (·.key == key)).map fun write => (write.value, write.instant)

/-- No write of the log is ahead of the clock. -/
def Past (log : List (Write α)) (now : Nat) : Prop := ∀ write ∈ log, write.instant ≤ now

/-- From now on the map shows what the log does. -/
def Shows (m : Expiring α) (log : List (Write α)) : Prop :=
  ∀ key now, Past log now → m.shown lifetime now key = (latest log key).filter (fresh lifetime now)

variable {lifetime}

/-- What is fresh later was fresh before. -/
theorem fresh_of_le {now later : Nat} {stamped : α × Nat} (h : now ≤ later)
    (hfresh : fresh lifetime later stamped = true) : fresh lifetime now stamped = true := by
  have hlater : later - stamped.2 < lifetime := of_decide_eq_true hfresh
  have hnow : now - stamped.2 < lifetime := by omega
  exact decide_eq_true hnow

theorem filter_fresh_filter {now later : Nat} (h : now ≤ later) (found : Option (α × Nat)) :
    (found.filter (fresh lifetime now)).filter (fresh lifetime later) =
      found.filter (fresh lifetime later) := by
  cases found with
  | none => rfl
  | some stamped =>
    cases hlater : fresh lifetime later stamped with
    | true => simp [Option.filter, fresh_of_le h hlater, hlater]
    | false => cases hnow : fresh lifetime now stamped <;> simp [Option.filter, hnow, hlater]

theorem Past.mono {log : List (Write α)} {now later : Nat} (h : Past log now) (hle : now ≤ later) :
    Past log later := fun write hwrite => (h write hwrite).trans hle

theorem shows_empty : Shows lifetime (∅ : Expiring α) [] := by
  intro key now _
  rfl

/-- **Throwing out what has expired is not seen.** -/
theorem Shows.record {m : Expiring α} {log : List (Write α)} {now : Nat}
    (h : Shows lifetime m log) (hpast : Past log now) (key : String) (value : α) :
    Shows lifetime (m.record lifetime now key value) (⟨key, value, now⟩ :: log) := by
  intro other later hlater
  have hle : now ≤ later := hlater _ List.mem_cons_self
  have hrest : Past log later := hpast.mono hle
  unfold shown Expiring.record
  rw [StrMap.getElem?_insert]
  rcases eq_or_ne key other with rfl | hne
  · simp [latest]
  · rw [if_neg hne, Std.ExtTreeMap.getElem?_filter', filter_fresh_filter hle]
    rw [show latest (⟨key, value, now⟩ :: log) other = latest log other by simp [latest, hne]]
    exact h other later hrest

end Expiring
