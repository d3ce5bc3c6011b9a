import Mathlib.Tactic.Linarith

/-! # A monotonic clock with an earliest instant

An instant is a number of nanoseconds since the earliest one the clock can
represent, so going back further than that fails. A duration is a number of
nanoseconds; ages and limits that cross an interface travel as whole seconds,
rounded down. -/

namespace Clock

def fromSecs (secs : Nat) : Nat := 1000000000 * secs

def asSecs (duration : Nat) : Nat := duration / 1000000000

/-- Fails when the result would lie before the clock's earliest instant. -/
def checkedSub (instant duration : Nat) : Option Nat :=
  if duration ≤ instant then some (instant - duration) else none

/-- Time passed since `instant`, zero when it is still ahead. -/
def elapsed (now instant : Nat) : Nat := now - instant

@[simp] theorem asSecs_fromSecs (secs : Nat) : asSecs (fromSecs secs) = secs := by
  simp only [asSecs, fromSecs]
  omega

@[simp] theorem fromSecs_lt {a b : Nat} : fromSecs a < fromSecs b ↔ a < b := by
  simp only [fromSecs]
  omega

@[simp] theorem fromSecs_zero : fromSecs 0 = 0 := Nat.mul_zero _

theorem fromSecs_asSecs_le (d : Nat) : fromSecs (asSecs d) ≤ d := by
  simp only [asSecs, fromSecs]
  omega

/-- Rounding down loses less than a second. -/
theorem lt_fromSecs_asSecs (d : Nat) : d < fromSecs (asSecs d) + fromSecs 1 := by
  simp only [asSecs, fromSecs]
  omega

/-- A limit in whole seconds sees whole seconds. -/
theorem lt_fromSecs_iff {d secs : Nat} : d < fromSecs secs ↔ asSecs d < secs := by
  simp only [asSecs, fromSecs]
  omega

theorem checkedSub_of_le {t d : Nat} (h : d ≤ t) : checkedSub t d = some (t - d) := if_pos h

theorem checkedSub_of_lt {t d : Nat} (h : t < d) : checkedSub t d = none := if_neg (by omega)

theorem checkedSub_isSome {t d : Nat} : (checkedSub t d).isSome ↔ d ≤ t := by
  unfold checkedSub
  split <;> simp_all

@[simp] theorem checkedSub_zero (t : Nat) : checkedSub t 0 = some t := by simp [checkedSub]

@[simp] theorem elapsed_self (t : Nat) : elapsed t t = 0 := Nat.sub_self t

/-- An instant set back by `d` is exactly `d` old. -/
theorem elapsed_sub {t d : Nat} (h : d ≤ t) : elapsed t (t - d) = d := by
  simp only [elapsed]
  omega

/-- What whole seconds leave out of a duration. -/
def fraction (duration : Nat) : Nat := duration % 1000000000

/-- A duration that grew by `d` is within a second of its old whole seconds
exactly when its fraction had room for `d`. -/
theorem add_lt_asSecs_iff {e d : Nat} :
    e + d < fromSecs (asSecs e) + fromSecs 1 ↔ fraction e + d < fromSecs 1 := by
  simp only [asSecs, fromSecs, fraction]
  omega

/-- With room in the fraction, a limit reached after `d` more is reached by
the whole seconds alone. -/
theorem fromSecs_le_of_fraction {e d limit : Nat} (h : fraction e + d < fromSecs 1)
    (hlimit : limit ≤ e + d) : fromSecs (asSecs limit) ≤ fromSecs (asSecs e) := by
  simp only [asSecs, fromSecs, fraction] at *
  omega

end Clock
