import Mathlib.Logic.Basic

/-! # Fallible results

What is known of the steps of a computation from how it ended. -/

namespace Results
variable {Error Value More : Type}

/-- Both steps of a computation that ended well did. -/
theorem ok_of_bind {result : Except Error Value} {next : Value → Except Error More} {more : More}
    (h : (result >>= next) = .ok more) : ∃ value, result = .ok value ∧ next value = .ok more := by
  cases result with
  | error _ => cases h
  | ok value => exact ⟨value, rfl, h⟩

theorem ok_of_map {result : Except Error Value} {f : Value → More} {more : More}
    (h : result.map f = .ok more) : ∃ value, result = .ok value ∧ f value = more := by
  cases result with
  | error _ => cases h
  | ok value => exact ⟨value, rfl, Except.ok.inj h⟩

theorem toOption_eq_some_iff {result : Except Error Value} {value : Value} :
    result.toOption = some value ↔ result = .ok value := by
  cases result with
  | error _ => exact iff_of_false (fun h => by cases h) (fun h => by cases h)
  | ok _ => exact ⟨fun h => by rw [Option.some.inj h], fun h => by rw [Except.ok.inj h]; rfl⟩

theorem ok_of_toOption_map {result : Except Error Value} {f : Value → More} {more : More}
    (h : result.toOption.map f = some more) : ∃ value, result = .ok value ∧ f value = more := by
  obtain ⟨value, hvalue, hmore⟩ := Option.map_eq_some_iff.mp h
  exact ⟨value, toOption_eq_some_iff.mp hvalue, hmore⟩

theorem ok_of_isSome {result : Except Error Value} (h : result.toOption.isSome = true) :
    ∃ value, result = .ok value := by
  obtain ⟨value, hvalue⟩ := Option.isSome_iff_exists.mp h
  exact ⟨value, toOption_eq_some_iff.mp hvalue⟩

/-- The same but for what an error says: one value, or two failures. -/
theorem cases_of_toOption_eq {result other : Except Error Value}
    (h : result.toOption = other.toOption) :
    (∃ value, result = .ok value ∧ other = .ok value) ∨
      ∃ error error', result = .error error ∧ other = .error error' := by
  cases result with
  | ok value =>
    cases other with
    | ok _ => cases h; exact .inl ⟨value, rfl, rfl⟩
    | error _ => cases h
  | error error =>
    cases other with
    | ok _ => cases h
    | error error' => exact .inr ⟨error, error', rfl, rfl⟩

end Results
