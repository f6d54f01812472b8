/-
# Steps that may fail

Steps are taken one after the other, and each of them may fail. Together they succeed exactly if
each of them does, and they fail with the error of the first one that fails. What a step fails with
may be told in other words.

* `Except.bind_eq_ok_iff`, `Except.bind_eq_error_iff` : a step and the ones after it;
* `Except.map_eq_ok_iff`, `Except.map_eq_error_iff` : a step whose result is put to use;
* `Except.mapError_eq_ok_iff`, `Except.mapError_eq_error_iff` : a step whose error is retold.
-/
import Mathlib.Tactic.Common

namespace ComponentDivision

variable {ε ε' α β : Type} {x : Except ε α}

/-- A step and what comes after it succeed if both do. -/
theorem Except.bind_eq_ok_iff {f : α → Except ε β} {b : β} :
    x >>= f = .ok b ↔ ∃ a, x = .ok a ∧ f a = .ok b := by
  cases x with
  | error e =>
    constructor
    · intro h
      cases h
    · rintro ⟨a, h, -⟩
      cases h
  | ok a =>
    constructor
    · intro h
      exact ⟨a, rfl, h⟩
    · rintro ⟨a', h, hf⟩
      cases h
      exact hf

/-- A step fails, or it succeeds and what comes after it fails. -/
theorem Except.bind_eq_error_iff {f : α → Except ε β} {e : ε} :
    x >>= f = .error e ↔ x = .error e ∨ ∃ a, x = .ok a ∧ f a = .error e := by
  cases x with
  | error e' =>
    constructor
    · intro h
      cases h
      exact .inl rfl
    · rintro (h | ⟨a, h, -⟩)
      · cases h
        rfl
      · cases h
  | ok a =>
    constructor
    · intro h
      exact .inr ⟨a, rfl, h⟩
    · rintro (h | ⟨a', h, hf⟩)
      · cases h
      · cases h
        exact hf

/-- What is made of a result is made of one. -/
theorem Except.map_eq_ok_iff {f : α → β} {b : β} : x.map f = .ok b ↔ ∃ a, x = .ok a ∧ f a = b := by
  cases x with
  | error e => simp [Except.map]
  | ok a => simp [Except.map]

/-- What is made of a result leaves errors as they are. -/
theorem Except.map_eq_error_iff {f : α → β} {e : ε} : x.map f = .error e ↔ x = .error e := by
  cases x with
  | error e' => simp [Except.map]
  | ok a => simp [Except.map]

/-- Other words for an error leave what succeeds as it is. -/
theorem Except.mapError_eq_ok_iff {f : ε → ε'} {a : α} : x.mapError f = .ok a ↔ x = .ok a := by
  cases x with
  | error e => simp [Except.mapError]
  | ok b => simp [Except.mapError]

/-- An error that is retold was an error before. -/
theorem Except.mapError_eq_error_iff {f : ε → ε'} {e' : ε'} :
    x.mapError f = .error e' ↔ ∃ e, x = .error e ∧ f e = e' := by
  cases x with
  | error e => simp [Except.mapError]
  | ok a => simp [Except.mapError]

end ComponentDivision
