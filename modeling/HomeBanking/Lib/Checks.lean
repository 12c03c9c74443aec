import Mathlib.Tactic.Common

/-!
# Programs that check and leave

A program in `Except` goes through checks that leave with an error, and through
calls that may do so. What must have held when it returned, and where an error
it left with can come from.
-/

namespace Checks

variable {ε : Type*} {α β : Type}

theorem bind_eq_ok {x : Except ε α} {f : α → Except ε β} {b : β} :
    (x >>= f) = .ok b ↔ ∃ a, x = .ok a ∧ f a = .ok b := by
  cases x with
  | error e =>
      constructor
      · intro h
        cases h
      · rintro ⟨_, h, _⟩
        cases h
  | ok a =>
      constructor
      · intro h
        exact ⟨a, rfl, h⟩
      · rintro ⟨_, h, hf⟩
        cases h
        exact hf

theorem bind_eq_error {x : Except ε α} {f : α → Except ε β} {e : ε} :
    (x >>= f) = .error e ↔ x = .error e ∨ ∃ a, x = .ok a ∧ f a = .error e := by
  cases x with
  | error e' =>
      constructor
      · intro h
        exact .inl (congrArg Except.error (Except.error.inj h))
      · rintro (h | ⟨_, h, _⟩)
        · exact congrArg Except.error (Except.error.inj h)
        · cases h
  | ok a =>
      constructor
      · intro h
        exact .inr ⟨a, rfl, h⟩
      · rintro (h | ⟨_, h, hf⟩)
        · cases h
        · cases h
          exact hf

theorem map_eq_ok {x : Except ε α} {f : α → β} {b : β} :
    x.map f = .ok b ↔ ∃ a, x = .ok a ∧ f a = b := by
  cases x with
  | error e =>
      constructor
      · intro h
        cases h
      · rintro ⟨_, h, _⟩
        cases h
  | ok a =>
      constructor
      · intro h
        exact ⟨a, rfl, Except.ok.inj h⟩
      · rintro ⟨_, h, hf⟩
        cases h
        exact congrArg Except.ok hf

section Check

variable {c : Prop} [Decidable c] {e e' : ε} {f : α → Except ε β} {x : Except ε β} {b : β}

/-- A check that leaves. -/
theorem check_eq_ok :
    (if c then (throw e : Except ε α) >>= f else x) = .ok b ↔ ¬ c ∧ x = .ok b := by
  split
  · rename_i hc
    constructor
    · intro h
      cases h
    · intro h
      exact absurd hc h.1
  · rename_i hc
    constructor
    · intro h
      exact ⟨hc, h⟩
    · intro h
      exact h.2

/-- A check that leaves, at the end of a function. -/
theorem last_check_eq_ok : (if c then throw e else x) = .ok b ↔ ¬ c ∧ x = .ok b := by
  split
  · rename_i hc
    constructor
    · intro h
      cases h
    · intro h
      exact absurd hc h.1
  · rename_i hc
    constructor
    · intro h
      exact ⟨hc, h⟩
    · intro h
      exact h.2

/-- A check leaves with its own error or goes on. -/
theorem check_eq_error
    (h : (if c then (throw e : Except ε α) >>= f else x) = .error e') :
    e' = e ∨ x = .error e' := by
  split at h
  · exact .inl (Except.error.inj h).symm
  · exact .inr h

end Check

end Checks
