/-
# Computations that may fail

How a body in `Except` that returned got there: every step before it returned too.
-/

import Mathlib.Tactic.Common

namespace Fallible

variable {α β ε δ : Type}
variable {x : Except ε α}

theorem bind_eq_ok {f : α → Except ε β} {out : β} :
    x >>= f = .ok out ↔ ∃ a, x = .ok a ∧ f a = .ok out := by
  cases x with
  | error err =>
    constructor
    · intro h
      cases h
    · rintro ⟨a, h, -⟩
      cases h
  | ok a =>
    constructor
    · intro h
      exact ⟨a, rfl, h⟩
    · rintro ⟨a', h, hout⟩
      cases h
      exact hout

theorem map_eq_ok {f : α → β} {out : β} : f <$> x = .ok out ↔ ∃ a, x = .ok a ∧ f a = out := by
  cases x with
  | error err =>
    constructor
    · intro h
      cases h
    · rintro ⟨a, h, -⟩
      cases h
  | ok a =>
    constructor
    · intro h
      cases h
      exact ⟨a, rfl, rfl⟩
    · rintro ⟨a', h, rfl⟩
      cases h
      rfl

theorem mapError_eq_ok {f : ε → δ} {out : α} : x.mapError f = .ok out ↔ x = .ok out := by
  cases x with
  | error err => constructor <;> intro h <;> cases h
  | ok a =>
    constructor
    · intro h
      cases h
      rfl
    · intro h
      cases h
      rfl

end Fallible
