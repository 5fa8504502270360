import Mathlib.Tactic.Common

/-!
# Computations that may fail

What it takes for a computation in `Except` to succeed, one lemma for each way to compose: with these a
function written in steps is taken apart without unfolding the monad.
-/

namespace GmvPjsip.Lib

variable {ε α β : Type}

theorem bind_eq_ok (x : Except ε α) (f : α → Except ε β) (b : β) :
    (x >>= f) = .ok b ↔ ∃ a, x = .ok a ∧ f a = .ok b := by
  cases x <;> simp [bind, Except.bind]

theorem pure_eq_ok (a b : α) : (pure a : Except ε α) = .ok b ↔ a = b := by
  simp [pure, Except.pure]

theorem map_eq_ok (f : α → β) (x : Except ε α) (b : β) :
    (f <$> x) = .ok b ↔ ∃ a, x = .ok a ∧ f a = b := by
  cases x <;> simp [Functor.map, Except.map]

/-- A step that only checks. -/
theorem ite_throw_eq_ok {c : Prop} [Decidable c] (e : ε) (x : Except ε α) (b : α) :
    (if c then throw e else x) = .ok b ↔ ¬ c ∧ x = .ok b := by
  by_cases h : c <;> simp [h]

end GmvPjsip.Lib
