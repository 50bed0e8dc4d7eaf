import Mathlib.Logic.Basic

/-! # Successful computations

What it means for a computation in `Except` to return a value, for each way it is put together.
-/

namespace Except

universe u

variable {ε α β : Type u} {e : ε} {a : α} {b : β}

theorem bind_eq_ok {x : Except ε α} {f : α → Except ε β} : x >>= f = .ok b ↔ ∃ a, x = .ok a ∧ f a = .ok b := by
  cases x with
  | error e | ok a => simp [bind, Except.bind]

@[simp] theorem pure_eq_ok {a' : α} : (pure a' : Except ε α) = .ok a ↔ a' = a := by
  simp [pure, Except.pure]

@[simp] theorem throw_ne_ok : ¬(throw e : Except ε α) = .ok a := by
  simp [throw, throwThe, MonadExceptOf.throw]

theorem ite_error_eq_ok {c : Prop} [Decidable c] {x : Except ε α} :
    (if c then .error e else x) = .ok a ↔ ¬c ∧ x = .ok a := by
  split <;> simp [*]

/-- A guard before the rest of a computation. -/
theorem ite_throw_bind_eq_ok {c : Prop} [Decidable c] {f : α → Except ε β} {x : Except ε β} :
    (if c then throw e >>= f else x) = .ok b ↔ ¬c ∧ x = .ok b := by
  split <;> simp [*, bind_eq_ok]

theorem toOption_eq_some {x : Except ε α} : x.toOption = some a ↔ x = .ok a := by
  cases x with
  | error e => constructor <;> intro found <;> cases found
  | ok value =>
    constructor <;> intro found
    · exact congrArg ok (Option.some.inj found)
    · exact congrArg some (ok.inj found)

end Except
