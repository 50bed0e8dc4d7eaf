import Socat.Machine.Fallible

/-! # Runs that return

What it means for a computation started in `s` to return a value in a state, for each way it is put
together. Read from left to right these take a successful run apart into its steps.
-/

namespace Socat.Machine

variable {ε σ α β : Type} {s t : σ} {a : α} {b : β} {e : ε}

theorem bind_returns {x : EStateM ε σ α} {f : α → EStateM ε σ β} :
    (x >>= f) s = .ok b t ↔ ∃ a mid, x s = .ok a mid ∧ f a mid = .ok b t := by
  show EStateM.bind x f s = .ok b t ↔ _
  unfold EStateM.bind
  cases x s with
  | ok a mid =>
    constructor
    · exact fun later => ⟨a, mid, rfl, later⟩
    · rintro ⟨_, _, ⟨⟩, later⟩
      exact later
  | error e mid => simp

@[simp] theorem pure_returns {a' : α} : (pure a' : EStateM ε σ α) s = .ok a t ↔ a' = a ∧ s = t := by
  show EStateM.Result.ok a' s = .ok a t ↔ _
  simp

@[simp] theorem throw_returns : ¬(throw e : EStateM ε σ α) s = .ok a t := nofun

@[simp] theorem get_returns {read : σ} : (get : EStateM ε σ σ) s = .ok read t ↔ s = read ∧ s = t := by
  show EStateM.Result.ok s s = .ok read t ↔ _
  simp

@[simp] theorem set_returns {next : σ} {u : PUnit} : (set next : EStateM ε σ PUnit) s = .ok u t ↔ next = t := by
  show EStateM.Result.ok _ next = .ok u t ↔ _
  simp

@[simp] theorem modify_returns {change : σ → σ} {u : PUnit} :
    (modify change : EStateM ε σ PUnit) s = .ok u t ↔ change s = t := by
  show EStateM.Result.ok _ (change s) = .ok u t ↔ _
  simp

@[simp] theorem throwIf_returns {c : Prop} [Decidable c] {u : Unit} :
    (throwIf c e : EStateM ε σ Unit) s = .ok u t ↔ ¬c ∧ s = t := by
  unfold throwIf
  split <;> simp [*]

theorem runIf_returns {c : Prop} [Decidable c] {x : EStateM ε σ Unit} {u : Unit} :
    runIf c x s = .ok u t ↔ (c ∧ x s = .ok u t) ∨ (¬c ∧ s = t) := by
  unfold runIf
  split <;> simp [*]

@[simp] theorem lift_returns {x : Except ε α} : (lift x : EStateM ε σ α) s = .ok a t ↔ x = .ok a ∧ s = t := by
  cases x <;> simp [lift]

/-- Reading the state is no step of its own. -/
theorem get_bind_run {f : σ → EStateM ε σ α} : (get >>= f) s = f s s := rfl

/-- A guard that passes is no step of its own. -/
theorem throwIf_bind_run {c : Prop} [Decidable c] (passes : ¬c) {f : Unit → EStateM ε σ α} :
    (throwIf c e >>= f) s = f () s := by
  unfold throwIf
  rw [if_neg passes]
  rfl

theorem throwIf_bind_error {c : Prop} [Decidable c] (holds : c) {f : Unit → EStateM ε σ α} :
    (throwIf c e >>= f) s = .error e s := by
  unfold throwIf
  rw [if_pos holds]
  rfl

theorem ends_congr {x y : EStateM ε σ α} {Q : α → σ → Prop} {E : ε → σ → Prop} (same : x s = y s) :
    Ends x s Q E ↔ Ends y s Q E := by
  unfold Ends
  rw [same]

end Socat.Machine
