import Mathlib.Logic.Relation

/-! # Machines that take actions

A machine is given by what each action does to a state, `none` where the action is not enabled. Its runs
are the sequences of enabled actions. A script of actions can be evaluated; whatever it evaluates to is
reached.
-/

namespace Socat.Machine

variable {σ α : Type}

/-- A step behind a condition was taken. -/
theorem guarded {c : Prop} [Decidable c] {s s' : σ} (taken : (if c then some s else none) = some s') : c ∧ s = s' := by
  obtain ⟨enabled, same⟩ := Option.ite_none_right_eq_some.mp taken
  exact ⟨enabled, Option.some.inj same⟩

/-- Some action leads from one state to the other. -/
def Acted (step : σ → α → Option σ) (s s' : σ) : Prop := ∃ action, step s action = some s'

/-- Every sequence of enabled actions. -/
abbrev Reaches (step : σ → α → Option σ) : σ → σ → Prop := Relation.ReflTransGen (Acted step)

/-- The state after a script. -/
def follow (step : σ → α → Option σ) : List α → σ → Option σ
  | [], s => some s
  | action :: rest, s => (step s action).bind (follow step rest)

theorem reaches_follow {step : σ → α → Option σ} {script : List α} {s s' : σ}
    (followed : follow step script s = some s') : Reaches step s s' := by
  induction script generalizing s with
  | nil => exact Option.some.inj followed ▸ .refl
  | cons action rest ih =>
    obtain ⟨next, taken, later⟩ := Option.bind_eq_some_iff.mp followed
    exact .head ⟨action, taken⟩ (ih later)

/-- What every action keeps of the actions so far and the state holds after a script. -/
theorem follow_invariant {step : σ → α → Option σ} {P : List α → σ → Prop}
    (keeps : ∀ past s action s', P past s → step s action = some s' → P (past ++ [action]) s') {script : List α}
    {s s' : σ} (followed : follow step script s = some s') (start : P [] s) : P script s' := by
  suffices onward : ∀ past, P past s → P (past ++ script) s' from onward [] start
  clear start
  induction script generalizing s with
  | nil =>
    intro past here
    rw [List.append_nil]
    exact Option.some.inj followed ▸ here
  | cons action rest ih =>
    intro past here
    obtain ⟨next, taken, later⟩ := Option.bind_eq_some_iff.mp followed
    rw [List.append_cons]
    exact ih later _ (keeps past s action next here taken)

/-- What every action keeps holds in every reached state. -/
theorem Reaches.invariant {step : σ → α → Option σ} {P : σ → Prop}
    (keeps : ∀ s action s', P s → step s action = some s' → P s') {s s' : σ} (reaches : Reaches step s s')
    (start : P s) : P s' := by
  induction reaches with
  | refl => exact start
  | tail _ acted ih =>
    obtain ⟨action, taken⟩ := acted
    exact keeps _ action _ ih taken

end Socat.Machine
