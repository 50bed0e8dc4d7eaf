import Socat.Machine.Path

/-! # Deterministic machines with output

A machine takes an input in each step and answers it. Two machines whose states stay related answer every
sequence of inputs alike; a machine whose states stay related to those of a specification answers every
sequence of inputs as a path of the specification does.
-/

namespace Socat.Machine

variable {σ τ α β : Type*}

/-- The answers to a sequence of inputs, and the state after it. -/
def transduce (step : σ → α → β × σ) : σ → List α → List β × σ
  | s, [] => ([], s)
  | s, a :: rest => ((step s a).1 :: (transduce step (step s a).2 rest).1, (transduce step (step s a).2 rest).2)

variable {step : σ → α → β × σ} {step' : τ → α → β × τ}

@[simp] theorem transduce_nil (s : σ) : transduce step s [] = ([], s) := rfl

theorem transduce_append (s : σ) (first second : List α) :
    transduce step s (first ++ second) =
      ((transduce step s first).1 ++ (transduce step (transduce step s first).2 second).1,
        (transduce step (transduce step s first).2 second).2) := by
  induction first generalizing s with
  | nil => rfl
  | cons a rest ih => simp [transduce, ih]

/-- Related machines answer alike and stay related. -/
theorem transduce_simulates {R : σ → τ → Prop}
    (simulates : ∀ s t a, R s t → (step s a).1 = (step' t a).1 ∧ R (step s a).2 (step' t a).2) {s : σ} {t : τ}
    (related : R s t) (inputs : List α) :
    (transduce step s inputs).1 = (transduce step' t inputs).1 ∧
      R (transduce step s inputs).2 (transduce step' t inputs).2 := by
  induction inputs generalizing s t with
  | nil => exact ⟨rfl, related⟩
  | cons a rest ih =>
    obtain ⟨same, next⟩ := simulates s t a related
    obtain ⟨alike, final⟩ := ih next
    exact ⟨congrArg₂ _ same alike, final⟩

/-- The answers of a machine that simulates a specification are a run of it. -/
theorem transduce_refines {τ β : Type} {step : σ → α → β × σ} {spec : τ → β → τ → Prop} {R : σ → τ → Prop}
    (simulates : ∀ s t a, R s t → ∃ t', spec t (step s a).1 t' ∧ R (step s a).2 t') {s : σ} {t : τ}
    (related : R s t) (inputs : List α) :
    ∃ t', Path spec t (transduce step s inputs).1 t' ∧ R (transduce step s inputs).2 t' := by
  induction inputs generalizing s t with
  | nil => exact ⟨t, .nil t, related⟩
  | cons a rest ih =>
    obtain ⟨mid, taken, next⟩ := simulates s t a related
    obtain ⟨final, path, ended⟩ := ih next
    exact ⟨final, .cons taken path, ended⟩

end Socat.Machine
