import Mathlib.Logic.Basic
import Mathlib.Order.Defs.Unbundled

/-! # Computations that fail and keep their state

Code in the style of Go changes its state, returns an error, and leaves the changes in place. Such
code is an `EStateM` computation whose error branch also carries a state. `Ends x s Q E` says how
`x` ends when started in `s`: it returns with `Q` or fails with `E`. The rules below take a
computation apart; `Respects R x` is the case in which both ways to end are related to the start by
one transitive relation, the shape of a frame or of an invariant.
-/

namespace Socat.Machine

variable {ε σ α β : Type}

/-- Fail with `e` when the condition holds. -/
def throwIf (c : Prop) [Decidable c] (e : ε) : EStateM ε σ Unit := if c then throw e else pure ()

/-- Run a computation only when the condition holds. -/
def runIf (c : Prop) [Decidable c] (x : EStateM ε σ Unit) : EStateM ε σ Unit :=
  if c then x else pure ()

/-- Run a computation and hand its error to the caller as a value. -/
def attempt (x : EStateM ε σ α) : EStateM ε σ (Except ε α) := fun s =>
  match x s with
  | .ok a s => .ok (.ok a) s
  | .error e s => .ok (.error e) s

/-- The value of a pure computation that may fail. -/
def lift (x : Except ε α) : EStateM ε σ α :=
  match x with
  | .ok a => pure a
  | .error e => throw e

/-- Started in `s`, the computation returns with `Q` or fails with `E`. -/
def Ends (x : EStateM ε σ α) (s : σ) (Q : α → σ → Prop) (E : ε → σ → Prop) : Prop :=
  match x s with
  | .ok a s' => Q a s'
  | .error e s' => E e s'

/-- The state a computation ends in, returned or failed. -/
def final (x : EStateM ε σ α) (s : σ) : σ :=
  match x s with
  | .ok _ s' => s'
  | .error _ s' => s'

section Rules

variable {s : σ} {Q : α → σ → Prop} {E : ε → σ → Prop}

@[simp] theorem ends_pure {a : α} : Ends (pure a : EStateM ε σ α) s Q E ↔ Q a s := Iff.rfl

@[simp] theorem ends_throw {e : ε} : Ends (throw e : EStateM ε σ α) s Q E ↔ E e s := Iff.rfl

@[simp] theorem ends_get {Q : σ → σ → Prop} : Ends (get : EStateM ε σ σ) s Q E ↔ Q s s := Iff.rfl

@[simp] theorem ends_modify {change : σ → σ} {Q : PUnit → σ → Prop} :
    Ends (modify change : EStateM ε σ PUnit) s Q E ↔ Q ⟨⟩ (change s) := Iff.rfl

@[simp] theorem ends_set {next : σ} {Q : PUnit → σ → Prop} :
    Ends (set next : EStateM ε σ PUnit) s Q E ↔ Q ⟨⟩ next := Iff.rfl

@[simp] theorem ends_bind {x : EStateM ε σ β} {f : β → EStateM ε σ α} :
    Ends (x >>= f) s Q E ↔ Ends x s (fun b s' => Ends (f b) s' Q E) E := by
  unfold Ends
  show (match EStateM.bind x f s with | .ok a s' => Q a s' | .error e s' => E e s') ↔ _
  unfold EStateM.bind
  cases x s <;> rfl

@[simp] theorem ends_ite {c : Prop} [Decidable c] {x y : EStateM ε σ α} :
    Ends (if c then x else y) s Q E ↔ if c then Ends x s Q E else Ends y s Q E := by
  split <;> rfl

@[simp] theorem ends_throwIf {c : Prop} [Decidable c] {e : ε} {Q : Unit → σ → Prop} :
    Ends (throwIf c e) s Q E ↔ (c → E e s) ∧ (¬c → Q () s) := by
  unfold throwIf
  by_cases holds : c <;> simp [holds]

/-- A check that throws, before the rest. -/
theorem ends_guard {c : Prop} [Decidable c] {e : ε} {f : Unit → EStateM ε σ α} (refused : E e s)
    (rest : ¬c → Ends (f ()) s Q E) : Ends (throwIf c e >>= f) s Q E := by
  rw [ends_bind, ends_throwIf]
  exact ⟨fun _ => refused, rest⟩

@[simp] theorem ends_runIf {c : Prop} [Decidable c] {x : EStateM ε σ Unit} {Q : Unit → σ → Prop} :
    Ends (runIf c x) s Q E ↔ (c → Ends x s Q E) ∧ (¬c → Q () s) := by
  unfold runIf
  by_cases holds : c <;> simp [holds]

@[simp] theorem ends_attempt {x : EStateM ε σ α} {Q : Except ε α → σ → Prop} :
    Ends (attempt x) s Q E ↔ Ends x s (fun a => Q (.ok a)) (fun e => Q (.error e)) := by
  unfold Ends attempt
  cases x s <;> rfl

@[simp] theorem ends_lift {x : Except ε α} :
    Ends (lift x) s Q E ↔ (∀ a, x = .ok a → Q a s) ∧ (∀ e, x = .error e → E e s) := by
  cases x with
  | ok a => simp [lift]
  | error e => simp [lift]

theorem ends_map {x : EStateM ε σ β} {f : β → α} : Ends (f <$> x) s Q E ↔ Ends x s (fun b => Q (f b)) E := by
  unfold Ends
  show (match EStateM.map f x s with | .ok a s' => Q a s' | .error e s' => E e s') ↔ _
  unfold EStateM.map
  cases x s <;> rfl

theorem Ends.mono {x : EStateM ε σ α} {Q' : α → σ → Prop} {E' : ε → σ → Prop}
    (ends : Ends x s Q E) (onReturn : ∀ a s', Q a s' → Q' a s')
    (onError : ∀ e s', E e s' → E' e s') : Ends x s Q' E' := by
  unfold Ends at *
  cases h : x s with
  | ok a s' => simp only [h] at ends ⊢; exact onReturn a s' ends
  | error e s' => simp only [h] at ends ⊢; exact onError e s' ends

theorem Ends.imp {x : EStateM ε σ α} {Q' : α → σ → Prop} (ends : Ends x s Q E)
    (onReturn : ∀ a s', Q a s' → Q' a s') : Ends x s Q' E := ends.mono onReturn fun _ _ => id

theorem Ends.and {x : EStateM ε σ α} {Q' : α → σ → Prop} {E' : ε → σ → Prop}
    (first : Ends x s Q E) (second : Ends x s Q' E') :
    Ends x s (fun a s' => Q a s' ∧ Q' a s') (fun e s' => E e s' ∧ E' e s') := by
  unfold Ends at *
  cases h : x s <;> simp only [h] at * <;> exact ⟨first, second⟩

theorem Ends.ok {x : EStateM ε σ α} {a : α} {s' : σ} (ends : Ends x s Q E) (outcome : x s = .ok a s') : Q a s' := by
  simpa only [Ends, outcome] using ends

theorem Ends.error {x : EStateM ε σ α} {e : ε} {s' : σ} (ends : Ends x s Q E)
    (outcome : x s = .error e s') : E e s' := by
  simpa only [Ends, outcome] using ends

/-- What holds whichever way the computation ends holds of its final state. -/
theorem Ends.final {x : EStateM ε σ α} {P : σ → Prop}
    (ends : Ends x s (fun _ => P) (fun _ => P)) : P (final x s) := by
  unfold Ends at ends
  unfold Machine.final
  cases h : x s <;> simp only [h] at ends ⊢ <;> exact ends

/-- What both ways to end presuppose may be assumed of the start. -/
theorem ends_assuming {x : EStateM ε σ α} {P : Prop} (given : P → Ends x s Q E) :
    Ends x s (fun a s' => P → Q a s') (fun e s' => P → E e s') := by
  unfold Ends at *
  cases h : x s <;> simpa only [h] using given

theorem ends_of_cases {x : EStateM ε σ α} (onReturn : ∀ a s', x s = .ok a s' → Q a s')
    (onError : ∀ e s', x s = .error e s' → E e s') : Ends x s Q E := by
  unfold Ends
  cases h : x s with
  | ok a s' => exact onReturn a s' h
  | error e s' => exact onError e s' h

end Rules

/-! ## Relations every outcome respects -/

/-- Both ways to end are related to the start. -/
def Respects (R : σ → σ → Prop) (x : EStateM ε σ α) : Prop :=
  ∀ s, Ends x s (fun _ => R s) (fun _ => R s)

/-- A part of the state stays as it is. -/
def Unchanged {τ : Type} (part : σ → τ) (s s' : σ) : Prop := part s' = part s

section

variable {τ : Type} {part : σ → τ}

instance : Std.Refl (Unchanged part) := ⟨fun _ => rfl⟩

theorem Unchanged.trans {a b c : σ} (first : Unchanged part a b) (second : Unchanged part b c) :
    Unchanged part a c := Eq.trans second first

instance : IsTrans σ (Unchanged part) := ⟨fun _ _ _ => Unchanged.trans⟩

end

section

variable {R S : σ → σ → Prop}

theorem Respects.weaken {x : EStateM ε σ α} (respects : Respects R x)
    (weaker : ∀ s s', R s s' → S s s') : Respects S x :=
  fun s => (respects s).mono (fun _ s' => weaker s s') (fun _ s' => weaker s s')

theorem respects_pure [Std.Refl R] (a : α) : Respects R (pure a : EStateM ε σ α) :=
  fun s => ends_pure.mpr (Std.Refl.refl s)

theorem respects_throw [Std.Refl R] (e : ε) : Respects R (throw e : EStateM ε σ α) :=
  fun s => ends_throw.mpr (Std.Refl.refl s)

theorem respects_throwIf [Std.Refl R] (c : Prop) [Decidable c] (e : ε) :
    Respects R (throwIf c e : EStateM ε σ Unit) :=
  fun s => ends_throwIf.mpr ⟨fun _ => Std.Refl.refl s, fun _ => Std.Refl.refl s⟩

theorem respects_get [Std.Refl R] : Respects R (get : EStateM ε σ σ) :=
  fun s => ends_get.mpr (Std.Refl.refl s)

theorem respects_lift [Std.Refl R] (x : Except ε α) : Respects R (lift x : EStateM ε σ α) :=
  fun s => ends_lift.mpr ⟨fun _ _ => Std.Refl.refl s, fun _ _ => Std.Refl.refl s⟩

theorem respects_modify {change : σ → σ} (related : ∀ s, R s (change s)) :
    Respects R (modify change : EStateM ε σ PUnit) := fun s => ends_modify.mpr (related s)

section

variable [IsTrans σ R] {x : EStateM ε σ β} {f : β → EStateM ε σ α} {Q : α → σ → Prop} {s₀ s : σ}

/-- The rest of a computation, related to an earlier start. -/
theorem Respects.from (respects : Respects R x) (before : R s₀ s) :
    Ends x s (fun _ => R s₀) (fun _ => R s₀) :=
  (respects s).mono (fun _ _ => IsTrans.trans _ _ _ before) (fun _ _ => IsTrans.trans _ _ _ before)

/-- A first part that depends on the state, and a rest that does not. -/
theorem Ends.andThen (first : Ends x s (fun _ => R s) (fun _ => R s)) (rest : ∀ b, Respects R (f b)) :
    Ends (x >>= f) s (fun _ => R s) (fun _ => R s) :=
  ends_bind.mpr (first.imp fun b _ step => (rest b).from step)

theorem respects_bind (first : Respects R x) (rest : ∀ b, Respects R (f b)) : Respects R (x >>= f) :=
  fun s => (first s).andThen rest

/-- A step on the way from `s₀`, to which failures are compared. -/
theorem Ends.next {P : β → σ → Prop} (step : Ends x s (fun b s' => P b s' ∧ R s s') (fun _ => R s)) (before : R s₀ s)
    (rest : ∀ b s', P b s' → R s₀ s' → Ends (f b) s' Q (fun _ => R s₀)) : Ends (x >>= f) s Q (fun _ => R s₀) := by
  rw [ends_bind]
  exact step.mono (fun b s' outcome => rest b s' outcome.1 (IsTrans.trans _ _ _ before outcome.2))
    (fun _ _ failed => IsTrans.trans _ _ _ before failed)

theorem Respects.next (respects : Respects R x) (before : R s₀ s)
    (rest : ∀ b s', R s₀ s' → Ends (f b) s' Q (fun _ => R s₀)) : Ends (x >>= f) s Q (fun _ => R s₀) :=
  ends_bind.mpr ((respects.from before).imp rest)

end

/-- Two parts that respect relations of their own respect a relation that both compose to. -/
theorem respects_compose {S T : σ → σ → Prop} [Std.Refl S] {x : EStateM ε σ β} {f : β → EStateM ε σ α}
    (first : Respects R x) (rest : ∀ b, Respects S (f b)) (compose : ∀ a b c, R a b → S b c → T a c) :
    Respects T (x >>= f) := by
  refine fun s => ends_bind.mpr ((first s).mono (fun b mid before => ?_) fun _ mid before => ?_)
  · exact (rest b mid).mono (fun _ _ => compose s mid _ before) (fun _ _ => compose s mid _ before)
  · exact compose s mid mid before (Std.Refl.refl mid)

/-- After reading the state, the rest may use what it read about the state it runs in. -/
theorem respects_get_bind {f : σ → EStateM ε σ α}
    (rest : ∀ s, Ends (f s) s (fun _ => R s) (fun _ => R s)) : Respects R (get >>= f) :=
  fun s => ends_bind.mpr (ends_get.mpr (rest s))

theorem respects_guard [Std.Refl R] [IsTrans σ R] {c : Prop} [Decidable c] {e : ε} {f : Unit → EStateM ε σ α}
    (rest : ∀ u, Respects R (f u)) : Respects R (throwIf c e >>= f) := respects_bind (respects_throwIf c e) rest

theorem respects_attempt {x : EStateM ε σ α} (respects : Respects R x) :
    Respects R (attempt x) := fun s => ends_attempt.mpr (respects s)

theorem respects_runIf [Std.Refl R] {c : Prop} [Decidable c] {x : EStateM ε σ Unit}
    (respects : Respects R x) : Respects R (runIf c x) :=
  fun s => ends_runIf.mpr ⟨fun _ => respects s, fun _ => Std.Refl.refl s⟩

theorem respects_ite {c : Prop} [Decidable c] {x y : EStateM ε σ α} (yes : Respects R x)
    (no : Respects R y) : Respects R (if c then x else y) := by
  split
  · exact yes
  · exact no

end

end Socat.Machine
