import Socat.Machine.Fallible

/-! # Disciplines

A discipline fixes what a class of computations may do to a state: which states they start from,
how the state after a return is related to the start, and how the state after an error is. The
relations compose, so a computation obeys a discipline as soon as its parts do, and only the parts
have to be looked at.
-/

namespace Socat.Machine

structure Discipline (σ : Type) where
  guard : σ → Prop
  done : σ → σ → Prop
  failed : σ → σ → Prop
  refl : ∀ s, done s s
  trans : ∀ {a b c}, done a b → done b c → done a c
  keeps : ∀ {a b}, guard a → done a b → guard b
  fails : ∀ {a b c}, done a b → failed b c → failed a c
  stops : ∀ s, failed s s

namespace Discipline

variable {σ ε α β : Type}

instance (D : Discipline σ) : Std.Refl D.done := ⟨D.refl⟩

instance (D : Discipline σ) : IsTrans σ D.done := ⟨fun _ _ _ => D.trans⟩

/-- Returns keep an invariant, and an error leaves at least something weaker. -/
def keeping (I J : σ → Prop) (weaker : ∀ s, I s → J s) : Discipline σ where
  guard _ := True
  done s s' := I s → I s'
  failed s s' := I s → J s'
  refl _ := id
  trans first second kept := second (first kept)
  keeps _ _ := trivial
  fails first second kept := second (first kept)
  stops := weaker

end Discipline

section Rules

variable {σ ε α β : Type} {D : Discipline σ}

/-- From every state the discipline admits, both ways to end are as it promises. -/
def Obeys (D : Discipline σ) (x : EStateM ε σ α) : Prop :=
  ∀ s, D.guard s → Ends x s (fun _ => D.done s) (fun _ => D.failed s)

theorem Obeys.weaken {D' : Discipline σ} {x : EStateM ε σ α} (obeys : Obeys D x)
    (guard : ∀ s, D'.guard s → D.guard s) (done : ∀ a b, D.guard a → D.done a b → D'.done a b)
    (failed : ∀ a b, D.guard a → D.failed a b → D'.failed a b) : Obeys D' x :=
  fun s admitted => (obeys s (guard s admitted)).mono
    (fun _ s' => done s s' (guard s admitted)) (fun _ s' => failed s s' (guard s admitted))

theorem obeys_pure (a : α) : Obeys D (pure a : EStateM ε σ α) := fun s _ => ends_pure.mpr (D.refl s)

theorem obeys_throw (e : ε) : Obeys D (throw e : EStateM ε σ α) := fun s _ => ends_throw.mpr (D.stops s)

theorem obeys_throwIf (c : Prop) [Decidable c] (e : ε) : Obeys D (throwIf c e : EStateM ε σ Unit) :=
  fun s _ => ends_throwIf.mpr ⟨fun _ => D.stops s, fun _ => D.refl s⟩

/-- The rest of a computation, with its relation to the start. -/
theorem Obeys.from {x : EStateM ε σ α} {start s : σ} (obeys : Obeys D x)
    (admitted : D.guard start) (before : D.done start s) :
    Ends x s (fun _ => D.done start) (fun _ => D.failed start) :=
  (obeys s (D.keeps admitted before)).mono (fun _ _ => D.trans before) (fun _ _ => D.fails before)

theorem obeys_bind {x : EStateM ε σ β} {f : β → EStateM ε σ α} (first : Obeys D x)
    (rest : ∀ b, Obeys D (f b)) : Obeys D (x >>= f) := fun s admitted =>
  ends_bind.mpr ((first s admitted).imp fun b _ before => (rest b).from admitted before)

theorem obeys_ite {c : Prop} [Decidable c] {x y : EStateM ε σ α} (yes : c → Obeys D x)
    (no : ¬c → Obeys D y) : Obeys D (if c then x else y) := by
  split
  · exact yes ‹_›
  · exact no ‹_›

end Rules

end Socat.Machine
