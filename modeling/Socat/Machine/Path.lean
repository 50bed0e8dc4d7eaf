import Mathlib.Data.List.Infix

/-! # Labelled paths

A path is a finite run of a labelled step relation that carries exactly its labels. Paths compose at
a shared state and can be cut anywhere, so every contiguous part of the labels belongs to a path of its
own.
-/

namespace Socat.Machine

variable {σ α : Type}

/-- A finite run with its labels. -/
inductive Path (step : σ → α → σ → Prop) : σ → List α → σ → Prop
  | nil (s : σ) : Path step s [] s
  | cons {s mid t : σ} {a : α} {rest : List α} :
      step s a mid → Path step mid rest t → Path step s (a :: rest) t

namespace Path

variable {step : σ → α → σ → Prop} {s mid t : σ}

theorem append {first second : List α} (left : Path step s first mid) (right : Path step mid second t) :
    Path step s (first ++ second) t := by
  induction left with
  | nil => exact right
  | cons taken _ ih => exact .cons taken (ih right)

theorem append_iff {first second : List α} :
    Path step s (first ++ second) t ↔ ∃ mid, Path step s first mid ∧ Path step mid second t := by
  constructor
  · intro path
    induction first generalizing s with
    | nil => exact ⟨s, .nil s, path⟩
    | cons a rest ih =>
      cases path with
      | cons taken later =>
        obtain ⟨mid, left, right⟩ := ih later
        exact ⟨mid, .cons taken left, right⟩
  · rintro ⟨mid, left, right⟩
    exact left.append right

/-- A contiguous part of the labels is run from a state the path goes through. -/
theorem segment {labels part : List α} (path : Path step s labels t) (inside : part <:+: labels) :
    ∃ before prior after, Path step s prior before ∧ Path step before part after := by
  obtain ⟨prior, rest, rfl⟩ := inside
  obtain ⟨after, upTo, -⟩ := append_iff.mp path
  obtain ⟨before, first, middle⟩ := append_iff.mp upTo
  exact ⟨before, prior, after, first, middle⟩

theorem mono {step' : σ → α → σ → Prop} {labels : List α} (path : Path step s labels t)
    (weaker : ∀ s a t, step s a t → step' s a t) : Path step' s labels t := by
  induction path with
  | nil => exact .nil _
  | cons taken _ ih => exact .cons (weaker _ _ _ taken) ih

/-- What every step keeps holds at the end of a path. -/
theorem invariant {P : σ → Prop} (keeps : ∀ s a t, P s → step s a t → P t) {labels : List α}
    (path : Path step s labels t) (start : P s) : P t := by
  induction path with
  | nil => exact start
  | cons taken _ ih => exact ih (keeps _ _ _ start taken)

/-- Where every label has a step until a state stops, and every step lowers the rank, any choice of labels leads to
a state that stops. -/
theorem exists_stop {P stop : σ → Prop} {rank : σ → ℕ}
    (goes : ∀ s a, P s → ¬stop s → ∃ t, step s a t ∧ P t ∧ rank t < rank s) (start : P s) (choices : ℕ → α) :
    ∃ n ≤ rank s, ∃ t, Path step s ((List.range n).map choices) t ∧ stop t := by
  induction bound : rank s using Nat.strong_induction_on generalizing s choices with
  | _ limit ih =>
    by_cases stopped : stop s
    · exact ⟨0, Nat.zero_le _, s, .nil s, stopped⟩
    · obtain ⟨mid, taken, kept, lower⟩ := goes s (choices 0) start stopped
      obtain ⟨n, few, t, path, stops⟩ := ih (rank mid) (bound ▸ lower) kept (fun i => choices (i + 1)) rfl
      refine ⟨n + 1, by omega, t, ?_, stops⟩
      rw [List.range_succ_eq_map, List.map_cons, List.map_map]
      exact .cons taken path

end Path

end Socat.Machine
