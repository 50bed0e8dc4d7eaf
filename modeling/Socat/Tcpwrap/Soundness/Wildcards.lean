import Socat.Tcpwrap.Model.Pattern

/-! # Wildcards

A pattern matches what can be cut into one piece for each of its bytes.
-/

namespace Socat.Tcpwrap

open List

/-- What one byte of a pattern stands for. -/
def Piece (p : Char) (piece : Text) : Prop :=
  if p = '*' then True else if p = '?' then piece.length = 1 else piece = [p]

/-- The text can be cut into consecutive pieces, one for each byte of the pattern. -/
def Cuts (pat s : Text) : Prop := ∃ pieces, List.Forall₂ Piece pat pieces ∧ pieces.flatten = s

variable {p : Char} {pat q s : Text}

theorem cuts_nil : Cuts [] s ↔ s = [] := by
  simp [Cuts, eq_comm]

private theorem cuts_cons : Cuts (p :: pat) s ↔ ∃ piece rest, s = piece ++ rest ∧ Piece p piece ∧ Cuts pat rest := by
  constructor
  · rintro ⟨_, _ | ⟨first, others⟩, rfl⟩
    exact ⟨_, _, flatten_cons, first, _, others, rfl⟩
  · rintro ⟨piece, _, rfl, first, pieces, others, rfl⟩
    exact ⟨piece :: pieces, .cons first others, flatten_cons⟩

private theorem cuts_append : Cuts (pat ++ q) s ↔ ∃ u v, s = u ++ v ∧ Cuts pat u ∧ Cuts q v := by
  induction pat generalizing s with
  | nil => simp [cuts_nil]
  | cons p pat ih =>
    simp only [cons_append, cuts_cons, ih]
    constructor
    · rintro ⟨piece, _, rfl, first, u, v, rfl, front, back⟩
      exact ⟨piece ++ u, v, (append_assoc ..).symm, ⟨piece, u, rfl, first, front⟩, back⟩
    · rintro ⟨_, v, rfl, ⟨piece, u, rfl, first, front⟩, back⟩
      exact ⟨piece, u ++ v, append_assoc .., first, u, v, rfl, front, back⟩

/-- A star tries every suffix; the last star takes what is left. -/
theorem globMatch_star : globMatch ('*' :: pat) s = true ↔
    ∃ piece rest, s = piece ++ rest ∧ globMatch pat rest = true := by
  rw [globMatch.eq_def]
  dsimp only
  rw [if_pos rfl, Bool.or_eq_true, any_eq_true]
  constructor
  · rintro (last | ⟨rest, suffix, matched⟩)
    · exact ⟨s, [], (append_nil s).symm, by rw [List.isEmpty_iff.mp last]; rfl⟩
    · obtain ⟨piece, cut⟩ := (mem_tails _ _).mp suffix
      exact ⟨piece, rest, cut.symm, matched⟩
  · rintro ⟨piece, rest, rfl, matched⟩
    exact .inr ⟨rest, (mem_tails _ _).mpr (suffix_append ..), matched⟩

/-- Any other byte takes the next one of the text. -/
private theorem globMatch_byte (plain : p ≠ '*') : globMatch (p :: pat) s = true ↔
    ∃ piece rest, s = piece ++ rest ∧ Piece p piece ∧ globMatch pat rest = true := by
  rw [globMatch.eq_def (p :: pat)]
  dsimp only
  rw [if_neg plain]
  simp only [Piece, if_neg plain]
  constructor
  · intro matched
    cases s with
    | nil => cases matched
    | cons c rest =>
      simp only [Bool.and_eq_true, Bool.or_eq_true, decide_eq_true_eq] at matched
      refine ⟨[c], rest, rfl, ?_, matched.2⟩
      split_ifs with any
      · rfl
      · rw [matched.1.resolve_left any]
  · rintro ⟨piece, rest, rfl, fits, matched⟩
    split_ifs at fits with any
    · obtain ⟨c, rfl⟩ := length_eq_one_iff.mp fits
      simp [any, matched]
    · simp [fits, matched]

theorem globMatch_eq_cuts (pat s : Text) : globMatch pat s = true ↔ Cuts pat s := by
  induction pat generalizing s with
  | nil => rw [globMatch, List.isEmpty_iff, cuts_nil]
  | cons p pat ih =>
    simp only [cuts_cons, ← ih]
    by_cases star : p = '*'
    · subst star
      simp [globMatch_star, Piece]
    · exact globMatch_byte star

/-- Wildcard matching finds a cut of the text if there is one, and a star splits pattern and text. -/
theorem globMatch_cuts (pat s : Text) : (globMatch pat s = true ↔ Cuts pat s) ∧
    ∀ p q, globMatch (p ++ '*' :: q) s = true ↔
      ∃ u w v, s = u ++ w ++ v ∧ globMatch p u = true ∧ globMatch q v = true := by
  refine ⟨globMatch_eq_cuts pat s, fun p q => ?_⟩
  simp only [globMatch_eq_cuts, cuts_append, cuts_cons, Piece, if_true, true_and]
  constructor
  · rintro ⟨u, _, rfl, front, w, v, rfl, back⟩
    exact ⟨u, w, v, (append_assoc ..).symm, front, back⟩
  · rintro ⟨u, w, v, rfl, front, back⟩
    exact ⟨u, w ++ v, append_assoc .., front, w, v, rfl, back⟩

end Socat.Tcpwrap
