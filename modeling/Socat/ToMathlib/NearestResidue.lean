import Mathlib.Data.Nat.Bitwise
import Mathlib.Data.Nat.Dist
import Mathlib.Data.Nat.ModEq

/-! # The nearest number in a residue class

A number known modulo a window and near to an expected one is the nearest in its class. Of two at the
same distance the larger counts as nearest.
-/

namespace Nat

/-- `n` is the number up to `bound` that lies nearest to `expected` among those with its residue. -/
structure Nearest (bound window residue expected n : ℕ) : Prop where
  le : n ≤ bound
  congruent : n % window = residue
  closest : ∀ m ≤ bound, m % window = residue → n.dist expected ≤ m.dist expected
  larger : ∀ m ≤ bound, m % window = residue → m.dist expected = n.dist expected → m ≤ n

theorem Nearest.unique {bound window residue expected n m : ℕ} (first : Nearest bound window residue expected n)
    (second : Nearest bound window residue expected m) : n = m := by
  have same : n.dist expected = m.dist expected :=
    le_antisymm (first.closest m second.le second.congruent) (second.closest n first.le first.congruent)
  exact le_antisymm (second.larger n first.le first.congruent same)
    (first.larger m second.le second.congruent same.symm)

/-- Less than half a window away there is no other candidate. -/
theorem nearest_of_near {bound half expected n : ℕ} (positive : 0 < half) (le : n ≤ bound) (above : expected < n + half)
    (below : n ≤ expected + half) : Nearest bound (2 * half) (n % (2 * half)) expected n := by
  have apart : ∀ m, m % (2 * half) = n % (2 * half) → m = n ∨ m + 2 * half ≤ n ∨ n + 2 * half ≤ m := by
    intro m same
    rcases lt_trichotomy m n with less | equal | more
    · have divides : 2 * half ∣ n - m := (Nat.modEq_iff_dvd' less.le).mp same
      have := Nat.le_of_dvd (by omega) divides
      omega
    · exact .inl equal
    · have divides : 2 * half ∣ m - n := (Nat.modEq_iff_dvd' more.le).mp same.symm
      have := Nat.le_of_dvd (by omega) divides
      omega
  refine ⟨le, rfl, fun m _ same => ?_, fun m _ same tie => ?_⟩
  · have := apart m same
    unfold dist
    omega
  · have := apart m same
    unfold dist at tie
    omega

/-- Clearing the low bits of a word and filling them in. -/
theorem and_complement_or {width bits e low : ℕ} (word : e < 2 ^ width) (short : bits ≤ width) (fits : low < 2 ^ bits) :
    e &&& (2 ^ width - 1 - (2 ^ bits - 1)) ||| low = e - e % 2 ^ bits + low := by
  have powers : 2 ^ bits ≤ 2 ^ width := Nat.pow_le_pow_right two_pos short
  have cleared : e &&& (2 ^ width - 1 - (2 ^ bits - 1)) = 2 ^ bits * (e / 2 ^ bits) := by
    refine Nat.eq_of_testBit_eq fun i => ?_
    have complement : 2 ^ width - 1 - (2 ^ bits - 1) = 2 ^ width - (2 ^ bits - 1 + 1) := by omega
    have smaller : 2 ^ bits - 1 < 2 ^ width := by
      have := Nat.two_pow_pos bits
      omega
    rw [Nat.testBit_and, Nat.testBit_two_pow_mul, Nat.testBit_div_two_pow, complement,
      Nat.testBit_two_pow_sub_succ smaller, Nat.testBit_two_pow_sub_one]
    by_cases high : bits ≤ i
    · rw [Nat.sub_add_cancel high]
      by_cases inside : i < width
      · simp [high, inside, Nat.not_lt.mpr high]
      · have outside : e.testBit i = false :=
          Nat.testBit_lt_two_pow (word.trans_le (Nat.pow_le_pow_right two_pos (Nat.not_lt.mp inside)))
        simp [outside]
    · simp [high, Nat.lt_of_not_le high]
  rw [cleared, ← Nat.two_pow_add_eq_or_of_lt fits]
  have := Nat.div_add_mod e (2 ^ bits)
  omega

end Nat
