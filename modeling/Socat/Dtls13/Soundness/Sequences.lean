import Socat.Dtls13.Soundness.Replay
import Socat.Machine.Transducer
import Socat.ToMathlib.NearestResidue

/-! # Sequence numbers of protected records

A record carries only the last byte or two of its sequence number, and the receiver takes the number
nearest to the one it expects. The replay window is a set of numbers: it takes a number that is not in the
set and not too far below the highest.
-/

namespace Socat.Dtls13

open Machine

/-! ## Reconstruction -/

/-- The candidate with the bits of the expected number above the truncated ones. -/
theorem candidate_toNat {size : ℕ} (sizes : size = 1 ∨ size = 2) {truncated : UInt64}
    (short : truncated.toNat < 2 ^ (8 * size)) (expected : UInt64) :
    (expected &&& ~~~((1 : UInt64) <<< UInt64.ofNat (8 * size) - 1) ||| truncated).toNat =
      expected.toNat - expected.toNat % 2 ^ (8 * size) + truncated.toNat := by
  have low : ((1 : UInt64) <<< UInt64.ofNat (8 * size) - 1).toNat = 2 ^ (8 * size) - 1 := by
    rcases sizes with rfl | rfl <;> rfl
  rw [UInt64.toNat_or, UInt64.toNat_and, UInt64.toNat_not, low]
  exact Nat.and_complement_or expected.toNat_lt (by rcases sizes with rfl | rfl <;> decide) short

/-- Nothing wraps around in 64 bits. -/
theorem reconstructSequence64_toNat {size : ℕ} (sizes : size = 1 ∨ size = 2) {truncated expected : UInt64}
    (short : truncated.toNat < 2 ^ (8 * size)) :
    (reconstructSequence64 truncated size expected).toNat =
      reconstructSequence truncated.toNat size expected.toNat := by
  have candidate := candidate_toNat sizes short expected
  have window : ((1 : UInt64) <<< UInt64.ofNat (8 * size)).toNat = 2 ^ (8 * size) := by
    rcases sizes with rfl | rfl <;> rfl
  have literal : (2 : ℕ) ^ (8 * size) = 256 ∨ (2 : ℕ) ^ (8 * size) = 65536 := by
    rcases sizes with rfl | rfl
    · exact .inl rfl
    · exact .inr rfl
  have bound := expected.toNat_lt
  unfold reconstructSequence64 reconstructSequence maxUint64
  dsimp only
  generalize (2 : ℕ) ^ (8 * size) = w at *
  generalize expected &&& ~~~((1 : UInt64) <<< UInt64.ofNat (8 * size) - 1) ||| truncated = c at candidate ⊢
  generalize (1 : UInt64) <<< UInt64.ofNat (8 * size) = v at window ⊢
  have top : (0xffffffffffffffff : UInt64).toNat = 2 ^ 64 - 1 := rfl
  have two : (2 : UInt64).toNat = 2 := rfl
  simp only [UInt64.le_iff_toNat_le, UInt64.lt_iff_toNat_lt, UInt64.toNat_div, UInt64.toNat_sub, UInt64.toNat_add,
    apply_ite UInt64.toNat, window, candidate, top, two]
  rcases literal with rfl | rfl <;> split_ifs <;> omega

/-- The choice between the candidate and its neighbours is right at every distance and at both ends. -/
theorem reconstructSequence_nearest {size truncated expected : ℕ} (sizes : size = 1 ∨ size = 2)
    (short : truncated < 2 ^ (8 * size)) (word : expected ≤ maxUint64) :
    Nat.Nearest maxUint64 (2 ^ (8 * size)) truncated expected (reconstructSequence truncated size expected) := by
  have exact : ∀ window, window = 2 ^ (8 * size) → Nat.Nearest maxUint64 window truncated expected
      (reconstructSequence truncated size expected) := by
    intro window same
    unfold reconstructSequence
    rw [← same] at short ⊢
    have literal : window = 256 ∨ window = 65536 := by
      rcases sizes with rfl | rfl
      · exact .inl same
      · exact .inr same
    clear same sizes
    unfold maxUint64 at word ⊢
    constructor
    · rcases literal with rfl | rfl <;> dsimp only <;> split_ifs <;> omega
    · rcases literal with rfl | rfl <;> dsimp only <;> split_ifs <;> omega
    · intro m below same
      unfold Nat.dist
      rcases literal with rfl | rfl <;> dsimp only <;> split_ifs <;> omega
    · intro m below same tie
      unfold Nat.dist at tie
      rcases literal with rfl | rfl <;> dsimp only at tie ⊢ <;> split_ifs at tie ⊢ <;> omega
  exact exact _ rfl

/-- Reconstruction returns the nearest number with the truncated bytes. So a number that is at most half a
window above the expected one, or less than half a window below it, comes back from its last bytes. -/
theorem reconstructSequence64_nearest {size : ℕ} (sizes : size = 1 ∨ size = 2) (expected truncated : UInt64)
    (short : truncated.toNat < 2 ^ (8 * size)) :
    Nat.Nearest maxUint64 (2 ^ (8 * size)) truncated.toNat expected.toNat
        (reconstructSequence64 truncated size expected).toNat ∧
      ∀ n : UInt64, expected.toNat < n.toNat + 2 ^ (8 * size) / 2 → n.toNat ≤ expected.toNat + 2 ^ (8 * size) / 2 →
        n.toNat % 2 ^ (8 * size) = truncated.toNat → reconstructSequence64 truncated size expected = n := by
  have nearest : Nat.Nearest maxUint64 (2 ^ (8 * size)) truncated.toNat expected.toNat
      (reconstructSequence64 truncated size expected).toNat := by
    rw [reconstructSequence64_toNat sizes short]
    exact reconstructSequence_nearest sizes short (Nat.le_sub_one_of_lt expected.toNat_lt)
  refine ⟨nearest, fun n above below same => ?_⟩
  have halves : 2 * (2 ^ (8 * size) / 2) = 2 ^ (8 * size) ∧ 0 < 2 ^ (8 * size) / 2 := by
    rcases sizes with rfl | rfl <;> decide
  have close := Nat.nearest_of_near halves.2 (Nat.le_sub_one_of_lt n.toNat_lt) above below
  rw [halves.1, same] at close
  exact UInt64.toNat_inj.mp (nearest.unique close)

/-- A number near the end of its range, with one byte on the wire. -/
theorem reconstructSequence64_last :
    (0xfe : UInt64).toNat < 2 ^ (8 * 1) ∧
      reconstructSequence64 0xfe 1 0xffffffffffffff80 = 0xfffffffffffffffe :=
  ⟨by decide, (reconstructSequence64_nearest (.inl rfl) 0xffffffffffffff80 0xfe (by decide)).2 _ (by decide) (by decide)
    (by decide)⟩

/-! ## The replay window -/

namespace ReplayWindow

/-- One call of `accept`. -/
def step (w : ReplayWindow) (s : UInt64) : Bool × ReplayWindow :=
  match w.accept s.toNat with
  | some w => (true, w)
  | none => (false, w)

end ReplayWindow

/-- What a replay window is for: the numbers accepted so far. -/
abbrev AcceptedNumbers := Finset ℕ

namespace AcceptedNumbers

def highest (accepted : AcceptedNumbers) : ℕ := accepted.sup id

/-- A number is taken once, if it is not 64 or more below the highest. -/
def takes (accepted : AcceptedNumbers) (s : ℕ) : Bool :=
  decide (s ∉ accepted ∧ (accepted = ∅ ∨ accepted.highest < s ∨ accepted.highest - s < 64))

def next (accepted : AcceptedNumbers) : ℕ := if accepted = ∅ then 0 else min (accepted.highest + 1) maxUint64

def step (accepted : AcceptedNumbers) (s : UInt64) : Bool × AcceptedNumbers :=
  if accepted.takes s.toNat then (true, insert s.toNat accepted) else (false, accepted)

theorem le_highest {accepted : AcceptedNumbers} {s : ℕ} (member : s ∈ accepted) : s ≤ accepted.highest :=
  Finset.le_sup (f := id) member

theorem highest_insert (accepted : AcceptedNumbers) (s : ℕ) : highest (insert s accepted) = max s accepted.highest :=
  Finset.sup_insert

end AcceptedNumbers

namespace ReplayWindow

/-- The window shows the accepted numbers from 63 below the highest on. -/
structure Represents (w : ReplayWindow) (accepted : AcceptedNumbers) : Prop where
  empty : w.bits = 0 ↔ accepted = ∅
  highest : accepted ≠ ∅ → w.highest = accepted.highest
  word : w.highest ≤ maxUint64
  bits : accepted ≠ ∅ → ∀ s ≤ w.highest, w.highest - s < 64 → (w.bits.getLsbD (w.highest - s) = true ↔ s ∈ accepted)

private theorem represents_zero : Represents {} ∅ where
  empty := by simp
  highest := by simp
  word := by decide
  bits := by simp

variable {w : ReplayWindow} {accepted : AcceptedNumbers}

theorem Represents.seen_iff (represents : Represents w accepted) (s : ℕ) : w.Seen s ↔ accepted.takes s = false := by
  unfold Seen AcceptedNumbers.takes
  by_cases empty : accepted = ∅
  · simp [represents.empty.mpr empty, empty]
  have filled : w.bits ≠ 0 := mt represents.empty.mp empty
  have shows := represents.bits empty s
  rw [decide_eq_false_iff_not, not_and, ← represents.highest empty]
  simp only [empty, false_or, not_or, not_lt]
  constructor
  · rintro ⟨-, below, old | bit⟩ fresh
    · exact ⟨below, old⟩
    · by_cases recent : w.highest - s < 64
      · exact absurd ((shows below recent).mp bit) fresh
      · exact ⟨below, not_lt.mp recent⟩
  · intro refused
    by_cases member : s ∈ accepted
    · have below : s ≤ w.highest := by
        rw [represents.highest empty]
        exact AcceptedNumbers.le_highest member
      by_cases recent : w.highest - s < 64
      · exact ⟨filled, below, .inr ((shows below recent).mpr member)⟩
      · exact ⟨filled, below, .inl (not_lt.mp recent)⟩
    · obtain ⟨below, old⟩ := refused member
      exact ⟨filled, below, .inl old⟩

theorem getLsbD_unit (i : ℕ) : (1 : BitVec 64).getLsbD i = decide (i = 0) := by
  simp

/-- The first number fills the window. -/
theorem represents_first {s : ℕ} (word : s ≤ maxUint64) : Represents ⟨s, 1⟩ {s} where
  empty := by simp
  highest _ := by simp [AcceptedNumbers.highest]
  word := word
  bits _ other below _ := by
    dsimp only at below ⊢
    rw [getLsbD_unit, Finset.mem_singleton, decide_eq_true_eq]
    omega

section

variable (represents : Represents w accepted)
include represents

/-- A higher number slides the window. -/
theorem Represents.slide (filled : accepted ≠ ∅) {s : ℕ} (word : s ≤ maxUint64) (later : w.highest < s) :
    Represents ⟨s, w.bits <<< (s - w.highest) ||| 1⟩ (insert s accepted) where
  empty := by
    refine iff_of_false (fun zero => ?_) (Finset.insert_ne_empty _ _)
    have bit : (w.bits <<< (s - w.highest) ||| 1).getLsbD 0 = true := by simp
    dsimp only at zero
    rw [zero] at bit
    simp at bit
  highest _ := by
    rw [AcceptedNumbers.highest_insert, ← represents.highest filled]
    exact (max_eq_left later.le).symm
  word := word
  bits _ other below recent := by
    dsimp only at below recent ⊢
    rw [BitVec.getLsbD_or, BitVec.getLsbD_shiftLeft, getLsbD_unit, Finset.mem_insert]
    have shows := represents.bits filled other
    by_cases top : other = s
    · subst top
      simp
    by_cases inside : other ≤ w.highest
    · have position : s - other - (s - w.highest) = w.highest - other := by omega
      have above : ¬s - other < s - w.highest := by omega
      have positive : s - other ≠ 0 := by omega
      rw [position, ← shows inside (by omega)]
      simp [recent, above, positive, top]
    · have between : s - other < s - w.highest := by omega
      have positive : s - other ≠ 0 := by omega
      have fresh : other ∉ accepted := by
        intro member
        have := AcceptedNumbers.le_highest member
        rw [← represents.highest filled] at this
        exact inside this
      simp [between, positive, top, fresh]

/-- A number inside the window sets its bit. -/
theorem Represents.fill (filled : accepted ≠ ∅) {s : ℕ} (below : s ≤ w.highest) (recent : w.highest - s < 64) :
    Represents { w with bits := w.bits ||| (1#64 <<< (w.highest - s)) } (insert s accepted) where
  empty := by
    refine iff_of_false (fun zero => ?_) (Finset.insert_ne_empty _ _)
    have bit : (w.bits ||| 1#64 <<< (w.highest - s)).getLsbD (w.highest - s) = true := by
      rw [BitVec.getLsbD_or, getLsbD_one_shift]
      simp [recent]
    dsimp only at zero
    rw [zero] at bit
    simp at bit
  highest _ := by
    rw [AcceptedNumbers.highest_insert, ← represents.highest filled]
    exact (max_eq_right below).symm
  word := represents.word
  bits _ other inside shown := by
    dsimp only at inside shown ⊢
    rw [BitVec.getLsbD_or, getLsbD_one_shift, Bool.or_eq_true, represents.bits filled other inside shown,
      Finset.mem_insert]
    have position : w.highest - other = w.highest - s ↔ other = s := by omega
    simp [position, recent, or_comm]

theorem Represents.accept {s : ℕ} (word : s ≤ maxUint64) {w' : ReplayWindow} (taken : w.accept s = some w') :
    Represents w' (insert s accepted) := by
  unfold ReplayWindow.accept at taken
  by_cases empty : accepted = ∅
  · rw [if_pos (represents.empty.mpr empty)] at taken
    cases taken
    rw [empty]
    exact represents_first word
  · rw [if_neg (mt represents.empty.mp empty)] at taken
    split at taken
    · rename_i later
      cases taken
      exact represents.slide empty word later
    · rename_i reached
      dsimp only at taken
      split at taken
      · cases taken
      · rename_i fresh
        rw [not_or, not_le] at fresh
        cases taken
        exact represents.fill empty (not_lt.mp reached) fresh.1

theorem Represents.next_eq : w.next = accepted.next := by
  unfold ReplayWindow.next AcceptedNumbers.next
  by_cases empty : accepted = ∅
  · rw [if_pos (represents.empty.mpr empty), if_pos empty]
  · rw [if_neg (mt represents.empty.mp empty), if_neg empty, ← represents.highest empty]
    have := represents.word
    split_ifs <;> omega

theorem Represents.step (s : UInt64) :
    (w.step s).1 = (AcceptedNumbers.step accepted s).1 ∧
      Represents (w.step s).2 (AcceptedNumbers.step accepted s).2 := by
  unfold ReplayWindow.step AcceptedNumbers.step
  have word : s.toNat ≤ maxUint64 := Nat.le_sub_one_of_lt s.toNat_lt
  cases outcome : w.accept s.toNat with
  | none =>
    have refused := (represents.seen_iff s.toNat).mp (accept_eq_none.mp outcome)
    simp only [refused, Bool.false_eq_true, ↓reduceIte, true_and]
    exact represents
  | some w' =>
    have taken : accepted.takes s.toNat = true := by
      by_contra refused
      have seen := (represents.seen_iff s.toNat).mpr (Bool.eq_false_iff.mpr refused)
      rw [accept_eq_none.mpr seen] at outcome
      cases outcome
    simp only [taken, ↓reduceIte, true_and]
    exact represents.accept word outcome

end

end ReplayWindow

/-- The replay window answers every history as the set of accepted numbers does, and expects the number after
the highest. -/
theorem replayWindow_refines (history : List UInt64) :
    (transduce ReplayWindow.step {} history).1 = (transduce AcceptedNumbers.step ∅ history).1 ∧
      (transduce ReplayWindow.step {} history).2.next = (transduce AcceptedNumbers.step ∅ history).2.next := by
  obtain ⟨answers, represents⟩ := transduce_simulates (R := ReplayWindow.Represents)
    (fun _ _ s represents => represents.step s) ReplayWindow.represents_zero history
  exact ⟨answers, represents.next_eq⟩

end Socat.Dtls13
