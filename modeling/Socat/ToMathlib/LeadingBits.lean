import Mathlib.Data.List.OfFn
import Mathlib.Tactic.IntervalCases

/-! # The leading bits of a byte string

A mask of `k` ones followed by zeros keeps the first `k` bits of a byte string: two strings of one length agree
under it just if they agree in these bits.
-/

namespace Socat

open List

/-- The bits of one byte, the highest first. -/
def byteBits (b : UInt8) : List Bool := List.ofFn fun i : Fin 8 => b.toBitVec.getMsbD i

def bits (bytes : List UInt8) : List Bool := bytes.flatMap byteBits

/-- A byte that starts with `k` ones. -/
def byteMask (k : ℕ) : UInt8 := ~~~(0xff >>> UInt8.ofNat k)

/-- `k` ones, and zeros up to the length. -/
def leadingMask : ℕ → ℕ → List UInt8
  | _, 0 => []
  | k, length + 1 => if 8 ≤ k then 0xff :: leadingMask (k - 8) length else byteMask k :: leadingMask 0 length

def masked (bytes mask : List UInt8) : List UInt8 := List.zipWith (· &&& ·) bytes mask

@[simp]
theorem byteBits_length (b : UInt8) : (byteBits b).length = 8 := length_ofFn

@[simp]
theorem bits_cons (b : UInt8) (bytes : List UInt8) : bits (b :: bytes) = byteBits b ++ bits bytes := flatMap_cons

@[simp]
theorem bits_length (bytes : List UInt8) : (bits bytes).length = 8 * bytes.length := by
  induction bytes with
  | nil => rfl
  | cons b bytes ih =>
    rw [bits_cons, length_append, byteBits_length, ih, length_cons]
    omega

theorem byteBits_injective {a b : UInt8} (same : byteBits a = byteBits b) : a = b := by
  apply UInt8.toBitVec_inj.mp
  apply BitVec.eq_of_getMsbD_eq
  intro i bound
  exact congrFun (ofFn_injective same) ⟨i, bound⟩

theorem bits_injective {a b : List UInt8} (same : bits a = bits b) : a = b := by
  induction a generalizing b with
  | nil =>
    cases b with
    | nil => rfl
    | cons y b =>
      have lengths := congrArg List.length same
      rw [bits_length, bits_length] at lengths
      cases lengths
  | cons x a ih =>
    cases b with
    | nil =>
      have lengths := congrArg List.length same
      rw [bits_length, bits_length] at lengths
      cases lengths
    | cons y b =>
      rw [bits_cons, bits_cons] at same
      obtain ⟨first, rest⟩ := append_inj same (by rw [byteBits_length, byteBits_length])
      rw [byteBits_injective first, ih rest]

@[simp]
theorem leadingMask_length (k length : ℕ) : (leadingMask k length).length = length := by
  induction length generalizing k with
  | zero => rfl
  | succ length ih =>
    unfold leadingMask
    split_ifs
    · rw [length_cons, ih]
    · rw [length_cons, ih]

private theorem byteMask_getMsbD {k : ℕ} (small : k < 8) (i : Fin 8) :
    (byteMask k).toBitVec.getMsbD i = decide (i.val < k) := by
  interval_cases k <;> revert i <;> decide

private theorem byte_masked_iff {k : ℕ} (small : k < 8) (a b : UInt8) :
    a &&& byteMask k = b &&& byteMask k ↔ (byteBits a).take k = (byteBits b).take k := by
  constructor
  · intro same
    apply ext_getElem
    · simp
    · intro i bound _
      have inside : i < k := by
        rw [length_take] at bound
        omega
      have bit := congrArg (fun c : UInt8 => c.toBitVec.getMsbD i) same
      simp only [UInt8.toBitVec_and, BitVec.getMsbD_and, byteMask_getMsbD small ⟨i, by omega⟩, inside, decide_true,
        Bool.and_true] at bit
      simp only [byteBits, getElem_take, List.getElem_ofFn]
      exact bit
  · intro same
    apply UInt8.toBitVec_inj.mp
    apply BitVec.eq_of_getMsbD_eq
    intro i bound
    simp only [UInt8.toBitVec_and, BitVec.getMsbD_and, byteMask_getMsbD small ⟨i, bound⟩]
    by_cases inside : i < k
    · have bit := congrArg (fun l : List Bool => l[i]?) same
      simp only [getElem?_take, inside, if_true, byteBits, List.getElem?_ofFn, bound, dite_true] at bit
      rw [Option.some.inj bit]
    · simp [inside]

private theorem masked_leadingMask_zero (bytes : List UInt8) (length : ℕ) :
    masked bytes (leadingMask 0 length) = List.replicate (min bytes.length length) 0 := by
  induction length generalizing bytes with
  | zero =>
    unfold leadingMask masked
    simp
  | succ length ih =>
    cases bytes with
    | nil =>
      unfold masked
      simp
    | cons b bytes =>
      have zero : b &&& byteMask 0 = 0 := UInt8.and_zero
      rw [leadingMask, if_neg (by omega)]
      show (b &&& byteMask 0) :: masked bytes (leadingMask 0 length) = _
      rw [ih, zero, length_cons, Nat.succ_min_succ, replicate_succ]

/-- Two byte strings agree under the mask of `k` ones just if they agree in their first `k` bits. -/
theorem masked_leadingMask_iff {a b : List UInt8} (k : ℕ) (same : a.length = b.length) :
    masked a (leadingMask k a.length) = masked b (leadingMask k a.length) ↔ (bits a).take k = (bits b).take k := by
  induction a generalizing b k with
  | nil =>
    obtain rfl := eq_nil_of_length_eq_zero same.symm
    exact iff_of_true rfl rfl
  | cons x a ih =>
    obtain ⟨y, b, rfl⟩ := exists_cons_of_length_eq_add_one same.symm
    have rest : a.length = b.length := Nat.succ.inj same
    rw [length_cons, leadingMask, bits_cons, bits_cons]
    split_ifs with whole
    · -- the whole byte counts
      have all : ∀ c : UInt8, c &&& 0xff = c := fun c => UInt8.and_neg_one
      show (x &&& 0xff) :: masked a (leadingMask (k - 8) a.length) =
        (y &&& 0xff) :: masked b (leadingMask (k - 8) a.length) ↔ _
      have long : ∀ c : UInt8, (byteBits c).length ≤ k := fun c => by rw [byteBits_length]; exact whole
      rw [all, all, List.cons.injEq, ih _ rest, take_append, take_append, take_of_length_le (long x),
        take_of_length_le (long y), byteBits_length, byteBits_length]
      constructor
      · rintro ⟨rfl, tails⟩
        rw [tails]
      · intro heads
        obtain ⟨first, tails⟩ := append_inj heads (by rw [byteBits_length, byteBits_length])
        exact ⟨byteBits_injective first, tails⟩
    · show (x &&& byteMask k) :: masked a (leadingMask 0 a.length) =
        (y &&& byteMask k) :: masked b (leadingMask 0 a.length) ↔ _
      rw [masked_leadingMask_zero, masked_leadingMask_zero, ← rest, List.cons.injEq, byte_masked_iff (by omega),
        take_append_of_le_length (by rw [byteBits_length]; omega),
        take_append_of_le_length (by rw [byteBits_length]; omega)]
      exact and_iff_left rfl

end Socat
