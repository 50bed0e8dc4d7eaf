import Mathlib.Data.List.Sort
import Mathlib.Order.Bounds.Basic

/-! # Sorted values in a fixed number of slots

The values fill the first slots of a list of fixed length, and a blank fills the others. A value is inserted before
the first greater one, and the greatest value falls out if the slots are full; the values up to a given one are
shifted out at the front.
-/

namespace List

variable {α : Type*}

/-- Values in their slots. -/
def slots (n : ℕ) (blank : α) (values : List α) : List α := values ++ replicate (n - values.length) blank

section

variable {n : ℕ} {blank : α} {values : List α}

theorem slots_drop (low high : List α) (fits : (low ++ high).length ≤ n) :
    (slots n blank (low ++ high)).drop low.length ++ replicate low.length blank = slots n blank high := by
  rw [length_append] at fits
  unfold slots
  rw [append_assoc, drop_left, append_assoc, replicate_append_replicate, length_append]
  congr 2
  omega

private theorem insertIdx_length_append (low tail : List α) (a : α) :
    (low ++ tail).insertIdx low.length a = low ++ a :: tail := by
  induction low with
  | nil => rfl
  | cons first rest ih => rw [cons_append, length_cons, insertIdx_succ_cons, ih, cons_append]

theorem slots_insertIdx (low high : List α) (a : α) (fits : (low ++ high).length ≤ n) :
    ((slots n blank (low ++ high)).insertIdx low.length a).take n = slots n blank ((low ++ a :: high).take n) := by
  rw [length_append] at fits
  have split : (slots n blank (low ++ high)).insertIdx low.length a =
      (low ++ a :: high) ++ replicate (n - (low ++ high).length) blank := by
    unfold slots
    rw [append_assoc, insertIdx_length_append, append_assoc, cons_append]
  rw [split, take_append]
  unfold slots
  rw [take_replicate]
  congr 2
  simp only [length_take, length_append, length_cons]
  omega

theorem mem_slots_of_ne {a : α} (used : a ≠ blank) : a ∈ slots n blank values ↔ a ∈ values := by
  unfold slots
  simp [used]

variable [DecidableEq α]

theorem slots_takeWhile (used : ∀ v ∈ values, v ≠ blank) : (slots n blank values).takeWhile (· ≠ blank) = values := by
  unfold slots
  rw [takeWhile_append_of_pos (by simpa using used)]
  cases n - values.length <;> simp [replicate_succ]

theorem slots_filter (used : ∀ v ∈ values, v ≠ blank) : (slots n blank values).filter (· ≠ blank) = values := by
  unfold slots
  rw [filter_append, filter_eq_self.mpr (by simpa using used), filter_replicate]
  simp

end

section Order

variable [LinearOrder α] {n : ℕ} {blank : α} {values : List α}

/-- A sorted list is cut behind the values up to a given one. -/
theorem exists_cut (sorted : values.Pairwise (· ≤ ·)) (a : α) :
    ∃ low high, values = low ++ high ∧ (∀ v ∈ low, v ≤ a) ∧ ∀ v ∈ high, a < v := by
  induction values with
  | nil => exact ⟨[], [], rfl, by simp, by simp⟩
  | cons first rest ih =>
    obtain ⟨least, sorted⟩ := pairwise_cons.mp sorted
    by_cases below : first ≤ a
    · obtain ⟨low, high, rfl, low_le, high_gt⟩ := ih sorted
      refine ⟨first :: low, high, rfl, ?_, high_gt⟩
      intro v member
      rcases mem_cons.mp member with rfl | member
      · exact below
      · exact low_le v member
    · refine ⟨[], first :: rest, rfl, by simp, ?_⟩
      intro v member
      rcases mem_cons.mp member with rfl | member
      · exact not_le.mp below
      · exact lt_of_lt_of_le (not_le.mp below) (least v member)

/-- The search for a greater value stops at the cut, unless there is none. -/
theorem slots_findIdx? {low high : List α} {a : α} (low_le : ∀ v ∈ low, v ≤ a) (high_gt : ∀ v ∈ high, a < v)
    (unused : blank ≤ a) :
    (slots n blank (low ++ high)).findIdx? (fun v => decide (a < v)) = if high = [] then none else some low.length := by
  have none_low : low.findIdx? (fun v => decide (a < v)) = none := by
    rw [findIdx?_eq_none_iff]
    intro v member
    exact decide_eq_false (not_lt.mpr (low_le v member))
  unfold slots
  rw [append_assoc, findIdx?_append, none_low]
  cases high with
  | nil => simp [findIdx?_replicate, not_lt.mpr unused]
  | cons first rest => simp [findIdx?_cons, high_gt first mem_cons_self]

theorem pairwise_insert {low high : List α} {a : α} (sorted : (low ++ high).Pairwise (· ≤ ·))
    (low_le : ∀ v ∈ low, v ≤ a) (high_gt : ∀ v ∈ high, a < v) : (low ++ a :: high).Pairwise (· ≤ ·) := by
  obtain ⟨left, right, across⟩ := pairwise_append.mp sorted
  refine pairwise_append.mpr ⟨left, pairwise_cons.mpr ⟨fun v member => (high_gt v member).le, right⟩, ?_⟩
  intro v member w other
  rcases mem_cons.mp other with rfl | other
  · exact low_le v member
  · exact across v member w other

/-- The last of a sorted list is its greatest value. -/
theorem isGreatest_getLast (sorted : values.Pairwise (· ≤ ·)) (filled : values ≠ []) :
    IsGreatest {v | v ∈ values} (values.getLast filled) := by
  refine ⟨getLast_mem filled, ?_⟩
  intro v member
  induction values with
  | nil => exact absurd rfl filled
  | cons first rest ih =>
    obtain ⟨least, sorted⟩ := pairwise_cons.mp sorted
    cases rest with
    | nil => exact le_of_eq (mem_singleton.mp member)
    | cons second rest =>
      rw [getLast_cons (cons_ne_nil _ _)]
      rcases mem_cons.mp member with rfl | member
      · exact least _ (getLast_mem _)
      · exact ih sorted (cons_ne_nil _ _) member

end Order

end List
