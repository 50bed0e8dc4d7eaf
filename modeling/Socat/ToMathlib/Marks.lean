import Mathlib

/-! # Lists of marks

A list of Booleans marks the positions of a sequence. Reading beyond the end gives an unset mark. Also a few
facts about lists read by position: the run a `takeWhile` stops at, and sums when one element changes.
-/

namespace List

theorem getD_set_eq {α : Type*} (l : List α) (i j : ℕ) (a d : α) :
    (l.set i a).getD j d = if i = j ∧ j < l.length then a else l.getD j d := by
  rw [getD_eq_getElem?_getD, getD_eq_getElem?_getD, getElem?_set]
  by_cases same : i = j
  · subst same
    by_cases inside : i < l.length
    · simp [inside]
    · simp [inside]
  · simp [same]

section

variable {α : Type*} {p : α → Bool} {l : List α}

theorem getD_drop_eq (l : List α) (start i : ℕ) (d : α) : (l.drop start).getD i d = l.getD (start + i) d := by
  simp only [getD_eq_getElem?_getD, getElem?_drop]

theorem getD_take_of_lt {count i : ℕ} (below : i < count) (d : α) : (l.take count).getD i d = l.getD i d := by
  simp only [getD_eq_getElem?_getD, getElem?_take_of_lt below]

/-- The run that `takeWhile` takes satisfies the predicate. -/
theorem getD_of_lt_takeWhile {i : ℕ} (d : α) (below : i < (l.takeWhile p).length) : p (l.getD i d) = true := by
  induction l generalizing i with
  | nil => simp at below
  | cons a rest ih =>
    rw [takeWhile_cons] at below
    split at below
    · rename_i first
      cases i with
      | zero => exact first
      | succ i => exact ih (by simpa using below)
    · simp at below

/-- The run ends at an element that does not satisfy it. -/
theorem getD_takeWhile_length (d : α) (stopped : (l.takeWhile p).length < l.length) :
    p (l.getD (l.takeWhile p).length d) = false := by
  induction l with
  | nil => simp at stopped
  | cons a rest ih =>
    rw [takeWhile_cons] at stopped ⊢
    split
    · rename_i first
      rw [if_pos first] at stopped
      exact ih (by simpa using stopped)
    · rename_i first
      simpa using first

theorem sum_map_modify {w : α → ℕ} {i : ℕ} {a : α} (found : l[i]? = some a) (change : α → α) :
    ((l.modify i change).map w).sum + w a = (l.map w).sum + w (change a) := by
  induction l generalizing i with
  | nil => simp at found
  | cons b rest ih =>
    cases i with
    | zero =>
      cases found
      simp only [modify_zero_cons, map_cons, sum_cons]
      omega
    | succ i =>
      have later := ih (i := i) (by simpa using found)
      simp only [modify_succ_cons, map_cons, sum_cons]
      omega

end

variable {l : List Bool}

/-- No mark is unset when all positions are marked. -/
theorem count_false_eq_zero : l.count false = 0 ↔ ∀ i < l.length, l.getD i false = true := by
  rw [count_eq_zero]
  constructor
  · intro none i inside
    rw [getD_eq_getElem l false inside]
    by_contra unset
    rw [Bool.not_eq_true] at unset
    exact none (unset ▸ getElem_mem inside)
  · intro marked member
    obtain ⟨i, inside, unset⟩ := mem_iff_getElem.mp member
    have set := marked i inside
    rw [getD_eq_getElem l false inside, unset] at set
    cases set

end List
