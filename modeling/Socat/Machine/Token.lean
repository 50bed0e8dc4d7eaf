import Mathlib.Data.List.Basic

/-! # A token that is in one place

At any time at most one place holds a token, and the token names the current object. Tokens are dropped,
handed on, given out while there is no object, and spent. Two places that must both hold one exclude each
other.
-/

namespace Socat.Machine

variable {ι α : Type*}

/-- At most one place holds a token, at most one of it, and it names the current object. -/
structure Sole (tokens : ι → List α) (current : Option α) : Prop where
  current : ∀ i, ∀ x ∈ tokens i, current = some x
  place : ∀ i j, tokens i ≠ [] → tokens j ≠ [] → i = j
  single : ∀ i, (tokens i).length ≤ 1

namespace Sole

variable {tokens tokens' : ι → List α} {current : Option α} {i j : ι}

/-- Tokens are only dropped. -/
theorem keep (sole : Sole tokens current) (fewer : ∀ k, (tokens' k).Sublist (tokens k)) : Sole tokens' current := by
  have held : ∀ k, tokens' k ≠ [] → tokens k ≠ [] := by
    intro k some none
    have empty := fewer k
    rw [none] at empty
    exact some (List.sublist_nil.mp empty)
  constructor
  · intro k x member
    exact sole.current k x ((fewer k).subset member)
  · intro k l first second
    exact sole.place k l (held k first) (held l second)
  · intro k
    exact Nat.le_trans (fewer k).length_le (sole.single k)

/-- A place hands its token on. -/
theorem move (sole : Sole tokens current) (given : tokens' i = []) (taken : (tokens' j).Sublist (tokens i))
    (fewer : ∀ k, k ≠ i → k ≠ j → (tokens' k).Sublist (tokens k)) : Sole tokens' current := by
  classical
  have source : ∀ k, ∃ l, (tokens' k).Sublist (tokens l) := by
    intro k
    by_cases here : k = j
    · exact ⟨i, here ▸ taken⟩
    · by_cases there : k = i
      · exact ⟨k, there ▸ given ▸ List.nil_sublist _⟩
      · exact ⟨k, fewer k there here⟩
  have held : ∀ k, tokens' k ≠ [] → k = j ∧ tokens i ≠ [] ∨ k ≠ i ∧ tokens k ≠ [] := by
    intro k some
    by_cases here : k = j
    · subst here
      left
      refine ⟨rfl, fun none => some ?_⟩
      rw [none] at taken
      exact List.sublist_nil.mp taken
    · right
      have other : k ≠ i := by
        rintro rfl
        exact some given
      refine ⟨other, fun none => some ?_⟩
      have empty := fewer k other here
      rw [none] at empty
      exact List.sublist_nil.mp empty
  constructor
  · intro k x member
    obtain ⟨l, sub⟩ := source k
    exact sole.current l x (sub.subset member)
  · intro k l first second
    rcases held k first with ⟨rfl, some⟩ | ⟨other, some⟩ <;> rcases held l second with ⟨rfl, some'⟩ | ⟨other', some'⟩
    · rfl
    · exact absurd (sole.place i l some some').symm other'
    · exact absurd (sole.place k i some some') other
    · exact sole.place k l some some'
  · intro k
    obtain ⟨l, sub⟩ := source k
    exact Nat.le_trans sub.length_le (sole.single l)

private theorem nil_of_none (sole : Sole tokens none) (k : ι) : tokens k = [] := by
  cases held : tokens k with
  | nil => rfl
  | cons x rest =>
    have names := sole.current k x (held ▸ List.mem_cons_self)
    cases names

/-- A token is given out for a new object. -/
theorem acquire (sole : Sole tokens none) {x : α} (given : (tokens' j).Sublist [x])
    (fewer : ∀ k, k ≠ j → (tokens' k).Sublist (tokens k)) : Sole tokens' (some x) := by
  classical
  have others : ∀ k, k ≠ j → tokens' k = [] := by
    intro k other
    have sub := fewer k other
    rw [sole.nil_of_none k] at sub
    exact List.sublist_nil.mp sub
  have here : ∀ k, tokens' k ≠ [] → k = j := by
    intro k some
    by_contra other
    exact some (others k other)
  constructor
  · intro k y member
    have same := here k (List.ne_nil_of_mem member)
    subst same
    rw [List.mem_singleton.mp (given.subset member)]
  · intro k l first second
    rw [here k first, here l second]
  · intro k
    by_cases same : k = j
    · subst same
      exact given.length_le
    · rw [others k same]
      exact Nat.zero_le 1

/-- The token is spent, and there is none left whatever becomes of the object. -/
theorem spend (sole : Sole tokens current) (held : tokens i ≠ []) (gone : tokens' i = [])
    (fewer : ∀ k, k ≠ i → (tokens' k).Sublist (tokens k)) (current' : Option α) : Sole tokens' current' := by
  classical
  have none : ∀ k, tokens' k = [] := by
    intro k
    by_cases same : k = i
    · exact same ▸ gone
    · have sub := fewer k same
      have empty : tokens k = [] := by
        by_contra some
        exact same (sole.place k i some held)
      rw [empty] at sub
      exact List.sublist_nil.mp sub
  constructor
  · intro k x member
    rw [none k] at member
    cases member
  · intro k l some
    exact absurd (none k) some
  · intro k
    rw [none k]
    exact Nat.zero_le 1

end Sole

end Socat.Machine
