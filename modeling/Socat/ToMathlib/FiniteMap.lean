import Mathlib

/-! # Association lists as finite maps

Additions to `AList`: erasing several keys at once, and the largest of a list of natural numbers,
which for the keys of a map is the highest key present.
-/

namespace AList

variable {α : Type*} [DecidableEq α] {β : α → Type*}

/-- Erase every key of a list. -/
def eraseAll (keys : List α) (m : AList β) : AList β := keys.foldl (fun m key => m.erase key) m

theorem lookup_erase_eq (a b : α) (m : AList β) : lookup a (erase b m) = if a = b then none else lookup a m := by
  split
  · rename_i same
    subst same
    exact lookup_erase a m
  · rename_i different
    exact lookup_erase_ne different

theorem lookup_insert_eq {γ : Type*} (a b : α) (value : γ) (m : AList fun _ : α => γ) :
    lookup a (insert b value m) = if a = b then some value else lookup a m := by
  split
  · rename_i same
    subst same
    exact lookup_insert m
  · rename_i different
    exact lookup_insert_ne different

theorem lookup_eraseAll (keys : List α) (m : AList β) (a : α) :
    lookup a (eraseAll keys m) = if a ∈ keys then none else lookup a m := by
  induction keys generalizing m with
  | nil => simp [eraseAll]
  | cons key rest ih =>
    have unfolded : eraseAll (key :: rest) m = eraseAll rest (m.erase key) := rfl
    rw [unfolded, ih, lookup_erase_eq]
    by_cases first : a = key <;> by_cases later : a ∈ rest <;> simp [first, later]

theorem mem_eraseAll {keys : List α} {m : AList β} {a : α} : a ∈ eraseAll keys m ↔ a ∉ keys ∧ a ∈ m := by
  rw [← lookup_isSome, lookup_eraseAll, ← lookup_isSome]
  by_cases member : a ∈ keys <;> simp [member]

theorem mem_of_lookup {a : α} {b : β a} {m : AList β} (found : lookup a m = some b) : a ∈ m := by
  rw [← lookup_isSome, found]
  rfl

theorem exists_lookup_of_mem {a : α} {m : AList β} (member : a ∈ m) : ∃ b, lookup a m = some b :=
  Option.isSome_iff_exists.mp (lookup_isSome.mpr member)

/-! ## Sums over the entries -/

section Total

variable {γ : Type*} (weight : γ → ℕ)

/-- The sum of a weight over all entries. -/
def total (m : AList fun _ : α => γ) : ℕ := (m.entries.map fun entry => weight entry.2).sum

/-- An entry contributes its weight, and the rest what is left. -/
theorem total_erase {a : α} {b : γ} {m : AList fun _ : α => γ} (found : lookup a m = some b) :
    total weight m = weight b + total weight (erase a m) := by
  obtain ⟨c, front, back, fresh, split, erased⟩ := List.exists_of_kerase (mem_keys.mp (mem_of_lookup found))
  have same : c = b := by
    have here : lookup a m = some c := by
      unfold lookup
      rw [split, List.dlookup_append, List.dlookup_eq_none.mpr fresh]
      simp
    exact Option.some.inj (here.symm.trans found)
  subst same
  show (m.entries.map _).sum = weight c + ((m.entries.kerase a).map _).sum
  rw [erased, split]
  simp only [List.map_append, List.map_cons, List.sum_append, List.sum_cons]
  omega

theorem weight_le_total {a : α} {b : γ} {m : AList fun _ : α => γ} (found : lookup a m = some b) :
    weight b ≤ total weight m := by
  rw [total_erase weight found]
  exact Nat.le_add_right _ _

theorem total_insert {a : α} {m : AList fun _ : α => γ} (absent : lookup a m = none) (b : γ) :
    total weight (insert a b m) = weight b + total weight m := by
  unfold total
  rw [entries_insert_of_notMem (lookup_eq_none.mp absent)]
  rfl

/-- Replacing an entry by one of the same weight changes no sum. -/
theorem total_replace {a : α} {b c : γ} {m : AList fun _ : α => γ} (found : lookup a m = some b)
    (same : weight c = weight b) : total weight (insert a c m) = total weight m := by
  rw [total_erase weight found, ← same]
  unfold total erase
  rw [entries_insert]
  rfl

end Total

end AList

namespace List

theorem le_foldr_max {l : List ℕ} {n : ℕ} (member : n ∈ l) : n ≤ l.foldr max 0 := by
  induction l with
  | nil => contradiction
  | cons first rest ih =>
    rcases mem_cons.mp member with same | later
    · exact same ▸ le_max_left _ _
    · exact le_trans (ih later) (le_max_right _ _)

theorem foldr_max_mem {l : List ℕ} (nonempty : l ≠ []) : l.foldr max 0 ∈ l := by
  induction l with
  | nil => contradiction
  | cons first rest ih =>
    by_cases last : rest = []
    · simp [last]
    · rw [foldr_cons]
      rcases max_choice first (rest.foldr max 0) with chosen | chosen <;> rw [chosen]
      · exact mem_cons_self
      · exact mem_cons_of_mem _ (ih last)

end List
