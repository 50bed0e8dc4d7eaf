import Mathlib.Data.List.TakeWhile
import Socat.Machine.Source

/-! # Reading ahead up to a delimiter

A reader with a buffer of fixed capacity returns the items up to and including a delimiter. It asks its source
for as much as fits, so it may hold items behind the delimiter; what it holds, together with what is left in the
source, is the content that was not returned.
-/

namespace Socat.Machine

inductive SliceError (ε : Type)
  /-- The buffer is full and has no delimiter. -/
  | full
  /-- The source has answered with nothing too often. -/
  | noProgress
  | source (e : ε)
deriving DecidableEq, Repr

structure Lookahead (α ε : Type) where
  source : Source α ε
  ahead : List α := []
  failed : Option (SliceError ε) := none
deriving DecidableEq, Repr

namespace Lookahead

variable {α ε : Type}

def content (b : Lookahead α ε) : List α := b.ahead ++ b.source.content

/-- Asks the source until it gives something; so many answers may be empty. -/
def fill (capacity : ℕ) : ℕ → Lookahead α ε → Lookahead α ε
  | 0, b => { b with failed := some .noProgress }
  | tries + 1, b =>
    let answer := (b.source.read (capacity - b.ahead.length)).1
    let next : Lookahead α ε :=
      { b with source := (b.source.read (capacity - b.ahead.length)).2, ahead := b.ahead ++ answer.items }
    match answer.error with
    | some e => { next with failed := some (.source e) }
    | none => if answer.items.isEmpty then fill capacity tries next else next

variable [DecidableEq α]

/-- The items up to the delimiter, or all that are there, with the reason. -/
def readSliceFrom (capacity tries : ℕ) (delim : α) : ℕ → Lookahead α ε → Answer α (SliceError ε) × Lookahead α ε
  | 0, b => (⟨[], some .noProgress⟩, b)
  | fuel + 1, b =>
    match b.ahead.dropWhile (· ≠ delim) with
    | _ :: rest => (⟨b.ahead.takeWhile (· ≠ delim) ++ [delim], none⟩, { b with ahead := rest })
    | [] =>
      match b.failed with
      | some e => (⟨b.ahead, some e⟩, { b with ahead := [], failed := none })
      | none =>
        if capacity ≤ b.ahead.length then (⟨b.ahead, some .full⟩, { b with ahead := [] })
        else readSliceFrom capacity tries delim fuel (fill capacity tries b)

/-- Every round but the last takes something from the source. -/
def readSlice (capacity tries : ℕ) (delim : α) (b : Lookahead α ε) : Answer α (SliceError ε) × Lookahead α ε :=
  readSliceFrom capacity tries delim (b.source.rank + 2) b

variable (capacity : ℕ)

omit [DecidableEq α] in
private theorem fill_content (tries : ℕ) (b : Lookahead α ε) :
    (fill capacity tries b).content = b.content ∧ (fill capacity tries b).source.ending = b.source.ending := by
  induction tries generalizing b with
  | zero => exact ⟨rfl, rfl⟩
  | succ tries ih =>
    have kept := Source.read_delivers.kept (capacity - b.ahead.length) b.source
    have same := Source.read_delivers.ending (capacity - b.ahead.length) b.source
    have together : b.ahead ++ (b.source.read (capacity - b.ahead.length)).1.items ++
        (b.source.read (capacity - b.ahead.length)).2.content = b.content := by
      rw [List.append_assoc, kept]
      rfl
    unfold fill
    dsimp only
    split
    · exact ⟨together, same⟩
    · split_ifs
      · obtain ⟨rest, ending⟩ := ih ⟨(b.source.read (capacity - b.ahead.length)).2,
          b.ahead ++ (b.source.read (capacity - b.ahead.length)).1.items, b.failed⟩
        exact ⟨rest.trans together, ending.trans same⟩
      · exact ⟨together, same⟩

variable (tries : ℕ) (delim : α)

/-- What was returned, and what is held or not yet read, is the content from before. -/
theorem readSliceFrom_kept (fuel : ℕ) (b : Lookahead α ε) :
    (readSliceFrom capacity tries delim fuel b).1.items ++
    (readSliceFrom capacity tries delim fuel b).2.content = b.content ∧
      (readSliceFrom capacity tries delim fuel b).2.source.ending = b.source.ending := by
  induction fuel generalizing b with
  | zero => exact ⟨rfl, rfl⟩
  | succ fuel ih =>
    unfold readSliceFrom
    split
    · rename_i first rest found
      refine ⟨?_, rfl⟩
      have split := List.takeWhile_append_dropWhile (p := (· ≠ delim)) (l := b.ahead)
      have here : first = delim := by
        have stops := List.head?_dropWhile_not (· ≠ delim) b.ahead
        rw [found] at stops
        simpa using stops
      rw [found, here] at split
      calc b.ahead.takeWhile (· ≠ delim) ++ [delim] ++ (rest ++ b.source.content)
        _ = b.ahead.takeWhile (· ≠ delim) ++ delim :: rest ++ b.source.content := by simp
        _ = b.ahead ++ b.source.content := by rw [split]
    · split
      · exact ⟨rfl, rfl⟩
      · split_ifs
        · exact ⟨rfl, rfl⟩
        · obtain ⟨rest, ending⟩ := ih (fill capacity tries b)
          obtain ⟨kept, same⟩ := fill_content capacity tries b
          exact ⟨rest.trans kept, ending.trans same⟩

/-- A slice ends with its only delimiter. -/
theorem readSliceFrom_line {fuel : ℕ} {b : Lookahead α ε}
    (returned : (readSliceFrom capacity tries delim fuel b).1.error = none) :
    ∃ before, (readSliceFrom capacity tries delim fuel b).1.items = before ++ [delim] ∧ delim ∉ before := by
  induction fuel generalizing b with
  | zero => cases returned
  | succ fuel ih =>
    unfold readSliceFrom at returned ⊢
    split
    · refine ⟨_, rfl, fun member => ?_⟩
      have other := List.mem_takeWhile_imp member
      simp at other
    · rename_i absent
      rw [absent] at returned
      dsimp only at returned
      cases pending : b.failed with
      | some e =>
        rw [pending] at returned
        cases returned
      | none =>
        rw [pending] at returned
        dsimp only at returned ⊢
        by_cases full : capacity ≤ b.ahead.length
        · rw [if_pos full] at returned
          cases returned
        · rw [if_neg full] at returned ⊢
          exact ih returned

end Lookahead

end Socat.Machine
