import Mathlib.Data.List.Basic

/-! # Sources that deliver in pieces

A reader asks for at most so many items and gets some of them, perhaps none, and perhaps an error. Whatever
the sizes of the requests are, the answers put together are the content of the source, in order and once.
A `Source` is the plain case: its content comes in chunks that the other side has chosen, and then it fails for good.
-/

namespace Socat.Machine

open List

/-- What one request gives: items, and perhaps an error. -/
structure Answer (α ε : Type) where
  items : List α
  error : Option ε
deriving DecidableEq, Repr

/-! ## Readers -/

section Readers

variable {σ α ε : Type}

/-- Reading hands out the content from its front, an error comes at its end and stays the same, and every request
for something gets nearer to the error. -/
structure Delivers (read : ℕ → σ → Answer α ε × σ) (content : σ → List α) (ending : σ → ε) (rank : σ → ℕ) : Prop where
  kept : ∀ n s, (read n s).1.items ++ content (read n s).2 = content s
  failed : ∀ n s e, (read n s).1.error = some e → content (read n s).2 = [] ∧ e = ending s
  ending : ∀ n s, ending (read n s).2 = ending s
  progress : ∀ n s, 0 < n → (read n s).1.error = none → rank (read n s).2 < rank s

/-- Requests of these sizes until an error, with what they gave. -/
def drain (read : ℕ → σ → Answer α ε × σ) (sizes : ℕ → ℕ) : ℕ → ℕ → σ → List α × Option ε
  | 0, _, _ => ([], none)
  | fuel + 1, i, s =>
    match (read (sizes i) s).1.error with
    | some e => ((read (sizes i) s).1.items, some e)
    | none =>
      let later := drain read sizes fuel (i + 1) (read (sizes i) s).2
      ((read (sizes i) s).1.items ++ later.1, later.2)

variable {read : ℕ → σ → Answer α ε × σ} {content : σ → List α} {ending : σ → ε} {rank : σ → ℕ}

theorem Delivers.drain_eq (delivers : Delivers read content ending rank) {sizes : ℕ → ℕ} (positive : ∀ i, 0 < sizes i)
    {fuel : ℕ} {s : σ} (enough : rank s < fuel) (i : ℕ) : drain read sizes fuel i s = (content s, some (ending s)) := by
  induction fuel generalizing s i with
  | zero => omega
  | succ fuel ih =>
    have kept := delivers.kept (sizes i) s
    unfold drain
    cases outcome : (read (sizes i) s).1.error with
    | some e =>
      obtain ⟨done, same⟩ := delivers.failed (sizes i) s e outcome
      rw [done, append_nil] at kept
      simp only [kept, same]
    | none =>
      have nearer := delivers.progress (sizes i) s (positive i) outcome
      dsimp only
      rw [ih (by omega) (i + 1), delivers.ending]
      dsimp only
      rw [kept]

end Readers

/-! ## Chunks -/

/-- Chunks, and the error behind them. An `eager` source gives the error together with its last items. -/
structure Source (α ε : Type) where
  chunks : List (List α)
  ending : ε
  eager : Bool := false
deriving DecidableEq, Repr

namespace Source

variable {α ε : Type}

def content (s : Source α ε) : List α := s.chunks.flatten

def rank (s : Source α ε) : ℕ := s.content.length + s.chunks.length

/-- A request is answered from the first chunk. -/
def read (n : ℕ) (s : Source α ε) : Answer α ε × Source α ε :=
  match s.chunks with
  | [] => (⟨[], some s.ending⟩, s)
  | chunk :: rest =>
    if chunk.length ≤ n then
      (⟨chunk, if s.eager && rest.isEmpty then some s.ending else none⟩, { s with chunks := rest })
    else (⟨chunk.take n, none⟩, { s with chunks := chunk.drop n :: rest })

/-- A request ends the source, takes a chunk, or takes a part of one. -/
theorem read_cases (n : ℕ) (s : Source α ε) :
    s.chunks = [] ∧ s.read n = (⟨[], some s.ending⟩, s) ∨
    (∃ chunk rest, s.chunks = chunk :: rest ∧ chunk.length ≤ n ∧ s.read n =
      (⟨chunk, if s.eager && rest.isEmpty then some s.ending else none⟩, { s with chunks := rest })) ∨
    ∃ chunk rest, s.chunks = chunk :: rest ∧ n < chunk.length ∧
      s.read n = (⟨chunk.take n, none⟩, { s with chunks := chunk.drop n :: rest }) := by
  unfold read
  split
  · rename_i done
    exact .inl ⟨done, rfl⟩
  · rename_i chunk rest here
    by_cases whole : chunk.length ≤ n
    · rw [if_pos whole]
      exact .inr (.inl ⟨chunk, rest, here, whole, rfl⟩)
    · rw [if_neg whole]
      exact .inr (.inr ⟨chunk, rest, here, by omega, rfl⟩)

theorem read_delivers : Delivers (fun n (s : Source α ε) => s.read n) content ending rank := by
  constructor
  · intro n s
    unfold content
    rcases read_cases n s with ⟨done, answer⟩ | ⟨chunk, rest, here, -, answer⟩ | ⟨chunk, rest, here, -, answer⟩
    · rw [answer, done]
      rfl
    · rw [answer, here]
      rfl
    · rw [answer, here]
      show chunk.take n ++ (chunk.drop n :: rest).flatten = _
      rw [flatten_cons, flatten_cons, ← append_assoc, take_append_drop]
  · intro n s e failed
    unfold content
    rcases read_cases n s with ⟨done, answer⟩ | ⟨chunk, rest, here, -, answer⟩ | ⟨chunk, rest, here, -, answer⟩
    · rw [answer] at failed ⊢
      cases failed
      exact ⟨by rw [done]; rfl, rfl⟩
    · rw [answer] at failed ⊢
      dsimp only at failed ⊢
      split_ifs at failed with last
      cases failed
      rw [Bool.and_eq_true, List.isEmpty_iff] at last
      exact ⟨by rw [last.2]; rfl, rfl⟩
    · rw [answer] at failed
      cases failed
  · intro n s
    rcases read_cases n s with ⟨-, answer⟩ | ⟨chunk, rest, -, -, answer⟩ | ⟨chunk, rest, -, -, answer⟩ <;> rw [answer]
  · intro n s positive going
    unfold rank content
    rcases read_cases n s with ⟨-, answer⟩ | ⟨chunk, rest, here, -, answer⟩ | ⟨chunk, rest, here, long, answer⟩
    · rw [answer] at going
      cases going
    · rw [answer, here]
      simp only [flatten_cons, length_append, length_cons]
      omega
    · rw [answer, here]
      simp only [flatten_cons, length_append, length_cons, length_drop]
      omega

theorem read_items_length (n : ℕ) (s : Source α ε) : (s.read n).1.items.length ≤ n := by
  rcases read_cases n s with ⟨-, answer⟩ | ⟨chunk, rest, -, whole, answer⟩ | ⟨chunk, rest, -, -, answer⟩
  · rw [answer]
    exact Nat.zero_le n
  · rw [answer]
    exact whole
  · rw [answer]
    exact length_take_le n chunk

/-! ### Exactly so many items -/

/-- Requests until `n` items are there or the source fails; `short` is the error for a part of them. -/
def readFullFrom (short : ε → ε) (n : ℕ) : ℕ → List α → Source α ε → Answer α ε × Source α ε
  | 0, got, s => (⟨got, some s.ending⟩, s)
  | fuel + 1, got, s =>
    if n ≤ got.length then (⟨got, none⟩, s)
    else
      let next := got ++ (s.read (n - got.length)).1.items
      match (s.read (n - got.length)).1.error with
      | some e => (⟨next, if n ≤ next.length then none else some (if next = [] then e else short e)⟩,
          (s.read (n - got.length)).2)
      | none => readFullFrom short n fuel next (s.read (n - got.length)).2

def readFull (short : ε → ε) (n : ℕ) (s : Source α ε) : Answer α ε × Source α ε :=
  readFullFrom short n (s.rank + 1) [] s

private theorem readFullFrom_eq {short : ε → ε} {n fuel : ℕ} {got : List α} {s : Source α ε} (fits : got.length ≤ n)
    (enough : n ≤ (got ++ s.content).length) (fueled : s.rank < fuel) :
    (readFullFrom short n fuel got s).1 = ⟨(got ++ s.content).take n, none⟩ ∧
      (readFullFrom short n fuel got s).2.content = (got ++ s.content).drop n ∧
      (readFullFrom short n fuel got s).2.ending = s.ending := by
  induction fuel generalizing got s with
  | zero => omega
  | succ fuel ih =>
    unfold readFullFrom
    split_ifs with full
    · have exactly : got.length = n := Nat.le_antisymm fits full
      rw [take_left' exactly, drop_left' exactly]
      exact ⟨rfl, rfl, rfl⟩
    · have kept := read_delivers.kept (n - got.length) s
      have bound := read_items_length (n - got.length) s
      have same := read_delivers.ending (n - got.length) s
      dsimp only at kept same ⊢
      cases outcome : (s.read (n - got.length)).1.error with
      | some e =>
        obtain ⟨done, -⟩ := read_delivers.failed (n - got.length) s e outcome
        dsimp only at done ⊢
        rw [done, append_nil] at kept
        rw [kept, done, if_pos enough]
        rw [kept] at bound
        have exactly : (got ++ s.content).length = n := by
          rw [length_append] at enough ⊢
          omega
        rw [take_of_length_le (Nat.le_of_eq exactly), drop_of_length_le (Nat.le_of_eq exactly)]
        exact ⟨rfl, rfl, same⟩
      | none =>
        have nearer := read_delivers.progress (n - got.length) s (by omega) outcome
        have together : got ++ s.content = got ++ (s.read (n - got.length)).1.items ++
            (s.read (n - got.length)).2.content := by
          rw [append_assoc, kept]
        dsimp only at nearer ⊢
        rw [together, ← same]
        apply ih
        · rw [length_append]
          omega
        · rw [← together]
          exact enough
        · omega

/-- When there is enough, that much of the content is read, and the rest is left. -/
private theorem readFull_eq {short : ε → ε} {n : ℕ} {s : Source α ε} (enough : n ≤ s.content.length) :
    (s.readFull short n).1 = ⟨s.content.take n, none⟩ ∧ (s.readFull short n).2.content = s.content.drop n ∧
      (s.readFull short n).2.ending = s.ending :=
  readFullFrom_eq (Nat.zero_le n) enough (Nat.lt_succ_self _)

theorem readFull_append {short : ε → ε} {n : ℕ} {s : Source α ε} {items rest : List α} (length : items.length = n)
    (here : s.content = items ++ rest) :
    (s.readFull short n).1 = ⟨items, none⟩ ∧ (s.readFull short n).2.content = rest ∧
      (s.readFull short n).2.ending = s.ending := by
  have enough : n ≤ s.content.length := by
    rw [here, length_append]
    omega
  obtain ⟨answer, left, ending⟩ : (s.readFull short n).1 = ⟨s.content.take n, none⟩ ∧ _ := readFull_eq enough
  rw [here, take_left' length] at answer
  rw [here, drop_left' length] at left
  exact ⟨answer, left, ending⟩

end Source

end Socat.Machine
