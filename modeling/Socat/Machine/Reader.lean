import Socat.Machine.Source
import Socat.Machine.Transducer

/-! # Readers on top of readers

A reader is asked for at most so many items. It gives some of them, perhaps none, and perhaps an error, and it may be
asked again. What it still has to hand out is a function of its state; one error, the final one, only comes when
nothing is left. So whatever is asked for, the answers up to a final error put together are what there was to hand
out. A reader that `Exhausts` gets to that error whatever is asked for. A `Feed` is a reader with its state, whatever
the type of that is, so that readers stack like values.
-/

namespace Socat.Machine

/-- `left` bounds the number of items still to come. -/
structure Reader (σ α ε : Type) where
  read : ℕ → σ → Answer α ε × σ
  left : σ → ℕ
  bounded : ∀ n s, (read n s).1.items.length ≤ n
  takes : ∀ n s, (read n s).1.items.length + left (read n s).2 ≤ left s

namespace Reader

variable {σ α ε : Type} {r : Reader σ α ε} {content : σ → List α} {final : ε}

structure Hands (r : Reader σ α ε) (content : σ → List α) (final : ε) : Prop where
  kept : ∀ n s, (r.read n s).1.items ++ content (r.read n s).2 = content s
  ended : ∀ n s, (r.read n s).1.error = some final → content (r.read n s).2 = []

/-- The same of one answer. -/
def Gives (content : σ → List α) (final : ε) (s : σ) (x : Answer α ε × σ) : Prop :=
  x.1.items ++ content x.2 = content s ∧ (x.1.error = some final → content x.2 = [])

theorem Hands.of_gives (gives : ∀ n s, Gives content final s (r.read n s)) : r.Hands content final :=
  ⟨fun n s => (gives n s).1, fun n s => (gives n s).2⟩

/-- The answers to requests of these sizes, and the state after them. -/
def run (r : Reader σ α ε) (s : σ) (sizes : List ℕ) : List (Answer α ε) × σ := transduce (fun s n => r.read n s) s sizes

theorem Hands.run_kept (hands : r.Hands content final) (s : σ) (sizes : List ℕ) :
    (r.run s sizes).1.flatMap Answer.items ++ content (r.run s sizes).2 = content s := by
  induction sizes generalizing s with
  | nil => rfl
  | cons n sizes ih =>
    have first := hands.kept n s
    have later := ih (r.read n s).2
    rw [← first, ← later, ← List.append_assoc]
    rfl

/-- With a final error everything has been handed out. -/
theorem Hands.run_ended (hands : r.Hands content final) {s : σ} {sizes : List ℕ} {before after : List (Answer α ε)}
    {a : Answer α ε} (answers : (r.run s sizes).1 = before ++ a :: after) (ended : a.error = some final) :
    (before ++ [a]).flatMap Answer.items = content s ∧ after.flatMap Answer.items = [] := by
  induction before generalizing s sizes with
  | nil =>
    cases sizes with
    | nil => cases answers
    | cons n sizes =>
      obtain ⟨rfl, rfl⟩ := List.cons.inj answers
      have nothing := hands.ended n s ended
      have rest := hands.run_kept (r.read n s).2 sizes
      have first := hands.kept n s
      rw [nothing, List.append_eq_nil_iff] at rest
      rw [nothing, List.append_nil] at first
      exact ⟨by simpa using first, rest.1⟩
  | cons b before ih =>
    cases sizes with
    | nil => cases answers
    | cons n sizes =>
      obtain ⟨rfl, later⟩ := List.cons.inj answers
      obtain ⟨whole, rest⟩ := ih later
      refine ⟨?_, rest⟩
      rw [List.cons_append, List.flatMap_cons, whole, hands.kept]

/-- Whatever is asked for, the final error comes sooner or later. -/
inductive Exhausts (r : Reader σ α ε) (final : ε) : σ → Prop
  | intro {s : σ} (next : ∀ n, 0 < n → (r.read n s).1.error ≠ some final → Exhausts r final (r.read n s).2) :
      Exhausts r final s

theorem Exhausts.run_ends {s : σ} (exhausts : r.Exhausts final s) {sizes : ℕ → ℕ} (positive : ∀ i, 0 < sizes i) :
    ∃ k before a, (r.run s ((List.range k).map sizes)).1 = before ++ [a] ∧ a.error = some final := by
  induction exhausts generalizing sizes with
  | @intro s next ih =>
    by_cases ended : (r.read (sizes 0) s).1.error = some final
    · exact ⟨1, [], _, rfl, ended⟩
    · obtain ⟨k, before, a, answers, last⟩ := ih (sizes 0) (positive 0) ended fun i => positive (i + 1)
      refine ⟨k + 1, (r.read (sizes 0) s).1 :: before, a, ?_, last⟩
      rw [List.range_succ_eq_map, List.map_cons, List.map_map, List.cons_append, ← answers]
      rfl

end Reader

/-- A reader in some state. -/
structure Feed (α ε : Type) where
  σ : Type
  reader : Reader σ α ε
  state : σ

namespace Feed

variable {α ε : Type}

def answers (f : Feed α ε) (sizes : List ℕ) : List (Answer α ε) := (f.reader.run f.state sizes).1

/-- The items a feed has to hand out before its final error. -/
def Delivers (f : Feed α ε) (final : ε) (items : List α) : Prop :=
  ∃ content, f.reader.Hands content final ∧ content f.state = items

variable {f : Feed α ε} {final : ε} {items : List α}

theorem Delivers.answers_begin (delivers : f.Delivers final items) (sizes : List ℕ) :
    (f.answers sizes).flatMap Answer.items <+: items := by
  obtain ⟨content, hands, rfl⟩ := delivers
  exact ⟨_, hands.run_kept f.state sizes⟩

theorem Delivers.answers_ended (delivers : f.Delivers final items) {sizes : List ℕ} {before after : List (Answer α ε)}
    {a : Answer α ε} (answers : f.answers sizes = before ++ a :: after) (ended : a.error = some final) :
    (before ++ [a]).flatMap Answer.items = items ∧ after.flatMap Answer.items = [] := by
  obtain ⟨content, hands, rfl⟩ := delivers
  exact hands.run_ended answers ended

/-- Whatever is asked for, the answers up to the final error come and are all there is. -/
theorem Delivers.answers_all (delivers : f.Delivers final items) (exhausts : f.reader.Exhausts final f.state)
    {sizes : ℕ → ℕ} (positive : ∀ i, 0 < sizes i) : ∃ k before a, f.answers ((List.range k).map sizes) = before ++ [a] ∧
      a.error = some final ∧ (before ++ [a]).flatMap Answer.items = items := by
  obtain ⟨k, before, a, answers, ended⟩ := exhausts.run_ends positive
  have whole := delivers.answers_ended answers ended
  exact ⟨k, before, a, answers, ended, whole.1⟩

end Feed

end Socat.Machine
