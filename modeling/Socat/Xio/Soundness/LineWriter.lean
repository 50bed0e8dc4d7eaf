import Mathlib.Data.List.TakeWhile
import Socat.Machine.Actions
import Socat.Xio.Model.LineWriter

/-! # Nothing of a line is written twice

At every return of `crnlWriter.Write` the bytes it has reported are the bytes below, with CR LF for LF. A CR that is
below without its LF belongs to the first byte that is not reported, and the caller comes back with that byte.
-/

namespace Socat.Xio.Filter

open Machine List

/-- CR LF for every LF. -/
def expand (data : List UInt8) : List UInt8 := data.flatMap fun b => if b = LF then [CR, LF] else [b]

theorem expand_append (a b : List UInt8) : expand (a ++ b) = expand a ++ expand b := flatMap_append

private theorem expand_plain {data : List UInt8} (plain : ∀ b ∈ data, b ≠ LF) : expand data = data := by
  induction data with
  | nil => rfl
  | cons b rest ih =>
    obtain ⟨here, later⟩ := forall_mem_cons.mp plain
    show (if b = LF then [CR, LF] else [b]) ++ expand rest = b :: rest
    rw [if_neg here, ih later]
    rfl

namespace CrnlWriter

/-- The CR whose LF is owed. -/
def owed (c : CrnlWriter) : List UInt8 := if c.pendingLF then [CR] else []

/-- So many bytes of the input are below, after what was there before. -/
structure Took (before p : List UInt8) (k : ℕ) (c : CrnlWriter) : Prop where
  split : ∃ done rest, p = done ++ rest ∧ done.length = k ∧ c.w.accepted = before ++ expand done ++ c.owed ∧
    (c.pendingLF = true → rest.head? = some LF)

variable {c : CrnlWriter}

theorem write_count_le (w : Sink) (data : List UInt8) : (w.write data).1.1 ≤ data.length := Nat.min_le_right ..

theorem write_accepted (w : Sink) (data : List UInt8) :
    (w.write data).2.accepted = w.accepted ++ data.take (w.write data).1.1 := rfl

/-- A run without LF: some of it is below, and all of it if there is no error. -/
theorem writeRun_took (free : c.pendingLF = false) {run : List UInt8} (plain : ∀ b ∈ run, b ≠ LF) :
    (c.writeRun run).2.pendingLF = false ∧ (c.writeRun run).1.1 ≤ run.length ∧
      (c.writeRun run).2.w.accepted = c.w.accepted ++ expand (run.take (c.writeRun run).1.1) ∧
      ((c.writeRun run).1.2 = none → (c.writeRun run).1.1 = run.length) := by
  unfold writeRun
  split_ifs with empty
  · subst empty
    exact ⟨free, Nat.le_refl 0, (append_nil _).symm, fun _ => rfl⟩
  · refine ⟨free, write_count_le c.w run, ?_, fun fine => ?_⟩
    · rw [expand_plain fun b member => plain b (mem_of_mem_take member)]
      rfl
    · dsimp only at fine ⊢
      by_contra short
      rw [if_pos short] at fine
      cases fine

/-- Both bytes are below, or one at the most. -/
theorem writeCRLF_took (free : c.pendingLF = false) :
    (c.writeCRLF.1.1 = true → c.writeCRLF.2.pendingLF = false ∧
      c.writeCRLF.2.w.accepted = c.w.accepted ++ expand [LF]) ∧
      (c.writeCRLF.1.1 = false → c.writeCRLF.2.w.accepted = c.w.accepted ++ c.writeCRLF.2.owed) := by
  have both : expand [LF] = [CR, LF] := rfl
  have bounded := write_count_le c.w [CR, LF]
  have first := write_accepted c.w [CR, LF]
  unfold writeCRLF
  dsimp only
  generalize c.w.write [CR, LF] = a at bounded first ⊢
  obtain ⟨⟨n, err⟩, w⟩ := a
  match n, bounded with
  | 0, _ => simp_all [owed]
  | 2, _ => simp_all
  | 1, _ =>
    cases err with
    | some err => simpa [owed] using first
    | none =>
      have last := write_accepted w [LF]
      rcases Nat.le_one_iff_eq_zero_or_eq_one.mp (write_count_le w [LF]) with none | one
      · simp_all [owed]
      · simp_all

theorem Took.zero (free : c.pendingLF = false) (p : List UInt8) : Took c.w.accepted p 0 c :=
  ⟨[], p, rfl, rfl, by simp [expand, owed, free], by simp [free]⟩

/-- What is taken of the bytes behind `done`. -/
theorem Took.after {c' : CrnlWriter} {before done rest : List UInt8} {k : ℕ} (took : Took c.w.accepted rest k c')
    (below : c.w.accepted = before ++ expand done) : Took before (done ++ rest) (done.length + k) c' := by
  obtain ⟨more, left, rfl, rfl, accepted, owes⟩ := took
  refine ⟨done ++ more, left, (append_assoc ..).symm, length_append, ?_, owes⟩
  rw [accepted, below, expand_append, append_assoc before]

theorem takeWhile_plain (p : List UInt8) : ∀ b ∈ p.takeWhile (· ≠ LF), b ≠ LF := fun b member => by
  simpa using mem_takeWhile_imp member

/-- The run before an LF is below, and then what follows. -/
theorem Took.line {p rest : List UInt8} {b : UInt8} (free : c.pendingLF = false)
    (here : p.dropWhile (· ≠ LF) = b :: rest) (fine : (c.writeRun (p.takeWhile (· ≠ LF))).1.2 = none) {k : ℕ}
    {c' : CrnlWriter} (took : Took (c.writeRun (p.takeWhile (· ≠ LF))).2.w.accepted (LF :: rest) k c') :
    Took c.w.accepted p ((c.writeRun (p.takeWhile (· ≠ LF))).1.1 + k) c' := by
  obtain ⟨-, -, below, whole⟩ := writeRun_took free (takeWhile_plain p)
  have first := head?_dropWhile_not (· ≠ LF) p
  rw [here] at first
  obtain rfl : b = LF := by simpa using first
  rw [whole fine, take_length] at below
  have after := took.after below
  rwa [← here, takeWhile_append_dropWhile, ← whole fine] at after

private theorem writeLoop_took (free : c.pendingLF = false) (written : ℕ) (p : List UInt8) :
    ∃ k, (c.writeLoop written p).1.1 = written + k ∧ Took c.w.accepted p k (c.writeLoop written p).2 := by
  fun_induction c.writeLoop written p with
  | case1 written p c r err failed | case2 written p c r fine none =>
    obtain ⟨free', bounded, below, -⟩ := writeRun_took free (takeWhile_plain p)
    have took := (Took.zero free' ((p.takeWhile (· ≠ LF)).drop r.1.1 ++ p.dropWhile (· ≠ LF))).after below
    rw [← append_assoc, take_append_drop, takeWhile_append_dropWhile,
      length_take_of_le bounded] at took
    exact ⟨_, rfl, took⟩
  | case3 written p c r fine b rest here l failed =>
    have owed := (writeCRLF_took (writeRun_took free (takeWhile_plain p)).1).2 failed
    refine ⟨r.1.1 + 0, rfl, .line free here fine ⟨[], _, rfl, rfl, ?_, fun _ => rfl⟩⟩
    exact owed.trans (congrArg (· ++ l.2.owed) (append_nil _).symm)
  | case4 written p c r fine b rest here l both err failed =>
    obtain ⟨free', crlf⟩ :=
      (writeCRLF_took (writeRun_took free (takeWhile_plain p)).1).1 ((Bool.not_eq_false _).mp both)
    exact ⟨r.1.1 + 1, Nat.add_assoc .., .line free here fine ((Took.zero free' rest).after crlf)⟩
  | case5 written p c r fine b rest here l both done ih =>
    obtain ⟨free', crlf⟩ :=
      (writeCRLF_took (writeRun_took free (takeWhile_plain p)).1).1 ((Bool.not_eq_false _).mp both)
    obtain ⟨k, count, took⟩ := ih free'
    exact ⟨r.1.1 + (1 + k), by rw [count]; omega, .line free here fine (took.after crlf)⟩

/-- A caller that is owed an LF comes back with it. -/
private theorem write_took {before p : List UInt8} (below : c.w.accepted = before ++ c.owed)
    (owes : c.pendingLF = true → p.head? = some LF) : Took before p (c.write p).1.1 (c.write p).2 := by
  unfold write
  by_cases pending : c.pendingLF = true
  · rw [if_pos pending]
    obtain ⟨rest, rfl⟩ : ∃ rest, p = LF :: rest := by
      cases p with
      | nil => cases owes pending
      | cons b rest => exact ⟨rest, congrArg (· :: rest) (Option.some.inj (owes pending))⟩
    rw [owed, if_pos pending] at below
    have more := write_accepted c.w [LF]
    by_cases one : (c.w.write [LF]).1.1 = 1
    · rw [if_pos one, head?_cons, if_pos rfl]
      dsimp only
      rw [one, below, append_assoc] at more
      set next : CrnlWriter := ⟨(c.w.write [LF]).2, false⟩ with made
      have crlf : next.w.accepted = before ++ expand [LF] := more
      split
      · exact (Took.zero rfl rest).after crlf
      · obtain ⟨k, count, took⟩ := writeLoop_took (c := next) rfl 1 rest
        show Took before ([LF] ++ rest) (next.writeLoop 1 rest).1.1 _
        rw [count]
        exact took.after crlf
    · rw [if_neg one]
      have none : (c.w.write [LF]).1.1 = 0 := by
        have once := write_count_le c.w [LF]
        rw [length_singleton] at once
        omega
      rw [none, take_zero, append_nil, below] at more
      exact ⟨[], _, rfl, rfl, by simp [expand, owed, pending, more], fun _ => rfl⟩
  · rw [if_neg pending]
    obtain ⟨k, count, took⟩ := writeLoop_took ((Bool.not_eq_true _).mp pending) 0 p
    rw [owed, if_neg pending, append_nil] at below
    rw [count, Nat.zero_add, ← below]
    exact took

end CrnlWriter

/-- The bytes below are those reported as written, and a CR whose LF is the next byte. -/
def Caller.Exact (input : List UInt8) (s : Caller) : Prop :=
  s.consumed ≤ input.length ∧
    s.writer.w.accepted = expand (input.take s.consumed) ++ (if s.writer.pendingLF then [CR] else []) ∧
    (s.writer.pendingLF = true → input[s.consumed]? = some LF)

theorem Caller.exact {input : List UInt8} {answers : ℕ → Acceptance} {s : Caller}
    (reaches : Reaches (Caller.step input) ⟨0, ⟨{ answers }, false⟩⟩ s) : s.Exact input := by
  refine reaches.invariant (P := Exact input) ?_ ⟨Nat.zero_le _, rfl, nofun⟩
  rintro s size s' ⟨bounded, below, owes⟩ taken
  unfold Caller.step at taken
  split_ifs at taken with called
  cases taken
  have comes : s.writer.pendingLF = true → ((input.drop s.consumed).take size).head? = some LF := fun pending => by
    rw [head?_take, if_neg (by omega), head?_drop, owes pending]
  obtain ⟨done, rest, cut, count, after, next⟩ := (CrnlWriter.write_took below comes).split
  have whole : input.drop s.consumed = done ++ (rest ++ (input.drop s.consumed).drop size) := by
    rw [← append_assoc, ← cut, take_append_drop]
  refine ⟨?_, ?_, fun pending => ?_⟩
  · have lengths := congrArg List.length whole
    simp only [length_drop, length_append] at lengths
    show s.consumed + _ ≤ _
    omega
  · have taken : input.take (s.consumed + done.length) = input.take s.consumed ++ done := by
      rw [take_add, whole, take_left]
    show _ = expand (input.take (s.consumed + _)) ++ _
    rw [← count, taken, expand_append]
    exact after
  · show input[s.consumed + _]? = _
    rw [← getElem?_drop, ← count, whole, getElem?_append_right (Nat.le_refl _), Nat.sub_self,
      ← head?_eq_getElem?, head?_append, next pending]
    rfl

/-- Whatever the writer below accepts and however often the caller comes back, the bytes below are those reported as
written, with CR LF for LF, and a CR exactly when an LF is owed, which is the next byte then. -/
theorem crnl_writes_exactly (input : List UInt8) (answers : ℕ → Acceptance) {s : Caller}
    (reaches : Reaches (Caller.step input) ⟨0, ⟨{ answers }, false⟩⟩ s) :
    s.consumed ≤ input.length ∧
      s.writer.w.accepted = expand (input.take s.consumed) ++ (if s.writer.pendingLF then [CR] else []) ∧
      (s.writer.pendingLF = true → input[s.consumed]? = some LF) := Caller.exact reaches

/-- A short write, a CR without its LF, and an error that comes with the LF. -/
theorem crnl_writes_exactly_retried :
    ∃ s : Caller, s.consumed = 3 ∧ s.writer.w.accepted = expand [97, LF, 98] ∧ s.writer.pendingLF = false := by
  let answers : ℕ → Acceptance := fun i =>
    match i with
    | 1 => ⟨1, some .retryable⟩
    | 2 => ⟨0, some .retryable⟩
    | 3 => ⟨1, some .other⟩
    | _ => ⟨9, none⟩
  have followed : (follow (Caller.step [97, LF, 98]) [3, 3, 3, 3] ⟨0, ⟨{ answers }, false⟩⟩).any fun s =>
      s.consumed = 3 ∧ s.writer.pendingLF = false := by decide +kernel
  obtain ⟨s, here, facts⟩ := (Option.any_eq_true _ _).mp followed
  obtain ⟨all, settled⟩ := of_decide_eq_true facts
  obtain ⟨-, below, -⟩ := crnl_writes_exactly [97, LF, 98] answers (reaches_follow here)
  rw [all, settled] at below
  exact ⟨s, all, by simpa using below, settled⟩

end Socat.Xio.Filter
