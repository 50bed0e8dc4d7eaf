import Mathlib.Data.List.Infix
import Mathlib.Tactic.Ring
import Socat.Relay.Model.Copy

/-! # A direction copies exactly

Between two reads the destination has accepted what the source returned, and inside a block a prefix of
it: `Settled` and `Writing` are the invariants of the two loops. Every moment at which a worker waits for
a stream is the end of the run on a script that stops there, so the results about all scripts speak
about all moments.
-/

namespace Socat.Relay

open Machine List

/-! ## What the streams saw -/

def CopyEvent.returned : CopyEvent → Option Bytes
  | .read data => some data
  | _ => none

def CopyEvent.taken : CopyEvent → Bytes
  | .accept data => data
  | _ => []

/-- The blocks the source returned. -/
def returned (trace : List CopyEvent) : List Bytes := trace.filterMap CopyEvent.returned

/-- The bytes the destination accepted. -/
def accepted (trace : List CopyEvent) : Bytes := trace.flatMap CopyEvent.taken

/-- How many of the blocks have a byte among the first `n` bytes of their concatenation. -/
def touched : List Bytes → ℕ → ℕ
  | [], _ => 0
  | block :: rest, n => (if block ≠ [] ∧ 0 < n then 1 else 0) + touched rest (n - block.length)

section

variable (trace : List CopyEvent) (data : Bytes)

@[simp] theorem returned_read : returned (trace ++ [.read data]) = returned trace ++ [data] := by
  simp [returned, CopyEvent.returned]

@[simp] theorem returned_accept : returned (trace ++ [.accept data]) = returned trace := by
  simp [returned, CopyEvent.returned]

@[simp] theorem returned_onEOF : returned (trace ++ [.onEOF]) = returned trace := by
  simp [returned, CopyEvent.returned]

@[simp] theorem returned_shutdownWrite : returned (trace ++ [.shutdownWrite]) = returned trace := by
  simp [returned, CopyEvent.returned]

@[simp] theorem accepted_read : accepted (trace ++ [.read data]) = accepted trace := by
  simp [accepted, CopyEvent.taken]

@[simp] theorem accepted_accept : accepted (trace ++ [.accept data]) = accepted trace ++ data := by
  simp [accepted, CopyEvent.taken]

@[simp] theorem accepted_onEOF : accepted (trace ++ [.onEOF]) = accepted trace := by
  simp [accepted, CopyEvent.taken]

@[simp] theorem accepted_shutdownWrite : accepted (trace ++ [.shutdownWrite]) = accepted trace := by
  simp [accepted, CopyEvent.taken]

end

/-- All blocks but the last are accepted, and `n` bytes of the last. -/
theorem touched_append (earlier : List Bytes) (data : Bytes) (n : ℕ) :
    touched (earlier ++ [data]) (earlier.flatten.length + n) =
      touched earlier (earlier.flatten.length) + if data ≠ [] ∧ 0 < n then 1 else 0 := by
  induction earlier with
  | nil => simp [touched]
  | cons block rest ih =>
    have later : (block :: rest).flatten.length + n - block.length = rest.flatten.length + n := by
      rw [flatten_cons, length_append]
      omega
    have whole : (block :: rest).flatten.length - block.length = rest.flatten.length := by
      rw [flatten_cons, length_append]
      omega
    have begun : ∀ m, block ≠ [] ∧ 0 < (block :: rest).flatten.length + m ↔ block ≠ [] := by
      intro m
      refine and_iff_left_of_imp fun nonempty => ?_
      have := length_pos_iff.mpr nonempty
      rw [flatten_cons, length_append]
      omega
    have begun₀ : block ≠ [] ∧ 0 < (block :: rest).flatten.length ↔ block ≠ [] := begun 0
    simp only [cons_append, touched, later, whole, ih, begun, begun₀]
    ring

/-! ## Steps that touch neither stream -/

/-- The counters and the streams are as before. -/
structure Quiet (w w' : CopyWorld) : Prop where
  bytes : w'.bytes = w.bytes
  blocks : w'.blocks = w.blocks
  trace : w'.trace = w.trace

theorem Quiet.trans {a b c : CopyWorld} (first : Quiet a b) (second : Quiet b c) : Quiet a c :=
  ⟨second.bytes.trans first.bytes, second.blocks.trans first.blocks, second.trace.trans first.trace⟩

/-- The computation returns and is quiet. -/
def Quietly {α : Type} (x : CopyM α) : Prop := ∀ w, Ends x w (fun _ => Quiet w) (fun _ _ => False)

section

variable {α β : Type}

theorem quietly_pure (a : α) : Quietly (pure a : CopyM α) := fun _ => ⟨rfl, rfl, rfl⟩

theorem Quietly.before {x : CopyM β} {f : β → CopyM α} {w : CopyWorld} {Q : α → CopyWorld → Prop}
    {E : Blocked → CopyWorld → Prop} (quietly : Quietly x) (rest : ∀ b w', Quiet w w' → Ends (f b) w' Q E) :
    Ends (x >>= f) w Q E :=
  ends_bind.mpr ((quietly w).mono rest fun _ _ => False.elim)

theorem quietly_bind {x : CopyM β} {f : β → CopyM α} (first : Quietly x) (rest : ∀ b, Quietly (f b)) :
    Quietly (x >>= f) := fun _ => first.before fun b w₁ quiet => (rest b w₁).imp fun _ _ => quiet.trans

theorem quietly_ite {c : Prop} [Decidable c] {x y : CopyM α} (yes : Quietly x) (no : Quietly y) :
    Quietly (if c then x else y) := by
  split
  · exact yes
  · exact no

end

theorem ctxErr_quietly : Quietly ctxErr := fun _ => ⟨rfl, rfl, rfl⟩

theorem wait_quietly : Quietly wait := fun _ => ⟨rfl, rfl, rfl⟩

private theorem sharedPending_quietly : Quietly sharedPending := fun _ => ⟨rfl, rfl, rfl⟩

private theorem dump_quietly (on : Bool) (text : String) : Quietly (dump on text) :=
  quietly_ite (fun _ => ⟨rfl, rfl, rfl⟩) (quietly_pure none)

private theorem dumpBlock_quietly (t : DirTask) : Quietly (dumpBlock t) := by
  refine quietly_bind (dump_quietly _ _) fun result => ?_
  cases result with
  | some err => exact quietly_pure _
  | none => cases t.dir <;> exact dump_quietly _ _

private theorem waitRetry_quietly (t : DirTask) (err : GoError) : Quietly (waitRetry t err) :=
  quietly_ite wait_quietly (quietly_pure none)

private theorem beforeRead_quietly (t : DirTask) : Quietly (beforeRead t) := by
  refine quietly_bind ctxErr_quietly fun err => ?_
  cases err with
  | some err => exact quietly_pure _
  | none =>
    refine quietly_ite (quietly_bind sharedPending_quietly fun pending => ?_) (quietly_pure none)
    refine quietly_ite (quietly_pure none) (quietly_bind wait_quietly fun result => ?_)
    cases result <;> exact quietly_pure _

/-! ## Writing a block -/

/-- Inside the block `data`: `written` of its bytes are accepted, the earlier blocks are whole. -/
structure Writing (data : Bytes) (earlier : List Bytes) (written : ℕ) (w : CopyWorld) : Prop where
  within : written ≤ data.length
  reads : returned w.trace = earlier ++ [data]
  taken : accepted w.trace = earlier.flatten ++ data.take written
  bytes : w.bytes = UInt64.ofNat (accepted w.trace).length
  blocks : w.blocks = UInt64.ofNat (touched earlier earlier.flatten.length)
  active : .shutdownWrite ∉ w.trace

namespace Writing

variable {data : Bytes} {earlier : List Bytes} {written : ℕ} {w w' : CopyWorld}

theorem quiet (writing : Writing data earlier written w) (quiet : Quiet w w') : Writing data earlier written w' where
  within := writing.within
  reads := quiet.trace ▸ writing.reads
  taken := quiet.trace ▸ writing.taken
  bytes := quiet.bytes.trans (quiet.trace ▸ writing.bytes)
  blocks := quiet.blocks.trans writing.blocks
  active := quiet.trace ▸ writing.active

/-- The destination accepts more of the block. -/
theorem advance_ends (writing : Writing data earlier written w) {n : ℕ} (more : written + n ≤ data.length) :
    Ends (advance data written n) w (fun _ w' => Writing data earlier (written + n) w') (fun _ _ => False) := by
  unfold advance note
  rw [ends_bind, ends_modify, ends_modify]
  have taken : accepted (w.trace ++ [.accept ((data.drop written).take n)]) =
      earlier.flatten ++ data.take (written + n) := by
    rw [accepted_accept, writing.taken, append_assoc, ← take_add]
  refine ⟨more, by simpa using writing.reads, taken, ?_, writing.blocks, by simpa using writing.active⟩
  have size : (accepted (w.trace ++ [.accept ((data.drop written).take n)])).length
      = (accepted w.trace).length + n := by
    have before := writing.within
    rw [taken, writing.taken]
    simp only [length_append, length_take]
    omega
  change w.bytes + UInt64.ofNat n = UInt64.ofNat _
  rw [size, writing.bytes, UInt64.ofNat_add]

end Writing

variable {data : Bytes} {earlier : List Bytes} {w : CopyWorld}

/-- Every byte of the block is accepted when no error is returned. -/
theorem writeLoop_ends (t : DirTask) (writes : List WriteResult) (written : ℕ)
    (writing : Writing data earlier written w) :
    Ends (writeLoop t data writes written (decide (0 < written))) w
      (fun result w' => ∃ written', result.1 = decide (0 < written') ∧ Writing data earlier written' w' ∧
        (result.2 = none → written' = data.length))
      (fun call w' => call = .write ∧ ∃ written', Writing data earlier written' w') := by
  induction writes generalizing written w with
  | nil =>
    unfold writeLoop
    split
    · exact ends_pure.mpr ⟨written, rfl, writing, fun _ => le_antisymm writing.within ‹_›⟩
    refine ctxErr_quietly.before fun err w₁ quiet => ?_
    cases err with
    | some err => exact ends_pure.mpr ⟨written, rfl, writing.quiet quiet, nofun⟩
    | none => exact ends_throw.mpr ⟨rfl, written, writing.quiet quiet⟩
  | cons result rest ih =>
    obtain ⟨nw, err⟩ := result
    unfold writeLoop
    split
    · exact ends_pure.mpr ⟨written, rfl, writing, fun _ => le_antisymm writing.within ‹_›⟩
    refine ctxErr_quietly.before fun canceled w₁ quiet => ?_
    cases canceled with
    | some err => exact ends_pure.mpr ⟨written, rfl, writing.quiet quiet, nofun⟩
    | none =>
      dsimp only
      rw [ends_bind, ends_modify]
      have writing₁ : Writing data earlier written { w₁ with writes := rest } :=
        writing.quiet (quiet.trans ⟨rfl, rfl, rfl⟩)
      split
      · exact ends_pure.mpr ⟨written, rfl, writing₁, nofun⟩
      rename_i valid
      rw [not_or, not_lt, not_lt] at valid
      have more : written + nw.toNat ≤ data.length := by omega
      have flag : (decide (0 < written) || decide (0 < nw)) = decide (0 < written + nw.toNat) := by
        rw [← Bool.decide_or]
        exact decide_eq_decide.mpr (by omega)
      rw [flag, ends_bind]
      have advanced : Ends (runIf (0 < nw) (advance data written nw.toNat)) { w₁ with writes := rest }
          (fun _ w' => Writing data earlier (written + nw.toNat) w') (fun _ _ => False) := by
        rw [ends_runIf]
        refine ⟨fun _ => writing₁.advance_ends more, fun idle => ?_⟩
        rwa [Int.toNat_of_nonpos (not_lt.mp idle)]
      refine advanced.mono (fun _ w₂ writing₂ => ?_) (fun _ _ => False.elim)
      cases err with
      | none =>
        dsimp only
        split
        · exact ends_pure.mpr ⟨_, rfl, writing₂, nofun⟩
        · exact ih _ writing₂
      | some err =>
        dsimp only
        split
        · refine (waitRetry_quietly t err).before fun waited w₃ quiet₃ => ?_
          cases waited with
          | some err => exact ends_pure.mpr ⟨_, rfl, writing₂.quiet quiet₃, nofun⟩
          | none => exact ih _ (writing₂.quiet quiet₃)
        · exact ends_pure.mpr ⟨_, rfl, writing₂, nofun⟩

/-! ## Rounds -/

/-- Between two rounds. -/
structure Settled (w : CopyWorld) : Prop where
  taken : accepted w.trace = (returned w.trace).flatten
  bytes : w.bytes = UInt64.ofNat (accepted w.trace).length
  blocks : w.blocks = UInt64.ofNat (touched (returned w.trace) (accepted w.trace).length)
  active : .shutdownWrite ∉ w.trace

/-- What holds of an ended direction. -/
structure Copied (outcome : DirOutcome) (w : CopyWorld) : Prop where
  taken : accepted w.trace <+: (returned w.trace).flatten
  bytes : w.bytes = UInt64.ofNat (accepted w.trace).length
  blocks : w.blocks = UInt64.ofNat (touched (returned w.trace) (accepted w.trace).length)
  whole : outcome.cls = .eof → accepted w.trace = (returned w.trace).flatten
  shutdown : ∀ before after, w.trace = before ++ .shutdownWrite :: after →
    outcome.cls = .eof ∧ accepted before = (returned w.trace).flatten

/-- What holds while a worker is inside a call of a stream. While it writes a block, those before it are accepted as a
whole and counted; this one is counted when it is left. -/
structure Copying (call : Blocked) (w : CopyWorld) : Prop where
  taken : accepted w.trace <+: (returned w.trace).flatten
  bytes : w.bytes = UInt64.ofNat (accepted w.trace).length
  reading : call = .read → w.blocks = UInt64.ofNat (touched (returned w.trace) (accepted w.trace).length)
  writing : call = .write → (returned w.trace).dropLast.flatten <+: accepted w.trace ∧
    w.blocks = UInt64.ofNat (touched (returned w.trace).dropLast (returned w.trace).dropLast.flatten.length)
  active : .shutdownWrite ∉ w.trace

theorem Settled.quiet {w' : CopyWorld} (settled : Settled w) (quiet : Quiet w w') : Settled w' where
  taken := quiet.trace ▸ settled.taken
  bytes := quiet.bytes.trans (quiet.trace ▸ settled.bytes)
  blocks := quiet.blocks.trans (quiet.trace ▸ settled.blocks)
  active := quiet.trace ▸ settled.active

/-- A trace without the call has no place for it. -/
theorem not_shutdown {trace : List CopyEvent} (active : .shutdownWrite ∉ trace) {before after : List CopyEvent}
    (split : trace = before ++ .shutdownWrite :: after) : False :=
  active (split ▸ mem_append_right before mem_cons_self)

theorem Settled.copied (settled : Settled w) (outcome : DirOutcome) : Copied outcome w where
  taken := settled.taken ▸ prefix_rfl
  bytes := settled.bytes
  blocks := settled.blocks
  whole _ := settled.taken
  shutdown _ _ split := (not_shutdown settled.active split).elim

theorem Settled.copying (settled : Settled w) : Copying .read w where
  taken := settled.taken ▸ prefix_rfl
  bytes := settled.bytes
  reading _ := settled.blocks
  writing := nofun
  active := settled.active

namespace Writing

variable {data : Bytes} {earlier : List Bytes} {written : ℕ} {w : CopyWorld}

theorem isPrefix (writing : Writing data earlier written w) : accepted w.trace <+: (returned w.trace).flatten := by
  rw [writing.taken, writing.reads, flatten_append, flatten_singleton]
  have front : data.take written <+: data := take_prefix written data
  exact (prefix_append_right_inj _).mpr front

private theorem copying (writing : Writing data earlier written w) : Copying .write w where
  taken := writing.isPrefix
  bytes := writing.bytes
  reading := nofun
  writing _ := by
    rw [writing.reads, dropLast_concat, writing.taken]
    exact ⟨prefix_append _ _, writing.blocks⟩
  active := writing.active

/-- Leaving the block counts it when a byte of it was accepted. -/
theorem counted (writing : Writing data earlier written w) (nonempty : data ≠ []) :
    touched (returned w.trace) (accepted w.trace).length =
      touched earlier earlier.flatten.length + if 0 < written then 1 else 0 := by
  rw [writing.reads, writing.taken, length_append, length_take, Nat.min_eq_left writing.within,
    touched_append]
  simp only [nonempty, ne_eq, not_false_eq_true, true_and]

private theorem countBlock_ends (writing : Writing data earlier written w) (nonempty : data ≠ []) :
    Ends (countBlock (decide (0 < written))) w
      (fun _ w' => w'.trace = w.trace ∧ w'.bytes = w.bytes ∧
        w'.blocks = UInt64.ofNat (touched (returned w.trace) (accepted w.trace).length))
      (fun _ _ => False) := by
  unfold countBlock
  rw [ends_runIf, decide_eq_true_iff, writing.counted nonempty]
  refine ⟨fun some => ⟨rfl, rfl, ?_⟩, fun none => ⟨rfl, rfl, ?_⟩⟩
  · rw [if_pos some, UInt64.ofNat_add, ← writing.blocks]
    rfl
  · rw [if_neg none]
    exact writing.blocks

end Writing

/-- What a part of a round ends with: an outcome of the direction, or more rounds. -/
structure Round (reads : List Bytes) (ended : Option DirOutcome) (w : CopyWorld) : Prop where
  reads : returned w.trace = reads
  settled : ended = none → Settled w
  copied : ∀ outcome, ended = some outcome → Copied outcome w

theorem Settled.round (settled : Settled w) (ended : Option DirOutcome) : Round (returned w.trace) ended w :=
  ⟨rfl, fun _ => settled, fun outcome _ => settled.copied outcome⟩

/-- A block that is written whole settles the round; every other end of it is not the source's. -/
theorem copyBlock_ends (t : DirTask) (writing : Writing data earlier 0 w) (nonempty : data ≠ []) :
    Ends (copyBlock t data) w
      (fun ended w' => Round (earlier ++ [data]) ended w')
      (fun call w' => returned w'.trace = earlier ++ [data] ∧ Copying call w') := by
  have foreign : ∀ err : GoError,
      (if isBenignClose err then dirClosed t.dir else classifyDirError t.dir err).cls ≠ .eof := by
    intro err
    split
    · simp [dirClosed]
    · exact classifyDirError_cls t.dir err
  unfold copyBlock
  refine (dumpBlock_quietly t).before fun dumped w₁ quiet => ?_
  have writing₁ := writing.quiet quiet
  cases dumped with
  | some err =>
    refine ends_pure.mpr ⟨writing₁.reads, nofun, fun outcome ended => ?_⟩
    obtain rfl := Option.some.inj ended
    refine ⟨writing₁.isPrefix, writing₁.bytes, ?_, fun eof => absurd eof (classifyDirError_cls t.dir err),
      fun _ _ split => (not_shutdown writing₁.active split).elim⟩
    rw [writing₁.counted nonempty]
    exact writing₁.blocks
  | none =>
    dsimp only
    rw [ends_bind]
    refine (writeLoop_ends t w₁.writes 0 writing₁).mono (fun result w₂ wrote => ?_) (fun call w₂ stopped => ?_)
    · obtain ⟨wroteBlock, err⟩ := result
      obtain ⟨written, rfl, writing₂, whole⟩ := wrote
      dsimp only
      rw [ends_bind]
      refine (writing₂.countBlock_ends nonempty).mono (fun _ w₃ outcome => ?_) (fun _ _ => False.elim)
      obtain ⟨trace, bytes, blocks⟩ := outcome
      rw [← trace] at blocks
      have bytes₃ : w₃.bytes = UInt64.ofNat (accepted w₃.trace).length := by
        rw [bytes, trace]
        exact writing₂.bytes
      have active : .shutdownWrite ∉ w₃.trace := trace ▸ writing₂.active
      have reads : returned w₃.trace = earlier ++ [data] := trace ▸ writing₂.reads
      cases err with
      | none =>
        refine ends_pure.mpr ⟨reads, fun _ => ⟨?_, bytes₃, blocks, active⟩, nofun⟩
        rw [reads, trace, writing₂.taken, whole rfl, take_length, flatten_append, flatten_singleton]
      | some err =>
        refine ends_pure.mpr ⟨reads, nofun, fun outcome ended => ?_⟩
        obtain rfl := Option.some.inj ended
        exact ⟨trace ▸ writing₂.isPrefix, bytes₃, blocks, fun eof => absurd eof (foreign err),
          fun _ _ split => (not_shutdown active split).elim⟩
    · obtain ⟨rfl, written, writing₂⟩ := stopped
      exact ⟨writing₂.reads, writing₂.copying⟩

private theorem shutdown_last {trace before after : List CopyEvent} (active : .shutdownWrite ∉ trace)
    (split : trace ++ [.shutdownWrite] = before ++ .shutdownWrite :: after) : before = trace := by
  rcases append_eq_append_iff.mp split with ⟨later, rfl, rest⟩ | ⟨later, rfl, rest⟩
  · cases later with
    | nil => exact append_nil trace
    | cons event events => simp at rest
  · cases later with
    | nil => exact (append_nil before).symm
    | cons event events =>
      obtain ⟨rfl, -⟩ := cons_eq_cons.mp rest
      exact absurd (mem_append_right before mem_cons_self) active

/-- The source's end: all of it is accepted, and only then is the destination shut down. -/
theorem finishSourceEOF_ends (t : DirTask) (settled : Settled w) : Ends (finishSourceEOF t) w
      (fun outcome w' => returned w'.trace = returned w.trace ∧ Copied outcome w') (fun _ _ => False) := by
  unfold finishSourceEOF note
  rw [ends_bind, ends_modify]
  have told : Settled { w with trace := w.trace ++ [.onEOF] } := by
    refine ⟨?_, ?_, ?_, ?_⟩
    · simpa using settled.taken
    · simpa using settled.bytes
    · simpa using settled.blocks
    · simpa using settled.active
  refine ctxErr_quietly.before fun err w₁ quiet => ?_
  have settled₁ := told.quiet quiet
  have reads : returned w₁.trace = returned w.trace := by rw [quiet.trace, returned_onEOF]
  rw [ends_bind, ends_runIf]
  refine ⟨fun _ => ends_modify.mpr (ends_pure.mpr ⟨?_, ?_⟩), fun _ => ends_pure.mpr ⟨reads, settled₁.copied _⟩⟩
  · simpa using reads
  · refine ⟨?_, ?_, ?_, fun _ => ?_, fun before after split => ⟨rfl, ?_⟩⟩
    · simpa using settled₁.taken ▸ prefix_rfl
    · simpa using settled₁.bytes
    · simpa using settled₁.blocks
    · simpa using settled₁.taken
    · rw [shutdown_last settled₁.active split, settled₁.taken]
      simp

private theorem readError_ends (t : DirTask) (err : GoError) (settled : Settled w) :
    Ends (readError t err) w (fun ended w' => Round (returned w.trace) ended w') (fun _ _ => False) := by
  unfold readError
  refine ctxErr_quietly.before fun cause w₁ quiet => ?_
  have settled₁ := settled.quiet quiet
  rw [← quiet.trace]
  split
  · exact ends_pure.mpr (settled₁.round _)
  · split
    · exact ends_pure.mpr (settled₁.round _)
    · split
      · rw [ends_map]
        refine (finishSourceEOF_ends t settled₁).imp fun outcome w₂ finished => ?_
        refine ⟨finished.1, nofun, fun outcome' same => ?_⟩
        exact Option.some.inj same ▸ finished.2
      · exact ends_pure.mpr (settled₁.round _)

/-- A read without bytes changes nothing that is counted. -/
theorem Settled.empty (settled : Settled w) : Settled { w with trace := w.trace ++ [.read []] } := by
  refine ⟨?_, ?_, ?_, ?_⟩
  · simpa using settled.taken
  · simpa using settled.bytes
  · have same := touched_append (returned w.trace) [] 0
    simp only [add_zero, ne_eq, not_true_eq_false, lt_self_iff_false, and_self, ite_false] at same
    change w.blocks = _
    rw [returned_read, accepted_read, settled.taken, same, ← settled.taken]
    exact settled.blocks
  · simpa using settled.active

theorem Settled.begin (settled : Settled w) (data : Bytes) :
    Writing data (returned w.trace) 0 { w with trace := w.trace ++ [.read data] } where
  within := Nat.zero_le _
  reads := returned_read _ _
  taken := by simpa using settled.taken
  bytes := by simpa using settled.bytes
  blocks := settled.taken ▸ settled.blocks
  active := by simpa using settled.active

private theorem takeRead_ends (t : DirTask) (data : Bytes) (err : Option GoError) (settled : Settled w) :
    Ends (takeRead t data err) w (fun ended w' => Round (returned w.trace ++ [data]) ended w')
      (fun call w' => returned w'.trace = returned w.trace ++ [data] ∧ Copying call w') := by
  have block : Ends (copyData t data)
      { w with trace := w.trace ++ [.read data] }
      (fun ended w' => Round (returned w.trace ++ [data]) ended w')
      (fun call w' => returned w'.trace = returned w.trace ++ [data] ∧ Copying call w') := by
    unfold copyData
    split
    · rename_i none
      subst none
      exact ends_pure.mpr (returned_read w.trace [] ▸ settled.empty.round none)
    · exact copyBlock_ends t (settled.begin data) ‹_›
  unfold takeRead note
  rw [ends_bind, ends_modify, ends_bind]
  refine block.imp fun ended w₁ round => ?_
  split
  · exact ends_pure.mpr round
  · exact ends_pure.mpr round
  · rw [← round.reads]
    exact (readError_ends t _ (round.settled rfl)).mono (fun _ _ => id) (fun _ _ => False.elim)

private theorem copyRound_ends (t : DirTask) (read : Option ReadResult) (settled : Settled w) :
    Ends (copyRound t read) w
      (fun ended w' => ∃ used, used <+: read.toList.map Prod.fst ∧ Round (returned w.trace ++ used) ended w' ∧
        (ended = none → used = read.toList.map Prod.fst))
      (fun call w' => ∃ used, used <+: read.toList.map Prod.fst ∧ returned w'.trace = returned w.trace ++ used ∧
        Copying call w') := by
  unfold copyRound
  refine (beforeRead_quietly t).before fun ended w₁ quiet => ?_
  have settled₁ := settled.quiet quiet
  cases ended with
  | some outcome =>
    refine ends_pure.mpr ⟨[], nil_prefix, ?_, nofun⟩
    rw [append_nil, ← quiet.trace]
    exact settled₁.round _
  | none =>
    cases read with
    | none =>
      refine ends_throw.mpr ⟨[], nil_prefix, ?_, settled₁.copying⟩
      rw [append_nil, quiet.trace]
    | some read =>
      rw [← quiet.trace]
      exact (takeRead_ends t read.1 read.2 settled₁).mono
        (fun _ _ round => ⟨[read.1], prefix_rfl, round, fun _ => rfl⟩)
        (fun _ _ stopped => ⟨[read.1], prefix_rfl, stopped⟩)

/-- From a settled state every run of the loop keeps the destination on a prefix of the source. -/
theorem copyBuffered_ends (t : DirTask) (reads : List ReadResult) (settled : Settled w) :
    Ends (copyBuffered t reads) w
      (fun outcome w' => ∃ used, used <+: reads.map Prod.fst ∧ returned w'.trace = returned w.trace ++ used ∧
        Copied outcome w')
      (fun call w' => ∃ used, used <+: reads.map Prod.fst ∧ returned w'.trace = returned w.trace ++ used ∧
        Copying call w') := by
  induction reads generalizing w with
  | nil =>
    unfold copyBuffered
    rw [ends_bind]
    refine (copyRound_ends t none settled).imp fun ended w₁ outcome => ?_
    obtain ⟨used, within, round, -⟩ := outcome
    cases ended with
    | some outcome => exact ends_pure.mpr ⟨used, within, round.reads, round.copied outcome rfl⟩
    | none => exact ends_throw.mpr ⟨used, within, round.reads, (round.settled rfl).copying⟩
  | cons read rest ih =>
    unfold copyBuffered
    rw [ends_bind]
    have shorter : ∀ used : List Bytes, used <+: [read.1] → used <+: (read :: rest).map Prod.fst := fun used within =>
      within.trans (prefix_append [read.1] (rest.map Prod.fst))
    refine (copyRound_ends t (some read) settled).mono (fun ended w₁ outcome => ?_)
      (fun _ _ stopped => ?_)
    · obtain ⟨used, within, round, whole⟩ := outcome
      cases ended with
      | some outcome =>
        exact ends_pure.mpr ⟨used, shorter used within, round.reads, round.copied outcome rfl⟩
      | none =>
        obtain rfl : used = [read.1] := whole rfl
        have later : ∀ (trace : List CopyEvent) (used : List Bytes), returned trace = returned w₁.trace ++ used →
            returned trace = returned w.trace ++ ([read.1] ++ used) := fun trace used reads => by
          rw [reads, round.reads, append_assoc]
        exact (ih (round.settled rfl)).mono
          (fun outcome w₂ ⟨used, within, reads, copied⟩ =>
            ⟨[read.1] ++ used, (prefix_append_right_inj _).mpr within, later _ _ reads, copied⟩)
          (fun call w₂ ⟨used, within, reads, copying⟩ =>
            ⟨[read.1] ++ used, (prefix_append_right_inj _).mpr within, later _ _ reads, copying⟩)
    · obtain ⟨used, within, rest⟩ := stopped
      exact ⟨used, shorter used within, rest⟩

/-! ## Scripts -/

/-- What the surroundings of a direction answer. -/
structure CopyScript where
  reads : List ReadResult := []
  writes : List WriteResult := []
  polls : List (Option GoError) := []
  dumps : List (Option GoError) := []
  shared : List Bool := []
  ctx : Context := {}

def CopyScript.start (script : CopyScript) : CopyWorld where
  writes := script.writes
  polls := script.polls
  dumps := script.dumps
  shared := script.shared
  ctx := script.ctx

/-- Whatever the streams, the poller and the dumps do and whenever the transfer is cancelled, the
destination has accepted a prefix of what the source returned, the counters say how much, and a
direction that ends with the source has handed over all of it before it shuts the destination down. -/
theorem copyBuffered_exact (t : DirTask) (script : CopyScript) :
    Ends (copyBuffered t script.reads) script.start
      (fun outcome w => returned w.trace <+: script.reads.map Prod.fst ∧ Copied outcome w)
      (fun call w => returned w.trace <+: script.reads.map Prod.fst ∧ Copying call w) := by
  have settled : Settled script.start := ⟨rfl, rfl, rfl, not_mem_nil⟩
  refine (copyBuffered_ends t script.reads settled).mono (fun outcome w ended => ?_) (fun call w ended => ?_)
  all_goals
    obtain ⟨used, within, reads, rest⟩ := ended
    rw [show returned script.start.trace = [] from rfl, nil_append] at reads
    exact ⟨reads ▸ within, rest⟩

/-- A write of which one byte was accepted goes on: the byte is counted, its block only when the write is over. -/
theorem copyBuffered_counts_late :
    (match copyBuffered { dir := .leftToRight } [([1, 2, 3], none)]
        (CopyScript.start { writes := [(1, some (.sentinel .wouldBlock))] }) with
      | .error .write w => some (w.bytes, w.blocks, touched (returned w.trace) (accepted w.trace).length)
      | _ => none) = some (1, 0, 1) := by
  decide +kernel

/-- A short write that would block, then the rest, then the source's end. -/
example :
    (match copyBuffered { dir := .leftToRight } [([1, 2, 3], none), ([4], some (.sentinel .eof))]
        { writes := [(1, some (.sentinel .wouldBlock)), (2, none), (1, none)] } with
      | .ok outcome w => (outcome.cls, w.trace.getLast?, w.bytes, w.blocks)
      | .error _ w => (.failed, none, w.bytes, w.blocks)) = (.eof, some .shutdownWrite, 4, 2) := by
  decide +kernel

end Socat.Relay
