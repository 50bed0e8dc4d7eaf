import Socat.Dtls13.Soundness.ReadEpochs
import Socat.Machine.Pool

/-! # No record is opened twice

The read epochs of a session are a pool of replay windows. A window refuses every number it has
accepted, also after it has slid past it, and no read epoch is created twice. So the numbers of all
records that were ever opened differ.
-/

namespace Socat.Dtls13

open Machine AList TrafficEpochs

/-! ## The window -/

namespace ReplayWindow

variable {w w' : ReplayWindow} {s j : ℕ}

/-- The number was accepted, or lies before the window. -/
def Seen (w : ReplayWindow) (s : ℕ) : Prop :=
  w.bits ≠ 0 ∧ s ≤ w.highest ∧ (64 ≤ w.highest - s ∨ w.bits.getLsbD (w.highest - s) = true)

theorem getLsbD_one_shift (d i : ℕ) : (1#64 <<< d).getLsbD i = (decide (i = d) && decide (d < 64)) := by
  rw [BitVec.getLsbD_shiftLeft]
  by_cases same : i = d
  · subst same
    simp
  · by_cases below : i < d
    · simp [same, below]
    · have positive : i - d ≠ 0 := by omega
      simp [same, positive]

theorem ne_zero_of_bit {bits : BitVec 64} {i : ℕ} (bit : bits.getLsbD i = true) : bits ≠ 0 := by
  rintro rfl
  simp at bit

private theorem and_one_shift {bits : BitVec 64} {d : ℕ} (small : d < 64) :
    bits &&& (1#64 <<< d) ≠ 0 ↔ bits.getLsbD d = true := by
  constructor
  · intro nonzero
    by_contra unset
    refine nonzero (BitVec.eq_of_getLsbD_eq fun i _ => ?_)
    rw [BitVec.getLsbD_and, getLsbD_one_shift]
    by_cases same : i = d
    · simp [same, Bool.eq_false_iff.mpr unset]
    · simp [same]
  · intro set
    apply ne_zero_of_bit (i := d)
    rw [BitVec.getLsbD_and, getLsbD_one_shift, set]
    simp [small]

theorem accept_eq_none : w.accept s = none ↔ w.Seen s := by
  unfold accept Seen
  split
  · rename_i empty
    simp [empty]
  rename_i filled
  split
  · rename_i later
    exact ⟨nofun, fun seen => absurd seen.2.1 (Nat.not_le.mpr later)⟩
  · rename_i reached
    dsimp only
    split
    · rename_i refused
      refine ⟨fun _ => ⟨filled, Nat.not_lt.mp reached, ?_⟩, fun _ => rfl⟩
      by_cases old : 64 ≤ w.highest - s
      · exact .inl old
      · exact .inr ((and_one_shift (Nat.lt_of_not_le old)).mp (refused.resolve_left old))
    · rename_i fresh
      simp only [not_or, not_not] at fresh
      refine ⟨nofun, fun seen => ?_⟩
      have bit := seen.2.2.resolve_left fresh.1
      exact absurd fresh.2 ((and_one_shift (Nat.lt_of_not_le fresh.1)).mpr bit)

/-- An accepted number is refused from then on. -/
theorem Seen.of_accept (accepted : w.accept s = some w') : w'.Seen s := by
  unfold accept at accepted
  split at accepted
  · cases accepted
    exact ⟨(by decide : (1 : BitVec 64) ≠ 0), le_rfl, .inr (by simp)⟩
  split at accepted
  · cases accepted
    exact ⟨ne_zero_of_bit (i := 0) (by simp), le_rfl, .inr (by simp)⟩
  · rename_i filled later
    dsimp only at accepted
    split at accepted
    · contradiction
    · rename_i fresh
      simp only [not_or, Nat.not_le] at fresh
      cases accepted
      have bit : (w.bits ||| 1#64 <<< (w.highest - s)).getLsbD (w.highest - s) = true := by
        rw [BitVec.getLsbD_or, getLsbD_one_shift]
        simp [fresh.1]
      exact ⟨ne_zero_of_bit bit, Nat.not_lt.mp later, .inr bit⟩

/-- The window refuses what it has refused before. -/
theorem Seen.mono (accepted : w.accept s = some w') (seen : w.Seen j) : w'.Seen j := by
  obtain ⟨filled, below, marked⟩ := seen
  obtain ⟨nonzero, -, -⟩ := Seen.of_accept accepted
  refine ⟨nonzero, ?_⟩
  unfold accept at accepted
  rw [if_neg filled] at accepted
  split at accepted
  · rename_i later
    cases accepted
    refine ⟨below.trans later.le, ?_⟩
    by_cases slid : 64 ≤ s - j
    · exact .inl slid
    · refine .inr ?_
      have position : s - j - (s - w.highest) = w.highest - j := by omega
      have bit := marked.resolve_left (by omega)
      rw [BitVec.getLsbD_or, BitVec.getLsbD_shiftLeft, position, bit]
      have small : s - j < 64 := by omega
      have above : ¬s - j < s - w.highest := by omega
      simp [small, above]
  · dsimp only at accepted
    split at accepted
    · contradiction
    · cases accepted
      refine ⟨below, marked.imp_right fun bit => ?_⟩
      rw [BitVec.getLsbD_or, bit]
      rfl

end ReplayWindow

/-- A window lets every number through at most once. -/
def replayFilter : Device ReplayWindow ℕ where
  emit w s w' := w.accept s = some w'
  past := ReplayWindow.Seen
  past_emit := .of_accept
  past_mono := .mono

/-! ## The pool of windows -/

/-- The epoch was a read epoch. -/
def TrafficEpochs.WasRead (t : TrafficEpochs) (epoch : ℕ) : Prop :=
  (epoch = 2 ∧ 2 ∈ t.installed) ∨ (3 ≤ epoch ∧ epoch ≤ t.readApplicationEpoch)

def Endpoint.readers (k : Endpoint) : Pool ℕ ReplayWindow ℕ where
  live epoch := (k.epochs.read.lookup epoch).map ReadEpoch.window
  used := { epoch | k.epochs.WasRead epoch }
  emitted := k.opened.map fun o => (o.number.epoch, o.number.sequence)

variable {k k' : Endpoint}
variable {epoch : ℕ} {keys : ReadEpoch}

/-- Windows and keys stay while failures are counted. -/
theorem readers_failure (found : k.epochs.read.lookup epoch = some keys)
    (epochs : k'.epochs = k.epochs.countFailure epoch keys) (opened : k'.opened = k.opened) :
    k'.readers = k.readers := by
  unfold Endpoint.readers
  congr 1
  · funext other
    simp only [epochs, countFailure, lookup_insert_eq]
    split
    · rename_i same
      rw [same, found]
      rfl
    · rfl
  · simp only [epochs, countFailure, WasRead]
  · rw [opened]

private theorem readers_install {readKeys writeKeys : TrafficKeys} (tabled : k.epochs.Tabled)
    (handshake : epoch = 2 ∨ epoch = 3) (absent : epoch ∉ k.epochs.installed)
    (epochs : k'.epochs = k.epochs.install epoch readKeys writeKeys) (opened : k'.opened = k.opened) :
    Pool.Step replayFilter k.readers k'.readers := by
  have unread := tabled.unread handshake absent
  have unused : epoch ∉ k.readers.used := by
    rintro (⟨rfl, installed⟩ | ⟨application, below⟩)
    · exact absent installed
    · omega
  have moved : k'.readers = { k.readers.put epoch (some {}) with used := insert epoch k.readers.used } := by
    unfold Endpoint.readers Pool.put
    congr 1
    · funext other
      simp only [epochs, install, lookup_insert_eq, Function.update_apply]
      split <;> rfl
    · ext other
      simp only [epochs, install, WasRead, Set.mem_ofPred_eq, Set.mem_insert_iff,
        Finset.mem_insert, unread]
      rcases handshake with rfl | rfl
      · simp only [true_or, and_true, if_false, Nat.reduceEqDiff]
        constructor
        · rintro (two | ⟨application, below⟩)
          · exact .inl two
          · omega
        · rintro (two | ⟨two, -⟩ | ⟨application, below⟩)
          · exact .inl two
          · exact .inl two
          · omega
      · simp only [if_true, Nat.reduceEqDiff, false_or]
        constructor
        · rintro (two | application)
          · exact .inr (.inl two)
          · exact .inl (by omega)
        · rintro (three | two | ⟨application, below⟩)
          · exact .inr (by omega)
          · exact .inl two
          · omega
    · rw [opened]
  exact moved ▸ .create epoch {} unused

/-- A record passes the window of its epoch; older epochs may go. -/
theorem readers_record {o : OpenedRecord} {window : ReplayWindow}
    (found : k.epochs.read.lookup o.number.epoch = some keys)
    (accepted : keys.window.accept o.number.sequence = some window)
    (epochs : k'.epochs = k.epochs.authenticate o.number.epoch keys window)
    (opened : k'.opened = o :: k.opened ∨ k'.opened = k.opened) : Pool.Steps replayFilter k.readers k'.readers := by
  have live : k.readers.live o.number.epoch = some keys.window := by
    simp [Endpoint.readers, found]
  obtain ⟨gone, read⟩ : ∃ gone : List ℕ, ∀ other, k'.epochs.read.lookup other = if other ∈ gone then none
      else (k.epochs.read.insert o.number.epoch { keys with window }).lookup other := by
    rw [epochs, authenticate]
    dsimp only
    split
    · exact ⟨_, fun other => lookup_eraseAll _ _ other⟩
    · exact ⟨[], by simp⟩
  have left : k'.readers.live = fun other => if other ∈ gone then none
      else (k.readers.put o.number.epoch (some window)).live other := by
    funext other
    simp only [Endpoint.readers, Pool.put, read, lookup_insert_eq, Function.update_apply]
    split
    · rfl
    · split <;> rfl
  have used : k'.readers.used = k.readers.used := by
    simp only [Endpoint.readers, WasRead, epochs, authenticate]
  have dropped : ∀ p : Pool ℕ ReplayWindow ℕ, p.live = (k.readers.put o.number.epoch (some window)).live →
      p.used = k.readers.used → p.emitted = k'.readers.emitted → Pool.Steps replayFilter p k'.readers := by
    intro p sameLive sameUsed sameEmitted
    have moved : k'.readers = { p with live := fun a => if a ∈ gone then none else p.live a } :=
      Pool.ext (left.trans (by rw [sameLive])) (used.trans sameUsed.symm) sameEmitted.symm
    exact moved ▸ Pool.Steps.drops p gone
  rcases opened with more | same
  · exact .head (.emit o.number.epoch keys.window o.number.sequence window live accepted)
      (dropped _ rfl rfl (by simp [Endpoint.readers, more]))
  · exact .head (.skip o.number.epoch keys.window o.number.sequence window live accepted)
      (dropped _ rfl rfl (by simp [Endpoint.readers, Pool.put, same]))

private theorem readers_discard (read : k'.epochs.read = k.epochs.read.erase 2)
    (installed : k'.epochs.installed = k.epochs.installed)
    (current : k'.epochs.readApplicationEpoch = k.epochs.readApplicationEpoch) (opened : k'.opened = k.opened) :
    Pool.Step replayFilter k.readers k'.readers := by
  have moved : k'.readers = k.readers.put 2 none := by
    unfold Endpoint.readers Pool.put
    congr 1
    · funext other
      simp only [read, lookup_erase_eq, Function.update_apply]
      split <;> rfl
    · simp only [WasRead, installed, current]
    · rw [opened]
  exact moved ▸ .drop 2

/-- A KeyUpdate adds the epoch after the current one. -/
theorem readers_update {keys : TrafficKeys} (application : 3 ≤ epoch)
    (newest : epoch = k.epochs.readApplicationEpoch) (epochs : k'.epochs = k.epochs.updateRead epoch keys)
    (opened : k'.opened = k.opened) : Pool.Steps replayFilter k.readers k'.readers := by
  have unused : epoch + 1 ∉ k.readers.used := by
    rintro (⟨two, -⟩ | ⟨-, below⟩)
    · omega
    · omega
  have moved : k'.readers = { k.readers.put (epoch + 1) (some {}) with
      used := insert (epoch + 1) k.readers.used }.put 2 none := by
    unfold Endpoint.readers Pool.put
    congr 1
    · funext other
      simp only [epochs, updateRead, lookup_erase_eq, lookup_insert_eq,
        Function.update_apply]
      split
      · rfl
      · split <;> rfl
    · ext other
      simp only [epochs, updateRead, WasRead, Set.mem_ofPred_eq,
        Set.mem_insert_iff, ← newest]
      constructor
      · rintro (two | ⟨large, below⟩)
        · exact .inr (.inl two)
        · rcases Nat.lt_or_eq_of_le below with less | same
          · exact .inr (.inr ⟨large, Nat.le_of_lt_succ less⟩)
          · exact .inl same
      · rintro (same | two | ⟨large, below⟩)
        · exact .inr ⟨by omega, same.le⟩
        · exact .inl two
        · exact .inr ⟨large, by omega⟩
    · rw [opened]
  exact moved ▸ .tail (.single (.create (epoch + 1) {} unused)) (.drop 2)

theorem Reads.readers [Crypto] (reads : Reads k k') (tabled : k.Tabled) :
    Pool.Steps replayFilter k.readers k'.readers := by
  cases reads with
  | keep read installed current opened =>
    have same : k'.readers = k.readers := by
      simp only [Endpoint.readers, WasRead, read, installed, current, opened]
    exact same ▸ .refl
  | install epoch readKeys writeKeys handshake absent staged epochs opened =>
    exact .single (readers_install tabled.epochs handshake absent epochs opened)
  | record o keys window found accepted epochs opened => exact readers_record found accepted epochs opened
  | failure epoch keys found epochs opened => exact readers_failure found epochs opened ▸ .refl
  | discard read installed current opened => exact .single (readers_discard read installed current opened)
  | update m reassembly keys takes epochs opened =>
    exact readers_update takes.application takes.current epochs opened

/-! ## Records that do not authenticate -/

section

variable [Crypto]

/-- The cipher rejects the record under the keys `openRecord` tries. -/
def Session.Unauthentic (s : Session) (r : Record) : Prop :=
  ∀ epoch keys, s.epochs.select r.number.epoch = some epoch → s.epochs.read.lookup epoch = some keys →
    let (header, truncated) := unmaskHeader r (Crypto.mask keys.keys (r.body.take seqNumMaskLen))
    Crypto.aeadOpen keys.keys header (reconstructSequence truncated r.seqLen keys.window.next) r.body = none

/-- The same epochs with the same keys and windows. -/
def TrafficEpochs.SameReaders (t t' : TrafficEpochs) : Prop :=
  ∀ epoch, (t'.read.lookup epoch).map (fun e => (e.keys, e.window)) =
    (t.read.lookup epoch).map fun e => (e.keys, e.window)

omit [Crypto] in
theorem TrafficEpochs.sameReaders_countFailure {t : TrafficEpochs} (found : t.read.lookup epoch = some keys) :
    t.SameReaders (t.countFailure epoch keys) := by
  intro other
  simp only [countFailure, lookup_insert_eq]
  split
  · rename_i same
    rw [same, found]
    rfl
  · rfl

private theorem openRecord_unauthentic {w : World} {r : Record} (hasCID : Bool)
    (unauthentic : w.session.Unauthentic r) :
    Ends (openRecord r hasCID) w
      (fun _ w' => w.session.epochs.SameReaders w'.session.epochs ∧ w'.history = w.history)
      (fun _ w' => w.session.epochs.SameReaders w'.session.epochs ∧ w'.history = w.history) := by
  have same : w.session.epochs.SameReaders w.session.epochs ∧ w.history = w.history := ⟨fun _ => rfl, rfl⟩
  refine openRecord_ends same (fun _ => same) (fun _ => same) (fun epoch keys found => ?_)
    fun epoch keys o window opens => ?_
  · have counted := sameReaders_countFailure found
    exact ⟨⟨counted, rfl⟩, fun _ => ⟨counted, rfl⟩⟩
  · obtain ⟨inner, steps⟩ := TrafficKeys.decodeRecord_ok opens.decoded
    have opened := steps.opened
    rw [steps.sequence] at opened
    exact absurd ((unauthentic epoch keys opens.selected opens.found).symm.trans opened) (by simp)

end

/-! ## Whole runs -/

/-- Over every run of a session the protected records that are opened have different numbers; and a
record the cipher rejects changes no window and no read epoch, and is not opened. -/
theorem steps_openedOnce [Crypto] {w w' : World} (fresh : Fresh w.session) (blank : w.history = {})
    (steps : Steps w w') :
    (w'.history.opened.map OpenedRecord.number).Nodup ∧
    ∀ (v : World) (r : Record) (hasCID : Bool), v.session.Unauthentic r →
      v.session.epochs.SameReaders (final (openRecord r hasCID) v).session.epochs ∧
        (final (openRecord r hasCID) v).history = v.history := by
  constructor
  · have start : w.endpoint.readers.Sound replayFilter := by
      refine .of_unused ?_ fun epoch window live => ?_
      · simp [Endpoint.readers, World.endpoint, blank]
      · simp [Endpoint.readers, World.endpoint, fresh.read] at live
    have step : ∀ k k', Reads k k' → k.Tabled → Pool.Steps replayFilter w.endpoint.readers k.readers →
        Pool.Steps replayFilter w.endpoint.readers k'.readers := fun k k' reads tabled before =>
      before.trans (reads.readers tabled)
    obtain ⟨-, -, moved⟩ := steps.invariant
      (P := fun k => k.Tabled ∧ Pool.Steps replayFilter w.endpoint.readers k.readers)
      (fun k k' _ inv move => ⟨move.tabled inv.1, step k k' move.reads inv.1 inv.2⟩)
      (fun k k' _ inv lapse => ⟨lapse.tabled inv.1, step k k' lapse.reads inv.1 inv.2⟩)
      fresh.good ⟨fresh.tabled blank, .refl⟩
    refine List.pairwise_map.mpr ((List.pairwise_map.mp (Pool.Steps.sound moved start).ordered).imp ?_)
    intro later earlier ordered same
    obtain ⟨window, window', seen, accepted⟩ := ordered (congrArg RecordNumber.epoch same)
    rw [← congrArg RecordNumber.sequence same] at seen
    exact absurd ((ReplayWindow.accept_eq_none.mpr seen).symm.trans accepted) (by simp)
  · intro v r hasCID unauthentic
    exact Ends.final (P := fun v' : World => v.session.epochs.SameReaders v'.session.epochs ∧ v'.history = v.history)
      (openRecord_unauthentic hasCID unauthentic)

theorem updatedClient_openedOnce :
    updatedClient.history.opened.map OpenedRecord.number =
      [⟨3, 1⟩, ⟨2, 3⟩, ⟨2, 2⟩, ⟨2, 1⟩, ⟨2, 0⟩] ∧
      (updatedClient.history.opened.map OpenedRecord.number).Nodup := by
  refine ⟨by decide +kernel, ?_⟩
  have once := @steps_openedOnce transparent _ _ (fresh_newWorld true) rfl steps_updatedClient
  exact once.1

/-! ## Erased epochs -/

/-- Every run works on the read epochs as on a pool of filters. -/
theorem Steps.readers [Crypto] {w w' : World} (steps : Steps w w') (good : w.endpoint.Good)
    (tabled : w.endpoint.Tabled) : w'.endpoint.Good ∧ w'.endpoint.Tabled ∧
      Pool.Steps replayFilter w.endpoint.readers w'.endpoint.readers :=
  steps.invariant (P := fun k => k.Tabled ∧ Pool.Steps replayFilter w.endpoint.readers k.readers)
    (fun _ _ _ inv move => ⟨move.tabled inv.1, inv.2.trans (move.reads.readers inv.1)⟩)
    (fun _ _ _ inv lapse => ⟨lapse.tabled inv.1, inv.2.trans (lapse.reads.readers inv.1)⟩) good ⟨tabled, .refl⟩

/-- Once the read keys of an epoch are erased, they never come back and no record of the epoch is opened any more. -/
theorem steps_erasedEpoch [Crypto] {w w₁ w' : World} (fresh : Fresh w.session) (blank : w.history = {})
    (before : Steps w w₁) (after : Steps w₁ w') {epoch : ℕ} (installed : w₁.session.epochs.WasRead epoch)
    (erased : epoch ∉ w₁.session.epochs.read) :
    epoch ∉ w'.session.epochs.read ∧
      w'.history.opened.countP (·.number.epoch = epoch) = w₁.history.opened.countP (·.number.epoch = epoch) := by
  obtain ⟨good, tabled, -⟩ := before.readers fresh.good (fresh.tabled blank)
  obtain ⟨-, -, moved⟩ := after.readers good tabled
  have gone : w₁.endpoint.readers.live epoch = none := congrArg (Option.map _) (lookup_eq_none.mpr erased)
  constructor
  · exact lookup_eq_none.mp (Option.map_eq_none_iff.mp (Pool.Steps.gone moved installed gone))
  · have silent := Pool.Steps.silent moved installed gone
    simp only [Endpoint.readers, List.countP_map] at silent
    exact silent

/-- The handshake keys of a client that has processed a KeyUpdate. -/
theorem updatedClient_erasedEpoch :
    updatedClient.session.epochs.read.keys = [4, 3] ∧
      2 ∉ (@perform transparent [(Event.tick 9).alone] updatedClient).session.epochs.read := by
  have left : updatedClient.session.epochs.read.keys = [4, 3] := by decide +kernel
  have stays := @steps_erasedEpoch transparent _ _ _ (fresh_newWorld true) rfl steps_updatedClient
    (@steps_perform transparent [(Event.tick 9).alone] updatedClient) 2 (.inl ⟨rfl, by decide +kernel⟩)
    (by rw [mem_keys, left]; decide)
  exact ⟨left, stays.1⟩

end Socat.Dtls13
