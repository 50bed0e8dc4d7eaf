import Socat.Dtls13.Soundness.ReadEpochs
import Socat.Machine.Pool

/-! # Record numbers are not reused

The write epochs of a session are a pool of counters that hand out numbers under their traffic keys.
Epoch 0 is there from the start, the handshake epochs are installed once each, and a key update moves
from the highest epoch to the one after it. So a write epoch is never created twice, whatever the
operations and their outcomes, and the numbers of all packets ever handed to a send callback differ.
-/

namespace Socat.Dtls13

open Machine AList TrafficEpochs

/-! ## Epochs that were in use -/

/-- The epoch was a write epoch: those of the handshake were installed, and application epochs are
used in order. -/
def TrafficEpochs.Used (t : TrafficEpochs) (epoch : ℕ) : Prop :=
  epoch = 0 ∨ (epoch = 2 ∧ 2 ∈ t.installed) ∨ (3 ≤ epoch ∧ ∃ current ∈ t.write, epoch ≤ current)

/-- Write epochs are in use, and application epochs come from installed application keys. -/
structure TrafficEpochs.Ordered (t : TrafficEpochs) : Prop where
  used : ∀ epoch ∈ t.write, t.Used epoch
  installed : ∀ epoch ∈ t.write, 3 ≤ epoch → 3 ∈ t.installed

/-- A write epoch hands out its sequence numbers in order, under its keys. -/
def writer : Device WriteEpoch (Option TrafficKeys × ℕ) where
  emit e item e' := item = (e.keys, e.sequence) ∧ e' = { e with sequence := e.sequence + 1 }
  past e item := item.1 = e.keys ∧ item.2 < e.sequence
  past_emit := by
    rintro e item e' ⟨rfl, rfl⟩
    exact ⟨rfl, Nat.lt_succ_self e.sequence⟩
  past_mono := by
    rintro e item e' earlier ⟨rfl, rfl⟩ ⟨keys, less⟩
    exact ⟨keys, less.trans (Nat.lt_succ_self e.sequence)⟩

def Endpoint.writers (k : Endpoint) : Pool ℕ WriteEpoch (Option TrafficKeys × ℕ) where
  live epoch := k.epochs.write.lookup epoch
  used := { epoch | k.epochs.Used epoch }
  emitted := k.handed.map fun p => (p.number.epoch, p.keys, p.number.sequence)

theorem Endpoint.writers_congr {k k' : Endpoint} (write : k'.epochs.write = k.epochs.write)
    (installed : k'.epochs.installed = k.epochs.installed) (handed : k'.handed = k.handed) :
    k'.writers = k.writers := by
  simp only [writers, Used, write, installed, handed]

/-- What a move does to the write epochs and the packets handed out. -/
inductive Writes [Crypto] (k k' : Endpoint) : Prop
  | keep (write : k'.epochs.write = k.epochs.write) (installed : k'.epochs.installed = k.epochs.installed)
      (handed : k'.handed = k.handed)
  | hand (p : Packet) (e : WriteEpoch) (numbered : Numbered k p e)
      (epochs : k'.epochs = k.epochs.number p.number.epoch e) (handed : k'.handed = p :: k.handed)
  | install (epoch : ℕ) (readKeys writeKeys : TrafficKeys) (handshake : epoch = 2 ∨ epoch = 3)
      (absent : epoch ∉ k.epochs.installed) (epochs : k'.epochs = k.epochs.install epoch readKeys writeKeys)
      (handed : k'.handed = k.handed)
  | retire (write : k'.epochs.write = (k.epochs.write.erase 0).erase 2)
      (installed : k'.epochs.installed = k.epochs.installed) (handed : k'.handed = k.handed)
  | switch (keys : TrafficKeys) (current : k.epochs.currentWrite ∈ k.epochs.write)
      (retired : 0 ∉ k.epochs.write ∧ 2 ∉ k.epochs.write) (epochs : k'.epochs = k.epochs.switchWrite keys)
      (handed : k'.handed = k.handed)

section Moves

variable [Crypto] {k k' : Endpoint}

theorem SendMove.writes (move : SendMove k k') : Writes k k' := by
  cases move with
  | hand p e numbered | fragment _ _ p e _ _ _ _ _ numbered => exact .hand p e numbered rfl rfl
  | arm => exact .keep rfl rfl rfl

theorem Move.writes (move : Move k k') : Writes k k' := by
  cases move with
  | send move => exact move.writes
  | retire discard =>
    cases discard <;> exact .retire rfl rfl rfl
  | switchKeys e keys _ _ retired found => exact .switch keys (mem_of_lookup found) retired rfl rfl
  | install epoch readKeys writeKeys epochs absent => exact .install epoch readKeys writeKeys epochs absent rfl rfl
  | _ => exact .keep rfl rfl rfl

theorem Lapse.writes (lapse : Lapse k k') : Writes k k' := by
  cases lapse <;> exact .keep rfl rfl rfl

end Moves

/-! ## The pool of write epochs -/

variable {t : TrafficEpochs} {epoch : ℕ}

theorem TrafficEpochs.Ordered.congr {t' : TrafficEpochs} (ordered : t.Ordered)
    (write : ∀ epoch, epoch ∈ t'.write ↔ epoch ∈ t.write) (installed : t'.installed = t.installed) : t'.Ordered := by
  have used : ∀ epoch, t.Used epoch → t'.Used epoch := by
    simp only [Used, write, installed]
    exact fun _ => id
  refine ⟨fun epoch member => used epoch (ordered.used epoch ((write epoch).mp member)),
    fun epoch member application => ?_⟩
  exact installed ▸ ordered.installed epoch ((write epoch).mp member) application

theorem TrafficEpochs.le_currentWrite (member : epoch ∈ t.write) :
    epoch ≤ t.currentWrite := List.le_foldr_max (mem_keys.mp member)

variable [Crypto] {k k' : Endpoint}

/-- The counter of one epoch moves. -/
theorem writers_hand {p : Packet} {e : WriteEpoch} (numbered : Numbered k p e)
    (epochs : k'.epochs = k.epochs.number p.number.epoch e) (handed : k'.handed = p :: k.handed) :
    Pool.Step writer k.writers k'.writers ∧ (k.epochs.Ordered → k'.epochs.Ordered) := by
  have present : p.number.epoch ∈ k.epochs.write := mem_of_lookup numbered.found
  have members : ∀ epoch, epoch ∈ k'.epochs.write ↔ epoch ∈ k.epochs.write := by
    intro epoch
    rw [epochs, TrafficEpochs.number, mem_insert]
    exact ⟨fun either => either.elim (fun same => same ▸ present) id, .inr⟩
  have installed : k'.epochs.installed = k.epochs.installed := by rw [epochs]; rfl
  refine ⟨?_, fun ordered => ordered.congr members installed⟩
  have moved : k'.writers = { k.writers.put p.number.epoch (some { e with sequence := e.sequence + 1 }) with
      emitted := (p.number.epoch, e.keys, e.sequence) :: k.writers.emitted } := by
    unfold Endpoint.writers Pool.put
    congr 1
    · funext epoch
      simp only [epochs, TrafficEpochs.number, lookup_insert_eq, Function.update_apply]
    · simp only [Used, members, installed]
    · simp [handed, numbered.keys, numbered.sequence]
  exact moved ▸ .emit p.number.epoch e _ _ numbered.found ⟨rfl, rfl⟩

omit [Crypto]

theorem TrafficEpochs.not_used_of_absent (ordered : t.Ordered) (handshake : epoch = 2 ∨ epoch = 3)
    (absent : epoch ∉ t.installed) : ¬t.Used epoch := by
  rintro (rfl | ⟨rfl, installed⟩ | ⟨application, current, member, above⟩)
  · omega
  · exact absent installed
  · obtain rfl : epoch = 3 := by omega
    exact absent (ordered.installed current member above)

theorem TrafficEpochs.used_install (readKeys writeKeys : TrafficKeys) (handshake : epoch = 2 ∨ epoch = 3)
    (other : ℕ) : (t.install epoch readKeys writeKeys).Used other ↔ other = epoch ∨ t.Used other := by
  simp only [Used, install, Finset.mem_insert, mem_insert, exists_eq_or_imp]
  rcases handshake with rfl | rfl
  · constructor
    · rintro (zero | ⟨two, -⟩ | ⟨application, below | more⟩)
      · exact .inr (.inl zero)
      · exact .inl two
      · omega
      · exact .inr (.inr (.inr ⟨application, more⟩))
    · rintro (two | zero | ⟨two, -⟩ | more)
      · exact .inr (.inl ⟨two, .inl rfl⟩)
      · exact .inl zero
      · exact .inr (.inl ⟨two, .inl rfl⟩)
      · exact .inr (.inr ⟨more.1, .inr more.2⟩)
  · constructor
    · rintro (zero | ⟨two, different | installed⟩ | ⟨application, below | more⟩)
      · exact .inr (.inl zero)
      · omega
      · exact .inr (.inr (.inl ⟨two, installed⟩))
      · exact .inl (by omega)
      · exact .inr (.inr (.inr ⟨application, more⟩))
    · rintro (three | zero | two | more)
      · exact .inr (.inr ⟨three.ge, .inl three.le⟩)
      · exact .inl zero
      · exact .inr (.inl ⟨two.1, .inr two.2⟩)
      · exact .inr (.inr ⟨more.1, .inr more.2⟩)

/-- Keys are installed for an epoch that was not in use. -/
theorem writers_install {readKeys writeKeys : TrafficKeys} (ordered : k.epochs.Ordered)
    (handshake : epoch = 2 ∨ epoch = 3) (absent : epoch ∉ k.epochs.installed)
    (epochs : k'.epochs = k.epochs.install epoch readKeys writeKeys) (handed : k'.handed = k.handed) :
    Pool.Step writer k.writers k'.writers ∧ k'.epochs.Ordered := by
  have used : ∀ other, k'.epochs.Used other ↔ other = epoch ∨ k.epochs.Used other :=
    epochs ▸ used_install readKeys writeKeys handshake
  constructor
  · have moved : k'.writers = { k.writers.put epoch (some { keys := some writeKeys }) with
        used := insert epoch k.writers.used } := by
      unfold Endpoint.writers Pool.put
      congr 1
      · funext other
        simp only [epochs, TrafficEpochs.install, lookup_insert_eq, Function.update_apply]
      · ext other
        exact used other
      · rw [handed]
    exact moved ▸ .create epoch _ (not_used_of_absent ordered handshake absent)
  · have members : ∀ other, other ∈ k'.epochs.write ↔ other = epoch ∨ other ∈ k.epochs.write := by
      simp [epochs, TrafficEpochs.install]
    refine ⟨fun other member => (used other).mpr ?_, fun other member application => ?_⟩
    · exact ((members other).mp member).imp id (ordered.used other)
    · rw [epochs]
      rcases (members other).mp member with same | before
      · have three : epoch = 3 := by omega
        exact Finset.mem_insert.mpr (.inl three.symm)
      · exact Finset.mem_insert_of_mem (ordered.installed other before application)

/-- The handshake epochs go. -/
theorem writers_retire (write : k'.epochs.write = (k.epochs.write.erase 0).erase 2)
    (installed : k'.epochs.installed = k.epochs.installed) (handed : k'.handed = k.handed) :
    Pool.Steps writer k.writers k'.writers ∧ (k.epochs.Ordered → k'.epochs.Ordered) := by
  have members : ∀ epoch, epoch ∈ k'.epochs.write ↔ epoch ≠ 2 ∧ epoch ≠ 0 ∧ epoch ∈ k.epochs.write := by
    simp [write, mem_erase]
  have used : ∀ epoch, k'.epochs.Used epoch ↔ k.epochs.Used epoch := by
    intro epoch
    simp only [Used, installed, members]
    refine or_congr_right (or_congr_right (and_congr_right fun application => exists_congr fun current => ?_))
    constructor
    · exact fun later => ⟨later.1.2.2, later.2⟩
    · exact fun before => ⟨⟨by omega, by omega, before.1⟩, before.2⟩
  constructor
  · have moved : k'.writers = (k.writers.put 0 none).put 2 none := by
      unfold Endpoint.writers Pool.put
      congr 1
      · funext epoch
        simp only [write, lookup_erase_eq, Function.update_apply]
      · simp only [used]
      · rw [handed]
    exact moved ▸ .tail (.single (.drop 0)) (.drop 2)
  · exact fun ordered => ⟨fun epoch member => (used epoch).mpr (ordered.used epoch ((members epoch).mp member).2.2),
      fun epoch member application => installed ▸ ordered.installed epoch ((members epoch).mp member).2.2 application⟩

/-- The writer moves from the highest epoch to the next one. -/
theorem writers_switch {keys : TrafficKeys} (ordered : k.epochs.Ordered)
    (present : k.epochs.currentWrite ∈ k.epochs.write) (retired : 0 ∉ k.epochs.write ∧ 2 ∉ k.epochs.write)
    (epochs : k'.epochs = k.epochs.switchWrite keys) (handed : k'.handed = k.handed) :
    Pool.Steps writer k.writers k'.writers ∧ k'.epochs.Ordered := by
  set current := k.epochs.currentWrite with current_def
  have application : 3 ≤ current := by
    rcases ordered.used current present with zero | two | later
    · exact absurd present (zero ▸ retired.1)
    · exact absurd present (two.1 ▸ retired.2)
    · exact later.1
  have below : ∀ epoch ∈ k.epochs.write, epoch ≤ current := fun _ => le_currentWrite
  have members : ∀ epoch, epoch ∈ k'.epochs.write ↔
      epoch ≠ current ∧ (epoch = current + 1 ∨ epoch ∈ k.epochs.write) := by
    simp [epochs, TrafficEpochs.switchWrite, mem_erase, ← current_def]
  have installed : k'.epochs.installed = k.epochs.installed := by rw [epochs]; rfl
  have used : ∀ epoch, k'.epochs.Used epoch ↔ epoch = current + 1 ∨ k.epochs.Used epoch := by
    intro epoch
    simp only [Used, installed, members]
    constructor
    · rintro (zero | two | ⟨large, other, ⟨-, rfl | before⟩, above⟩)
      · exact .inr (.inl zero)
      · exact .inr (.inr (.inl two))
      · rcases Nat.lt_or_eq_of_le above with less | same
        · exact .inr (.inr (.inr ⟨large, current, present, Nat.le_of_lt_succ less⟩))
        · exact .inl same
      · exact .inr (.inr (.inr ⟨large, other, before, above⟩))
    · have next : current + 1 ≠ current ∧ (current + 1 = current + 1 ∨ current + 1 ∈ k.epochs.write) :=
        ⟨by omega, .inl rfl⟩
      rintro (rfl | zero | two | ⟨large, other, before, above⟩)
      · exact .inr (.inr ⟨by omega, current + 1, next, le_rfl⟩)
      · exact .inl zero
      · exact .inr (.inl two)
      · have := below other before
        exact .inr (.inr ⟨large, current + 1, next, by omega⟩)
  have unused : current + 1 ∉ k.writers.used := by
    rintro (zero | ⟨two, -⟩ | ⟨-, other, before, above⟩)
    · omega
    · omega
    · have := below other before
      omega
  constructor
  · have moved : k'.writers = { k.writers.put (current + 1) (some { keys := some keys }) with
        used := insert (current + 1) k.writers.used }.put current none := by
      unfold Endpoint.writers Pool.put
      congr 1
      · funext epoch
        simp only [epochs, TrafficEpochs.switchWrite, ← current_def, lookup_erase_eq,
          lookup_insert_eq, Function.update_apply]
      · ext epoch
        exact used epoch
      · rw [handed]
    exact moved ▸ .tail (.single (.create (current + 1) _ unused)) (.drop current)
  · refine ⟨fun epoch member => (used epoch).mpr ?_, fun epoch member _ => ?_⟩
    · exact ((members epoch).mp member).2.imp id (ordered.used epoch)
    · exact installed ▸ ordered.installed current present application

theorem Writes.steps [Crypto] (writes : Writes k k') (ordered : k.epochs.Ordered) :
    Pool.Steps writer k.writers k'.writers ∧ k'.epochs.Ordered := by
  cases writes with
  | keep write installed handed =>
    rw [Endpoint.writers_congr write installed handed]
    exact ⟨.refl, ordered.congr (fun _ => by rw [write]) installed⟩
  | hand p e numbered epochs handed =>
    obtain ⟨step, kept⟩ := writers_hand numbered epochs handed
    exact ⟨.single step, kept ordered⟩
  | install epoch readKeys writeKeys handshake absent epochs handed =>
    obtain ⟨step, kept⟩ := writers_install ordered handshake absent epochs handed
    exact ⟨.single step, kept⟩
  | retire write installed handed =>
    obtain ⟨steps, kept⟩ := writers_retire write installed handed
    exact ⟨steps, kept ordered⟩
  | switch keys present retired epochs handed => exact writers_switch ordered present retired epochs handed

/-! ## Limits -/

/-- The packet is the encoding of its record under its number and keys, and the number is below the
limit of those keys, or of plaintext numbers. -/
structure Packet.Limited [Crypto] (p : Packet) : Prop where
  encoded : WriteEpoch.encode ⟨p.keys, p.number.sequence⟩ p.number.epoch p.typ p.body p.cid p.padding =
    .ok p.bytes
  plain : p.number.epoch = 0 → p.number.sequence < 2 ^ 48
  sealed : p.number.epoch ≠ 0 → ∃ keys, p.keys = some keys ∧ p.number.sequence < keys.recordLimit

theorem Numbered.limited [Crypto] {p : Packet} {e : WriteEpoch} (numbered : Numbered k p e) : p.Limited := by
  have encoded : WriteEpoch.encode ⟨p.keys, p.number.sequence⟩ p.number.epoch p.typ p.body p.cid
      p.padding = .ok p.bytes := by
    rw [numbered.keys, numbered.sequence]
    exact numbered.encoded
  refine ⟨encoded, ?_, ?_⟩ <;> unfold WriteEpoch.encode at encoded
  · intro zero
    rw [if_pos zero] at encoded
    split at encoded
    · contradiction
    · exact Nat.lt_of_not_le ‹_›
  · intro positive
    rw [if_neg positive] at encoded
    split at encoded
    · contradiction
    · rename_i keys found
      split at encoded
      · contradiction
      · exact ⟨keys, found, Nat.lt_of_not_le ‹_›⟩

theorem Writes.limited [Crypto] (writes : Writes k k') (limited : ∀ p ∈ k.handed, p.Limited) :
    ∀ p ∈ k'.handed, p.Limited := by
  cases writes with
  | hand p e numbered epochs handed =>
    rw [handed]
    exact List.forall_mem_cons.mpr ⟨numbered.limited, limited⟩
  | keep _ _ handed | install _ _ _ _ _ _ handed | retire _ _ handed | switch _ _ _ _ handed =>
    exact handed ▸ limited

/-- Only the plaintext epoch has no keys. -/
def TrafficEpochs.Sealed (t : TrafficEpochs) : Prop :=
  ∀ epoch e, t.write.lookup epoch = some e → epoch ≠ 0 → ∃ keys, e.keys = some keys

theorem Writes.sealed [Crypto] (writes : Writes k k') (sealed : k.epochs.Sealed) : k'.epochs.Sealed := by
  intro epoch e found positive
  cases writes with
  | keep write _ _ => exact sealed epoch e (write ▸ found) positive
  | hand p old numbered epochs _ =>
    rw [epochs, TrafficEpochs.number, lookup_insert_eq] at found
    split_ifs at found with same
    · cases found
      exact sealed p.number.epoch old numbered.found (same ▸ positive)
    · exact sealed epoch e found positive
  | install _ _ writeKeys _ _ epochs _ =>
    rw [epochs, TrafficEpochs.install, lookup_insert_eq] at found
    split_ifs at found
    · cases found
      exact ⟨writeKeys, rfl⟩
    · exact sealed epoch e found positive
  | retire write _ _ =>
    rw [write, lookup_erase_eq, lookup_erase_eq] at found
    split_ifs at found
    exact sealed epoch e found positive
  | switch keys _ _ epochs _ =>
    rw [epochs, TrafficEpochs.switchWrite, lookup_erase_eq, lookup_insert_eq] at found
    split_ifs at found
    · cases found
      exact ⟨keys, rfl⟩
    · exact sealed epoch e found positive

/-! ## Whole runs -/

/-- Every run works on the write epochs as on a pool of counters. -/
theorem Steps.writers [Crypto] {w w' : World} (steps : Steps w w') (good : w.endpoint.Good)
    (ordered : w.session.epochs.Ordered) :
    w'.endpoint.Good ∧ Pool.Steps writer w.endpoint.writers w'.endpoint.writers ∧
      w'.session.epochs.Ordered := by
  have step : ∀ k k', Writes k k' → Pool.Steps writer w.endpoint.writers k.writers ∧ k.epochs.Ordered →
      Pool.Steps writer w.endpoint.writers k'.writers ∧ k'.epochs.Ordered := fun k k' writes inv => by
    obtain ⟨moved, kept⟩ := writes.steps inv.2
    exact ⟨inv.1.trans moved, kept⟩
  exact Steps.invariant (fun k k' _ inv move => step k k' move.writes inv)
    (fun k k' _ inv lapse => step k k' lapse.writes inv) steps good ⟨.refl, ordered⟩

theorem Fresh.ordered {s : Session} (fresh : Fresh s) : s.epochs.Ordered := by
  obtain ⟨sequence, write⟩ := fresh.write
  have zero : ∀ epoch ∈ s.epochs.write, epoch = 0 := by
    intro epoch member
    rw [write, mem_keys, keys_singleton] at member
    exact List.mem_singleton.mp member
  exact ⟨fun epoch member => .inl (zero epoch member), fun epoch member application =>
    absurd (zero epoch member) (by omega)⟩

/-- Over every run of a session, whatever operations succeed or fail: the packets handed to the send
callbacks have different numbers, increasing within each epoch and under one set of keys, encode
their records under those numbers and stay below the limit of those keys; and a write epoch that is
present at two moments was present in between, with its keys and without its counter going back. -/
theorem steps_recordNumbers [Crypto] {w w' : World} (fresh : Fresh w.session) (blank : w.history = {})
    (steps : Steps w w') :
    (w'.history.handed.map Packet.number).Nodup ∧
    (w'.history.handed.Pairwise fun later earlier => later.number.epoch = earlier.number.epoch →
      earlier.keys = later.keys ∧ earlier.number.sequence < later.number.sequence) ∧
    (∀ p ∈ w'.history.handed, p.Limited) ∧
    ∀ w₁ w₂, Steps w w₁ → Steps w₁ w₂ → Steps w₂ w' → ∀ epoch old new,
      w₁.session.epochs.write.lookup epoch = some old →
      w'.session.epochs.write.lookup epoch = some new →
      epoch ∈ w₂.session.epochs.write ∧ new.keys = old.keys ∧ old.sequence ≤ new.sequence := by
  have start : w.endpoint.writers.Sound writer := by
    refine .of_unused ?_ fun epoch e live => fresh.ordered.used epoch (mem_of_lookup live)
    simp [Endpoint.writers, World.endpoint, blank]
  have numbered : w'.history.handed.Pairwise fun later earlier =>
      later.number.epoch = earlier.number.epoch →
        earlier.keys = later.keys ∧ earlier.number.sequence < later.number.sequence := by
    obtain ⟨-, moved, -⟩ := steps.writers fresh.good fresh.ordered
    refine (List.pairwise_map.mp (Pool.Steps.sound moved start).ordered).imp fun ordered same => ?_
    obtain ⟨e, -, ⟨keys, less⟩, handed, -⟩ := ordered same
    simp only [Prod.mk.injEq] at handed keys less
    exact ⟨keys.trans handed.1.symm, handed.2 ▸ less⟩
  refine ⟨?_, numbered, ?_, ?_⟩
  · refine List.pairwise_map.mpr (numbered.imp fun increasing same => ?_)
    exact absurd (same ▸ (increasing (same ▸ rfl)).2) (lt_irrefl _)
  · exact (steps.invariant (P := fun k => ∀ p ∈ k.handed, p.Limited)
      (fun _ _ _ inv move => move.writes.limited inv) (fun _ _ _ inv lapse => lapse.writes.limited inv)
      fresh.good (by simp [World.endpoint, blank])).2
  · intro w₁ w₂ steps₁ steps₂ steps₃ epoch old new found₁ found₃
    obtain ⟨good₁, moved₁, ordered₁⟩ := steps₁.writers fresh.good fresh.ordered
    obtain ⟨good₂, moved₂, ordered₂⟩ := steps₂.writers good₁ ordered₁
    obtain ⟨good₃, moved₃, ordered₃⟩ := steps₃.writers good₂ ordered₂
    have sound₁ := Pool.Steps.sound moved₁ start
    have used : epoch ∈ w₂.endpoint.writers.used :=
      Pool.Steps.used moved₂ (sound₁.live_used epoch old found₁)
    refine ⟨?_, ?_⟩
    · by_contra gone
      have none₃ := Pool.Steps.gone moved₃ used (lookup_eq_none.mpr gone)
      exact absurd (none₃.symm.trans found₃) (by simp)
    · exact Pool.Steps.follows (R := fun old new => new.keys = old.keys ∧ old.sequence ≤ new.sequence)
        (fun _ => ⟨rfl, le_rfl⟩) (fun emits => by rw [emits.2]; exact ⟨rfl, Nat.le_succ _⟩)
        (by rintro _ _ _ ⟨keys, less⟩ ⟨keys', more⟩; exact ⟨keys'.trans keys, less.trans more⟩)
        (moved₂.trans moved₃) sound₁ found₁ found₃

theorem updatedClient_recordNumbers :
    updatedClient.history.handed.map Packet.number = [⟨3, 1⟩, ⟨3, 0⟩, ⟨2, 0⟩, ⟨0, 0⟩] ∧
      (updatedClient.history.handed.map Packet.number).Nodup := by
  refine ⟨by decide +kernel, ?_⟩
  have numbers := @steps_recordNumbers transparent _ _ (fresh_newWorld true) rfl steps_updatedClient
  exact numbers.1

end Socat.Dtls13
