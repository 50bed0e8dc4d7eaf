import Socat.Dtls13.Model.TransparentCipher
import Socat.Dtls13.Moves.Events
import Socat.Dtls13.Soundness.Reassembly

/-! # The table of read epochs

A record names two bits of its epoch, so the table must not hold two epochs that agree in them. It
holds the handshake epoch, the current application epoch, and for a while the application epoch before
it. The point of the argument is a KeyUpdate: it installs one more epoch, so the one before the current
must be gone by then. A KeyUpdate that is processed arrived in the current epoch, and the first record
of that epoch had deleted the older ones.
-/

namespace Socat.Dtls13

open Machine AList

/-! ## What a move does to reading -/

inductive Reads [Crypto] (k k' : Endpoint) : Prop
  | keep (read : k'.epochs.read = k.epochs.read) (installed : k'.epochs.installed = k.epochs.installed)
      (current : k'.epochs.readApplicationEpoch = k.epochs.readApplicationEpoch) (opened : k'.opened = k.opened)
  | install (epoch : ℕ) (readKeys writeKeys : TrafficKeys) (handshake : epoch = 2 ∨ epoch = 3)
      (absent : epoch ∉ k.epochs.installed) (staged : epoch = 3 → 2 ∈ k.epochs.installed)
      (epochs : k'.epochs = k.epochs.install epoch readKeys writeKeys) (opened : k'.opened = k.opened)
  | record (o : OpenedRecord) (keys : ReadEpoch) (window : ReplayWindow)
      (found : k.epochs.read.lookup o.number.epoch = some keys)
      (accepted : keys.window.accept o.number.sequence = some window)
      (epochs : k'.epochs = k.epochs.authenticate o.number.epoch keys window)
      (opened : k'.opened = o :: k.opened ∨ k'.opened = k.opened)
  | failure (epoch : ℕ) (keys : ReadEpoch) (found : k.epochs.read.lookup epoch = some keys)
      (epochs : k'.epochs = k.epochs.countFailure epoch keys) (opened : k'.opened = k.opened)
  | discard (read : k'.epochs.read = k.epochs.read.erase 2)
      (installed : k'.epochs.installed = k.epochs.installed)
      (current : k'.epochs.readApplicationEpoch = k.epochs.readApplicationEpoch) (opened : k'.opened = k.opened)
  | update (m : HandshakeMessage) (reassembly : Reassembler) (keys : TrafficKeys)
      (takes : Takes k m reassembly) (epochs : k'.epochs = k.epochs.updateRead m.epoch keys)
      (opened : k'.opened = k.opened)

variable {epoch : ℕ}

section Moves

variable [Crypto] {k k' : Endpoint}

theorem Opens.accepted {r : Record} {keys : ReadEpoch} {o : OpenedRecord} {window : ReplayWindow}
    (opens : Opens k r epoch keys o window) :
    o.number.epoch = epoch ∧ keys.window.accept o.number.sequence = some window := by
  obtain ⟨inner, decoded⟩ := TrafficKeys.decodeRecord_ok opens.decoded
  exact ⟨decoded.epoch, decoded.accepted⟩

theorem Move.reads (move : Move k k') : Reads k k' := by
  cases move with
  | send move =>
    have frame := move.frame
    exact .keep (congrArg (·.epochs.read) frame.still) frame.installed
      (congrArg (·.epochs.readApplicationEpoch) frame.still) frame.opened
  | retire discard =>
    cases discard
    · exact .keep rfl rfl rfl rfl
    · exact .discard rfl rfl rfl rfl
  | install epoch readKeys writeKeys epochs absent staged =>
    exact .install epoch readKeys writeKeys epochs absent staged rfl rfl
  | openRecord r epoch keys o window opens =>
    obtain ⟨rfl, accepted⟩ := opens.accepted
    exact .record o keys window opens.found accepted rfl (.inl rfl)
  | countFailure epoch keys found => exact .failure epoch keys found rfl rfl
  | discardRead => exact .discard rfl rfl rfl rfl
  | takeKeyUpdate m reassembly r keys takes => exact .update m reassembly keys takes rfl rfl
  | _ => exact .keep rfl rfl rfl rfl

theorem Lapse.reads (lapse : Lapse k k') : Reads k k' := by
  cases lapse with
  | unopened r epoch keys o window opens =>
    obtain ⟨rfl, accepted⟩ := opens.accepted
    exact .record o keys window opens.found accepted rfl (.inr rfl)
  | _ => exact .keep rfl rfl rfl rfl

/-- What a move does to the reassembler. -/
inductive Refills [Crypto] (k k' : Endpoint) : Prop
  | keep (reassembly : k'.reassembly = k.reassembly)
  | store (epoch : ℕ) (body : Bytes) (budget : List Bool) (met : Met k epoch)
      (reassembly : k'.reassembly = (k.reassembly.add budget body epoch).2.1)
  | pop (m : HandshakeMessage) (pops : Pops k m k'.reassembly)

theorem Move.refills (move : Move k k') : Refills k k' := by
  cases move with
  | send move => exact .keep (congrArg (·.reassembly) move.frame.still)
  | store epoch body budget met => exact .store epoch body budget met rfl
  | pop m reassembly pops => exact .pop m pops
  | takeKeyUpdate m reassembly _ _ takes => exact .pop m takes.pops
  | _ => exact .keep rfl

theorem Lapse.refills (lapse : Lapse k k') : Refills k k' := by
  cases lapse with
  | missing m reassembly takes => exact .pop m takes.pops
  | _ => exact .keep rfl

theorem Move.faults (move : Move k k') : k'.faults = k.faults := by
  cases move with
  | send move => exact congrArg (·.faults) move.frame.still
  | _ => rfl

end Moves

/-! ## The table -/

structure TrafficEpochs.Tabled (t : TrafficEpochs) : Prop where
  staged : 3 ∈ t.installed → 2 ∈ t.installed
  started : t.readApplicationEpoch ≠ 0 → 3 ∈ t.installed
  handshake : 2 ∈ t.read → t.readApplicationEpoch ≤ 3
  present : ∀ epoch ∈ t.read, epoch = 2 ∨
    (3 ≤ epoch ∧ (epoch = t.readApplicationEpoch ∨ epoch + 1 = t.readApplicationEpoch))
  current : 3 ∈ t.installed → 3 ≤ t.readApplicationEpoch ∧ t.readApplicationEpoch ∈ t.read

/-- The opened records are of past or present epochs, and one of the current epoch has deleted the
epoch before it. Buffered messages came in opened records or in the clear. -/
structure Endpoint.Tabled (k : Endpoint) : Prop where
  epochs : k.epochs.Tabled
  opened : ∀ o ∈ k.opened, o.number.epoch = 2 ∨ o.number.epoch ≤ k.epochs.readApplicationEpoch
  cleared : ∀ o ∈ k.opened, o.number.epoch = k.epochs.readApplicationEpoch →
    ∀ epoch ∈ k.epochs.read, 3 ≤ epoch → epoch = o.number.epoch
  buffered : k.reassembly.Entries fun _ p => Met k p.message.epoch
  faultless : k.faults = []

theorem TrafficEpochs.mem_authenticate {t : TrafficEpochs} {r : ReadEpoch} {window : ReplayWindow}
    (found : t.read.lookup epoch = some r) (other : ℕ) : other ∈ (t.authenticate epoch r window).read ↔
      other ∈ t.read ∧ ¬(4 ≤ epoch ∧ 3 ≤ other ∧ other < epoch) := by
  have present : epoch ∈ t.read := mem_of_lookup found
  have members : ∀ a, a ∈ t.read.insert epoch { r with window } ↔ a ∈ t.read := fun a => by
    rw [mem_insert]
    exact ⟨fun either => either.elim (fun same => same ▸ present) id, .inr⟩
  simp only [authenticate]
  split
  · rename_i later
    rw [mem_eraseAll, members, List.mem_filter, ← mem_keys, members]
    simp only [Bool.and_eq_true, decide_eq_true_eq]
    tauto
  · rename_i early
    rw [members]
    exact ⟨fun member => ⟨member, fun both => early both.1⟩, And.left⟩

namespace TrafficEpochs.Tabled

variable {t t' : TrafficEpochs}

section

variable (tabled : t.Tabled)
include tabled

/-- A table with the same epochs. -/
theorem congr (read : ∀ epoch, epoch ∈ t'.read ↔ epoch ∈ t.read) (installed : t'.installed = t.installed)
    (current : t'.readApplicationEpoch = t.readApplicationEpoch) : t'.Tabled := by
  obtain ⟨staged, started, handshake, present, newest⟩ := tabled
  constructor <;> simp only [read, installed, current] <;> assumption

/-- Keys are installed before there is an application epoch: its keys need those of the handshake. -/
theorem unread (handshake : epoch = 2 ∨ epoch = 3) (absent : epoch ∉ t.installed) : t.readApplicationEpoch = 0 := by
  by_contra running
  have three := tabled.started running
  rcases handshake with rfl | rfl
  · exact absent (tabled.staged three)
  · exact absent three

private theorem install (handshake : epoch = 2 ∨ epoch = 3) (absent : epoch ∉ t.installed)
    (staged : epoch = 3 → 2 ∈ t.installed) (readKeys writeKeys : TrafficKeys) :
    (t.install epoch readKeys writeKeys).Tabled := by
  have unread := tabled.unread handshake absent
  have only : ∀ other ∈ t.read, other = 2 := fun other member => by
    rcases tabled.present other member with two | ⟨application, same | next⟩ <;> omega
  have read : ∀ other, other ∈ (t.install epoch readKeys writeKeys).read ↔ other = epoch ∨ other ∈ t.read := by
    simp [TrafficEpochs.install]
  have installed : ∀ other, other ∈ (t.install epoch readKeys writeKeys).installed ↔
      other = epoch ∨ other ∈ t.installed := by
    simp [TrafficEpochs.install]
  have current : (t.install epoch readKeys writeKeys).readApplicationEpoch = if epoch = 3 then 3 else 0 := by
    simp [TrafficEpochs.install, unread]
  constructor <;> simp only [read, installed, current]
  · rintro (three | three)
    · exact .inr (staged three.symm)
    · exact .inr (tabled.staged three)
  · intro running
    left
    by_contra different
    exact running (if_neg fun three => different three.symm)
  · intro _
    split <;> omega
  · rintro other (rfl | before)
    · rcases handshake with rfl | rfl
      · exact .inl rfl
      · exact .inr ⟨le_rfl, .inl rfl⟩
    · exact .inl (only other before)
  · rintro (three | three)
    · simp [← three]
    · rcases handshake with rfl | rfl
      · exact absurd (tabled.staged three) absent
      · exact absurd three absent

/-- Before the first KeyUpdate the current epoch is the only application epoch. -/
theorem only_of_le (first : t.readApplicationEpoch ≤ 3) :
    ∀ epoch ∈ t.read, 3 ≤ epoch → epoch = t.readApplicationEpoch := by
  intro epoch member large
  rcases tabled.present epoch member with two | ⟨-, same | next⟩ <;> omega

theorem le_current (member : epoch ∈ t.read) : epoch = 2 ∨ epoch ≤ t.readApplicationEpoch := by
  rcases tabled.present epoch member with two | ⟨-, same | next⟩ <;> omega

private theorem authenticate {r : ReadEpoch} (found : t.read.lookup epoch = some r) (window : ReplayWindow) :
    (t.authenticate epoch r window).Tabled := by
  have members : ∀ other, other ∈ (t.authenticate epoch r window).read ↔
      other ∈ t.read ∧ ¬(4 ≤ epoch ∧ 3 ≤ other ∧ other < epoch) := TrafficEpochs.mem_authenticate found
  have present : epoch ∈ t.read := mem_of_lookup found
  have kept : ∀ other ∈ (t.authenticate epoch r window).read, other ∈ t.read :=
    fun other member => ((members other).mp member).1
  refine ⟨tabled.staged, tabled.started, fun two => tabled.handshake (kept 2 two),
    fun other member => tabled.present other (kept other member), fun three => ?_⟩
  obtain ⟨application, newest⟩ := tabled.current three
  refine ⟨application, (members _).mpr ⟨newest, fun erased => ?_⟩⟩
  have above : t.readApplicationEpoch < epoch := erased.2.2
  rcases tabled.le_current present with two | below <;> omega

private theorem discard (read : t'.read = t.read.erase 2) (installed : t'.installed = t.installed)
    (current : t'.readApplicationEpoch = t.readApplicationEpoch) : t'.Tabled := by
  have members : ∀ other, other ∈ t'.read ↔ other ≠ 2 ∧ other ∈ t.read := by
    simp [read, mem_erase]
  constructor <;> simp only [members, installed, current]
  · exact tabled.staged
  · exact tabled.started
  · exact fun two => tabled.handshake two.2
  · exact fun other member => tabled.present other member.2
  · intro three
    obtain ⟨application, newest⟩ := tabled.current three
    exact ⟨application, by omega, newest⟩

/-- One more epoch, when the current one is the only application epoch. -/
theorem update (application : 3 ≤ epoch) (current : epoch = t.readApplicationEpoch)
    (only : ∀ other ∈ t.read, 3 ≤ other → other = epoch) (keys : TrafficKeys) : (t.updateRead epoch keys).Tabled := by
  have members : ∀ other, other ∈ (t.updateRead epoch keys).read ↔
      other ≠ 2 ∧ (other = epoch + 1 ∨ other ∈ t.read) := by
    simp [TrafficEpochs.updateRead, mem_erase]
  have installed : 3 ∈ t.installed := tabled.started (by omega)
  refine ⟨tabled.staged, fun _ => installed, fun two => absurd rfl ((members 2).mp two).1,
    fun other member => ?_, fun _ => ⟨?_, (members _).mpr ⟨?_, .inl rfl⟩⟩⟩
  · obtain ⟨different, rfl | before⟩ := (members other).mp member
    · exact .inr ⟨by omega, .inl rfl⟩
    · rcases tabled.present other before with two | ⟨large, -⟩
      · exact absurd two different
      · exact .inr ⟨large, .inr (congrArg (· + 1) (only other before large))⟩
  · exact application.trans (Nat.le_succ epoch)
  · exact Nat.ne_of_gt (Nat.lt_succ_of_lt application)

end

end TrafficEpochs.Tabled

/-! ## Sessions -/

variable {k k' : Endpoint}

/-- A message taken out in the current epoch came in a record of that epoch, which has left no other
application epoch. -/
theorem Endpoint.Tabled.only (tabled : k.Tabled) {m : HandshakeMessage} {reassembly : Reassembler}
    (takes : Takes k m reassembly) : ∀ epoch ∈ k.epochs.read, 3 ≤ epoch → epoch = m.epoch := by
  obtain ⟨budget, rest, popped⟩ := takes.pops
  obtain ⟨⟨p, found, same, -⟩, -⟩ := Reassembler.pop_entries popped
  have application := takes.application
  rcases tabled.buffered _ p found with clear | ⟨o, opened, epoch⟩
  · rw [same] at clear
    omega
  · rw [same] at epoch
    intro other member large
    rw [← epoch]
    exact tabled.cleared o opened (epoch.trans takes.current) other member large

variable [Crypto]

theorem Reads.opened_mono (reads : Reads k k') : ∀ o ∈ k.opened, o ∈ k'.opened := by
  intro o member
  cases reads with
  | record _ _ _ _ _ _ opened =>
    rcases opened with more | same
    · exact more ▸ List.mem_cons_of_mem _ member
    · exact same ▸ member
  | keep _ _ _ opened | install _ _ _ _ _ _ _ opened | failure _ _ _ _ opened | discard _ _ _ opened
  | update _ _ _ _ _ opened => exact opened ▸ member

theorem Reads.tabled (reads : Reads k k') (tabled : k.Tabled) : k'.epochs.Tabled := by
  cases reads with
  | keep read installed current =>
    exact tabled.epochs.congr (fun _ => by rw [read]) installed current
  | install epoch readKeys writeKeys handshake absent staged epochs =>
    exact epochs ▸ tabled.epochs.install handshake absent staged readKeys writeKeys
  | record o keys window found accepted epochs => exact epochs ▸ tabled.epochs.authenticate found window
  | failure epoch keys found epochs =>
    refine tabled.epochs.congr (fun other => ?_) (by rw [epochs]; rfl) (by rw [epochs]; rfl)
    rw [epochs, TrafficEpochs.countFailure, mem_insert]
    exact ⟨fun either => either.elim (fun same => same ▸ mem_of_lookup found) id, .inr⟩
  | discard read installed current => exact tabled.epochs.discard read installed current
  | update m reassembly keys takes epochs =>
    exact epochs ▸ tabled.epochs.update takes.application takes.current (tabled.only takes) keys

theorem Reads.opened (reads : Reads k k') (tabled : k.Tabled) :
    ∀ o ∈ k'.opened, o.number.epoch = 2 ∨ o.number.epoch ≤ k'.epochs.readApplicationEpoch := by
  cases reads with
  | keep read installed current opened | discard read installed current opened => exact opened ▸ current ▸ tabled.opened
  | install epoch readKeys writeKeys handshake absent staged epochs opened =>
    intro o member
    have unread := tabled.epochs.unread handshake absent
    refine (tabled.opened o (opened ▸ member)).imp_right fun below => ?_
    omega
  | record o keys window found accepted epochs opened =>
    have current : k'.epochs.readApplicationEpoch = k.epochs.readApplicationEpoch := by rw [epochs]; rfl
    rw [current]
    rcases opened with more | same
    · rw [more]
      exact List.forall_mem_cons.mpr
        ⟨tabled.epochs.le_current (mem_of_lookup found), tabled.opened⟩
    · exact same ▸ tabled.opened
  | failure epoch keys found epochs opened =>
    have current : k'.epochs.readApplicationEpoch = k.epochs.readApplicationEpoch := by rw [epochs]; rfl
    exact opened ▸ current ▸ tabled.opened
  | update m reassembly keys takes epochs opened =>
    intro o member
    have current : k'.epochs.readApplicationEpoch = m.epoch + 1 := by rw [epochs]; rfl
    refine (tabled.opened o (opened ▸ member)).imp_right fun below => ?_
    have := takes.current
    omega

theorem Reads.cleared (reads : Reads k k') (tabled : k.Tabled) :
    ∀ o ∈ k'.opened, o.number.epoch = k'.epochs.readApplicationEpoch →
      ∀ epoch ∈ k'.epochs.read, 3 ≤ epoch → epoch = o.number.epoch := by
  have table := reads.tabled tabled
  intro o member newest other present large
  cases reads with
  | keep read installed current opened =>
    exact tabled.cleared o (opened ▸ member) (newest.trans current) other (read ▸ present) large
  | install epoch readKeys writeKeys handshake absent staged epochs opened =>
    have unread := tabled.epochs.unread handshake absent
    have first : k'.epochs.readApplicationEpoch ≤ 3 := by
      rw [epochs, TrafficEpochs.install]
      dsimp only
      split <;> omega
    exact (table.only_of_le first other present large).trans newest.symm
  | record o' keys window found accepted epochs opened =>
    have current : k'.epochs.readApplicationEpoch = k.epochs.readApplicationEpoch := by rw [epochs]; rfl
    rw [epochs] at present
    obtain ⟨before, kept⟩ := (TrafficEpochs.mem_authenticate found other).mp present
    have old : o ∈ k.opened → other = o.number.epoch := fun member =>
      tabled.cleared o member (newest.trans current) other before large
    rcases opened with more | same
    · rcases List.mem_cons.mp (more ▸ member) with rfl | earlier
      · by_cases later : 4 ≤ o.number.epoch
        · have below := tabled.epochs.le_current before
          omega
        · exact (tabled.epochs.only_of_le (by omega) other before large).trans (newest.trans current).symm
      · exact old earlier
    · exact old (same ▸ member)
  | failure epoch keys found epochs opened =>
    rw [epochs] at newest present
    refine tabled.cleared o (opened ▸ member) newest other ?_ large
    rcases (mem_insert _).mp present with same | before
    · exact same ▸ mem_of_lookup found
    · exact before
  | discard read installed current opened =>
    rw [read, mem_erase] at present
    exact tabled.cleared o (opened ▸ member) (newest.trans current) other present.2 large
  | update m reassembly keys takes epochs opened =>
    have next : k'.epochs.readApplicationEpoch = m.epoch + 1 := by rw [epochs]; rfl
    have bound := tabled.opened o (opened ▸ member)
    have application := takes.application
    have current := takes.current
    omega

theorem Refills.buffered (refills : Refills k k') (opened : ∀ o ∈ k.opened, o ∈ k'.opened)
    (buffered : k.reassembly.Entries fun _ p => Met k p.message.epoch) :
    k'.reassembly.Entries fun _ p => Met k' p.message.epoch := by
  have later : ∀ {epoch}, Met k epoch → Met k' epoch := Or.imp_right fun ⟨o, member, same⟩ => ⟨o, opened o member, same⟩
  have kept : k.reassembly.Entries fun _ p => Met k' p.message.epoch := fun sequence p found =>
    later (buffered sequence p found)
  cases refills with
  | keep reassembly => exact reassembly ▸ kept
  | store epoch body budget met reassembly =>
    rw [reassembly]
    refine Reassembler.add_entries kept fun f _ => ⟨later met, fun p holds _ _ _ => ?_⟩
    rw [(p.store_extends f.body f.offset).epoch]
    exact holds
  | pop m pops =>
    obtain ⟨budget, rest, popped⟩ := pops
    obtain ⟨-, -, fewer⟩ := Reassembler.pop_entries popped
    exact fun sequence p found => kept sequence p (fewer sequence p found)

theorem Endpoint.Tabled.step (tabled : k.Tabled) (reads : Reads k k') (refills : Refills k k')
    (faultless : k'.faults = []) : k'.Tabled where
  epochs := reads.tabled tabled
  opened := reads.opened tabled
  cleared := reads.cleared tabled
  buffered := refills.buffered reads.opened_mono tabled.buffered
  faultless := faultless

theorem Move.tabled (move : Move k k') (tabled : k.Tabled) : k'.Tabled :=
  tabled.step move.reads move.refills (move.faults.trans tabled.faultless)

/-- No KeyUpdate finds its read keys missing. -/
theorem Lapse.faultless (lapse : Lapse k k') (tabled : k.Tabled) : k'.faults = [] := by
  cases lapse with
  | missing m reassembly takes missing =>
    have started : 3 ∈ k.epochs.installed :=
      tabled.epochs.started (takes.current ▸ Nat.ne_of_gt (Nat.lt_of_lt_of_le (by decide) takes.application))
    exact absurd (takes.current ▸ (tabled.epochs.current started).2) missing
  | _ => exact tabled.faultless

theorem Lapse.tabled (lapse : Lapse k k') (tabled : k.Tabled) : k'.Tabled :=
  tabled.step lapse.reads lapse.refills (lapse.faultless tabled)

omit [Crypto] in
theorem Fresh.tabled {w : World} (fresh : Fresh w.session) (blank : w.history = {}) : w.endpoint.Tabled where
  epochs := by
    constructor <;> simp [World.endpoint, fresh.installed, fresh.readApplicationEpoch, fresh.read]
  opened := by simp [World.endpoint, blank]
  cleared := by simp [World.endpoint, blank]
  buffered sequence p found := .inl (fresh.pending sequence p found)
  faultless := by simp [World.endpoint, blank]

theorem Steps.tabled {w w' : World} (steps : Steps w w') (fresh : Fresh w.session)
    (blank : w.history = {}) : w'.endpoint.Tabled :=
  (steps.invariant (fun _ _ _ inv move => move.tabled inv) (fun _ _ _ inv lapse => lapse.tabled inv)
    fresh.good (fresh.tabled blank)).2

/-- In every reachable state no two read epochs agree in their two low bits, there are at most two
application epochs and they are consecutive, and the current one is the newest and present; no
KeyUpdate was ever processed without the read keys of its epoch. -/
theorem steps_readEpochs {w w' : World} (fresh : Fresh w.session) (blank : w.history = {}) (steps : Steps w w') :
    (∀ a ∈ w'.session.epochs.read, ∀ b ∈ w'.session.epochs.read, a % 4 = b % 4 → a = b) ∧
    (w'.session.epochs.read.keys.filter (3 ≤ ·)).length ≤ 2 ∧
    (∀ a ∈ w'.session.epochs.read, ∀ b ∈ w'.session.epochs.read, 3 ≤ a → a < b → b = a + 1) ∧
    (∀ a ∈ w'.session.epochs.read, 3 ≤ a → a ≤ w'.session.epochs.readApplicationEpoch) ∧
    (w'.session.epochs.readApplicationEpoch ≠ 0 →
      3 ≤ w'.session.epochs.readApplicationEpoch ∧
        w'.session.epochs.readApplicationEpoch ∈ w'.session.epochs.read) ∧
    w'.history.faults = [] := by
  have tabled := steps.tabled fresh blank
  have table : w'.session.epochs.Tabled := tabled.epochs
  set current := w'.session.epochs.readApplicationEpoch with current_def
  refine ⟨fun a inA b inB same => ?_, ?_, fun a inA b inB large less => ?_, fun a inA large => ?_,
    fun running => table.current (table.started running), tabled.faultless⟩
  · have byTwo : 2 ∈ w'.session.epochs.read → current ≤ 3 := table.handshake
    rcases table.present a inA with rfl | ⟨largeA, casesA⟩ <;>
      rcases table.present b inB with rfl | ⟨largeB, casesB⟩
    · rfl
    · have := byTwo inA
      omega
    · have := byTwo inB
      omega
    · omega
  · have distinct := w'.session.epochs.read.keys_nodup.filter (3 ≤ ·)
    have two : ∀ a ∈ w'.session.epochs.read.keys.filter (3 ≤ ·), a ∈ [current, current - 1] := by
      intro a member
      obtain ⟨listed, large⟩ := List.mem_filter.mp member
      have bound := of_decide_eq_true large
      rcases table.present a (mem_keys.mpr listed) with rfl | ⟨-, same | next⟩
      · omega
      · simp [same, current_def]
      · simp [← next, current_def]
    exact (distinct.subperm two).length_le
  · rcases table.present a inA with rfl | ⟨-, casesA⟩ <;> rcases table.present b inB with rfl | ⟨-, casesB⟩ <;>
      omega
  · rcases table.le_current inA with two | below
    · omega
    · exact below

omit [Crypto]

/-- A client that has processed the server's KeyUpdate. -/
def updatedClient : World :=
  let server := @perform transparent [(Event.updateKeys false 5).alone] openServer
  @perform transparent [(Event.receive server.newest {} 6).alone] openClient

theorem steps_updatedClient : @Steps transparent (newWorld true) updatedClient := by
  unfold updatedClient
  exact steps_openClient.trans (@steps_perform transparent _ _)

theorem updatedClient_readEpochs :
    updatedClient.session.epochs.read.keys = [4, 3] ∧
      (updatedClient.session.epochs.read.keys.filter (3 ≤ ·)).length ≤ 2 := by
  refine ⟨by decide +kernel, ?_⟩
  have table := @steps_readEpochs transparent _ _ (fresh_newWorld true) rfl steps_updatedClient
  exact table.2.1

end Socat.Dtls13
