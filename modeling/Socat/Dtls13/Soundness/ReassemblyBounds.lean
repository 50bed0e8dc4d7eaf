import Socat.Dtls13.Soundness.Reassembly

/-! # What a hostile peer can make the reassembler hold

The peer chooses every byte of every record. Whatever it sends, the pending entries lie in a window of
sixteen sequences, the bytes beyond the next expected message stay within one maximal body, and the memory
budget, which other holders reserve from and release to at any moment, holds exactly what the pending
entries cost.
-/

namespace Socat.Dtls13

open AList

/-! ## A budget with other holders -/

/-- A call another holder makes. -/
inductive Demand
  | reserve (size : ℕ)
  | release (size : ℕ)
deriving DecidableEq, Repr

/-- A budget and what the other holders hold of it. The schedule lists, for each coming call of this
holder, the calls of the others that are completed before it. -/
structure SharedBudget where
  memory : Option MemoryBudget
  others : ℤ
  schedule : List (List Demand)

namespace SharedBudget

def demand (b : SharedBudget) : Demand → SharedBudget
  | .reserve size =>
    let (granted, memory) := Budget.reserve b.memory size
    { b with memory, others := if granted then b.others + size else b.others }
  | .release size => { b with memory := Budget.release b.memory size, others := b.others - size }

/-- The others run up to this holder's next call. -/
def interfere (b : SharedBudget) : SharedBudget :=
  match b.schedule with
  | [] => b
  | demands :: schedule => demands.foldl demand { b with schedule }

instance : Budget SharedBudget where
  reserve b size :=
    let (granted, memory) := Budget.reserve b.interfere.memory size
    (granted, { b.interfere with memory })
  release b size := { b.interfere with memory := Budget.release b.interfere.memory size }

/-- Apart from what the others hold, the budget holds this much. -/
def Holds (b : SharedBudget) (amount : ℤ) : Prop := ∀ m, b.memory = some m → m.used = b.others + amount

theorem reserve_used {memory rest : Option MemoryBudget} {size : ℕ} {granted : Bool} {m' : MemoryBudget}
    (reserved : Budget.reserve memory size = (granted, rest)) (after : rest = some m') :
    ∃ m, memory = some m ∧ m'.used = m.used + if granted then (size : ℤ) else 0 := by
  subst after
  cases memory with
  | none => cases reserved
  | some m =>
    change (if m.limit - m.used < size then _ else _) = _ at reserved
    split_ifs at reserved with full
    · cases reserved
      exact ⟨_, rfl, by simp⟩
    · cases reserved
      exact ⟨_, rfl, by simp⟩

theorem release_used {memory : Option MemoryBudget} {size : ℕ} {m' : MemoryBudget}
    (after : Budget.release memory size = some m') : ∃ m, memory = some m ∧ m'.used = m.used - size := by
  cases memory with
  | none => cases after
  | some m =>
    cases after
    exact ⟨m, rfl, rfl⟩

variable {b : SharedBudget} {amount : ℤ}

theorem Holds.demand (holds : b.Holds amount) (d : Demand) : (b.demand d).Holds amount := by
  intro m' after
  cases d with
  | reserve size =>
    rcases reserved : Budget.reserve b.memory size with ⟨granted, rest⟩
    have kept : (b.demand (.reserve size)).memory = rest := congrArg Prod.snd reserved
    obtain ⟨m, found, used⟩ := reserve_used reserved (kept.symm.trans after)
    have before := holds m found
    show m'.used = (if (Budget.reserve b.memory size).1 then b.others + size else b.others) + amount
    rw [reserved]
    cases granted <;> simp at used ⊢ <;> omega
  | release size =>
    obtain ⟨m, found, used⟩ := release_used after
    have before := holds m found
    show m'.used = b.others - size + amount
    omega

theorem Holds.demands (holds : b.Holds amount) (demands : List Demand) :
    (demands.foldl SharedBudget.demand b).Holds amount := by
  induction demands generalizing b with
  | nil => exact holds
  | cons d rest ih => exact ih (holds.demand d)

theorem Holds.interfere (holds : b.Holds amount) : b.interfere.Holds amount := by
  unfold SharedBudget.interfere
  split
  · exact holds
  · rename_i demands schedule scheduled
    have start : ({ b with schedule } : SharedBudget).Holds amount := holds
    exact start.demands demands

theorem Holds.reserve {b' : SharedBudget} {size : ℕ} {granted : Bool} (holds : b.Holds amount)
    (reserved : Budget.reserve b size = (granted, b')) : b'.Holds (amount + if granted then (size : ℤ) else 0) := by
  cases reserved
  intro m' after
  obtain ⟨m, found, used⟩ := reserve_used rfl after
  have before := holds.interfere m found
  show m'.used = b.interfere.others + _
  omega

theorem Holds.release (holds : b.Holds amount) (size : ℕ) : (Budget.release b size).Holds (amount - size) := by
  intro m' after
  obtain ⟨m, found, used⟩ := release_used after
  have before := holds.interfere m found
  show m'.used = b.interfere.others + _
  omega

end SharedBudget

/-! ## Entries -/

namespace PartialHandshake

/-- The marks cover the body, and the counter counts those that are unset. -/
structure Counted (p : PartialHandshake) : Prop where
  marks : p.seen.length = p.message.body.length
  remaining : p.remaining = p.seen.count false

variable {p : PartialHandshake}

private theorem start_counted (f : HandshakeFragment) (epoch : ℕ) : (start f epoch).Counted where
  marks := by simp [start]
  remaining := by simp [start]

theorem Counted.put (counted : p.Counted) {position : ℕ} (inside : position < p.seen.length)
    (unseen : p.seen.getD position false = false) (byte : UInt8) : (p.put position byte).Counted where
  marks := by simp [PartialHandshake.put, counted.marks]
  remaining := by
    have unset : p.seen[position] = false := by
      rwa [List.getD_eq_getElem _ _ inside] at unseen
    simp [PartialHandshake.put, List.count_set inside, unset, counted.remaining]

theorem Counted.store (counted : p.Counted) {bytes : Bytes} {position : ℕ}
    (inside : position + bytes.length ≤ p.seen.length) : (p.store position bytes).2.Counted := by
  induction bytes generalizing p position with
  | nil => exact counted
  | cons byte rest ih =>
    rw [List.length_cons] at inside
    unfold PartialHandshake.store
    split
    · split
      · exact ih counted (by omega)
      · exact counted
    · rename_i unseen
      have here : position < p.seen.length := by omega
      have marks := (put_extends p position byte).marks
      exact ih (counted.put here (by simpa using unseen) byte) (by omega)

end PartialHandshake

/-! ## The reassembler -/

variable {sequence : ℕ} {p : PartialHandshake} {budget : SharedBudget}

namespace Reassembler

/-- The size of the body a message under reassembly has. -/
def bodyLength (p : PartialHandshake) : ℕ := p.message.body.length

def cost (p : PartialHandshake) : ℕ := fragmentCost p.message.body.length

/-- The bytes held for the next expected message. -/
def headLength (r : Reassembler) : ℕ := (r.head.map bodyLength).getD 0

/-- What every call keeps, whatever the peer sends. -/
structure Sound (r : Reassembler) : Prop where
  next_le : r.next ≤ 65536
  window : ∀ sequence p, r.pending.lookup sequence = some p →
    r.next ≤ sequence ∧ sequence < r.next + maxPendingMessages ∧ sequence < 65536
  entries : r.Entries fun _ p => p.Counted ∧ bodyLength p ≤ maxHandshakeBody
  buffered : r.buffered = r.pending.total bodyLength
  future : r.buffered ≤ maxHandshakeBody + r.headLength

variable {r : Reassembler}

theorem Sound.futureBytes (sound : r.Sound) : r.futureBytes + r.headLength = r.buffered := by
  have held : r.headLength ≤ r.buffered := by
    rw [sound.buffered, headLength]
    cases found : r.head with
    | none => exact Nat.zero_le _
    | some p => exact weight_le_total bodyLength found
  exact Nat.sub_add_cancel held

theorem Sound.headLength_le (sound : r.Sound) : r.headLength ≤ maxHandshakeBody := by
  unfold headLength
  cases found : r.head with
  | none => exact Nat.zero_le _
  | some p => exact (sound.entries _ _ found).2

/-- At most sixteen messages are pending. -/
theorem Sound.few (sound : r.Sound) : r.pending.keys.length ≤ maxPendingMessages := by
  have inside : r.pending.keys.toFinset ⊆ Finset.Ico r.next (r.next + maxPendingMessages) := by
    intro sequence member
    obtain ⟨p, found⟩ := exists_lookup_of_mem (mem_keys.mpr (List.mem_toFinset.mp member))
    have window := sound.window sequence p found
    exact Finset.mem_Ico.mpr ⟨window.1, window.2.1⟩
  have size := Finset.card_le_card inside
  rwa [List.toFinset_card_of_nodup r.pending.keys_nodup, Nat.card_Ico, Nat.add_sub_cancel_left] at size

theorem headLength_insert (sequence buffered : ℕ) (p : PartialHandshake) :
    ({ r with pending := r.pending.insert sequence p, buffered } : Reassembler).headLength =
      if r.next % 65536 = sequence then bodyLength p else r.headLength := by
  unfold headLength head
  rw [lookup_insert_eq]
  split <;> rfl

theorem window_insert {buffered : ℕ} (sound : r.Sound) (above : r.next ≤ sequence)
    (near : sequence < r.next + maxPendingMessages) (word : sequence < 65536) (other : ℕ) (q : PartialHandshake)
    (found :
      ({ r with pending := r.pending.insert sequence p, buffered } : Reassembler).pending.lookup other = some q) :
    r.next ≤ other ∧ other < r.next + maxPendingMessages ∧ other < 65536 := by
  rw [lookup_insert_eq] at found
  split at found
  · rename_i same
    subst same
    exact ⟨above, near, word⟩
  · exact sound.window other q found

/-- An entry grows in place. -/
theorem Sound.replace {q : PartialHandshake} (sound : r.Sound) (found : r.pending.lookup sequence = some p)
    (grows : p.Extends q) (counted : q.Counted) : Sound { r with pending := r.pending.insert sequence q } where
  next_le := sound.next_le
  window := by
    obtain ⟨above, near, word⟩ := sound.window sequence p found
    exact window_insert sound above near word
  entries := entries_insert sound.entries
    ⟨counted, grows.length.trans_le (sound.entries _ _ found).2⟩
  buffered := by
    rw [total_replace bodyLength found grows.length]
    exact sound.buffered
  future := by
    have same : ({ r with pending := r.pending.insert sequence q } : Reassembler).headLength = r.headLength := by
      rw [headLength_insert sequence r.buffered q]
      split
      · rename_i here
        subst here
        have head : r.head = some p := found
        rw [headLength, head]
        exact grows.length
      · rfl
    rw [same]
    exact sound.future

/-- A new entry starts, at the head or within the room for future messages. -/
theorem Sound.start (sound : r.Sound) (above : r.next ≤ sequence)
    (near : sequence < r.next + maxPendingMessages) (word : sequence < 65536)
    (absent : r.pending.lookup sequence = none) (counted : p.Counted) (small : bodyLength p ≤ maxHandshakeBody)
    (room : sequence = r.next ∨ r.futureBytes + bodyLength p ≤ maxHandshakeBody) : Sound { r with
      pending := r.pending.insert sequence p
      buffered := r.buffered + bodyLength p } where
  next_le := sound.next_le
  window := window_insert sound above near word
  entries := entries_insert sound.entries ⟨counted, small⟩
  buffered := by
    rw [total_insert bodyLength absent p, sound.buffered, Nat.add_comm]
  future := by
    rw [headLength_insert]
    have split := sound.futureBytes
    have future := sound.future
    have first : r.next % 65536 = r.next := Nat.mod_eq_of_lt (by omega)
    rw [first]
    show r.buffered + bodyLength p ≤ _
    split_ifs with here
    · have empty : r.headLength = 0 := by
        rw [headLength, head, first, here, absent]
        rfl
      omega
    · rcases room with same | room
      · exact absurd same.symm here
      · omega

theorem Sound.insert {β : Type*} [Budget β] {f : HandshakeFragment} (sound : r.Sound)
    (inside : f.offset + f.body.length ≤ f.total) (word : f.sequence < 65536) (budget : β) (epoch : ℕ) :
    (r.insert budget f epoch).2.1.Sound := by
  refine insert_cases (P := fun _ r' _ => r'.Sound) fun inserted => ?_
  cases inserted with
  | old _ | beyond _ | large _ _ | conflict _ _ _ | crowded _ _ _ _ _ | exhausted _ _ _ _ _ => exact sound
  | @stored p _ _ found agrees =>
    have counted := (sound.entries _ _ found).1
    apply sound.replace found (PartialHandshake.store_extends _ _ _)
    apply counted.store
    rw [counted.marks, agrees.total]
    exact inside
  | started expected small absent room _ =>
    have size : (PartialHandshake.start f epoch).message.body.length = f.total := by simp [PartialHandshake.start]
    have grown := PartialHandshake.store_extends f.body (.start f epoch) f.offset
    have counted := PartialHandshake.start_counted f epoch
    have total : bodyLength ((PartialHandshake.start f epoch).store f.offset f.body).2 = f.total :=
      grown.length.trans size
    rw [← total] at small room
    have started := sound.start expected.from_next expected.below word absent
      (counted.store (by rw [counted.marks, size]; exact inside)) small room
    rwa [total] at started

/-- The head leaves, and what was reserved for the future suffices for what is left. -/
theorem Sound.pop {β : Type*} [Budget β] (sound : r.Sound) (budget : β) : (r.pop budget).2.1.Sound := by
  unfold Reassembler.pop
  split
  · exact sound
  rename_i word
  split
  · exact sound
  rename_i p found
  split
  · exact sound
  have first : r.next % 65536 = r.next := Nat.mod_eq_of_lt (by omega)
  have head : r.headLength = bodyLength p := by rw [headLength, Reassembler.head, first, found]; rfl
  have left := total_erase bodyLength found
  have kept : ∀ sequence q, (r.pending.erase r.next).lookup sequence = some q →
      sequence ≠ r.next ∧ r.pending.lookup sequence = some q := by
    intro sequence q lookup
    rw [lookup_erase_eq] at lookup
    split at lookup
    · cases lookup
    · exact ⟨‹_›, lookup⟩
  constructor
  · show r.next + 1 ≤ 65536
    omega
  · intro sequence q lookup
    obtain ⟨different, present⟩ := kept sequence q lookup
    obtain ⟨above, near, word⟩ := sound.window sequence q present
    show r.next + 1 ≤ sequence ∧ sequence < r.next + 1 + maxPendingMessages ∧ sequence < 65536
    omega
  · intro sequence q lookup
    exact sound.entries sequence q (kept sequence q lookup).2
  · show r.buffered - bodyLength p = _
    rw [sound.buffered, left]
    exact Nat.add_sub_cancel_left _ _
  · show r.buffered - bodyLength p ≤ _
    have future := sound.future
    omega

theorem sound_empty {next : ℕ} (word : next ≤ 65536) : Sound { next } where
  next_le := word
  window := by
    intro sequence p found
    cases found
  entries := by
    intro sequence p found
    cases found
  buffered := rfl
  future := Nat.zero_le _

theorem Sound.reset {β : Type*} [Budget β] (sound : r.Sound) (budget : β) : (r.reset budget).1.Sound :=
  sound_empty sound.next_le

/-! ## What the budget holds -/

/-- The budget holds what the pending entries cost. -/
def Accounted (r : Reassembler) (budget : SharedBudget) : Prop := budget.Holds (r.pending.total cost)

theorem Accounted.insert {f : HandshakeFragment} (accounted : r.Accounted budget) (epoch : ℕ) :
    (r.insert budget f epoch).2.1.Accounted (r.insert budget f epoch).2.2 := by
  refine insert_cases (P := fun _ r' rest => r'.Accounted rest) fun inserted => ?_
  cases inserted with
  | old _ | beyond _ | large _ _ | conflict _ _ _ | crowded _ _ _ _ _ => exact accounted
  | exhausted _ _ _ _ reserved =>
    have refused := SharedBudget.Holds.reserve accounted reserved
    unfold Accounted
    simpa using refused
  | @stored p _ _ found _ =>
    have grown := PartialHandshake.store_extends f.body p f.offset
    unfold Accounted
    rw [total_replace cost found (congrArg fragmentCost grown.length)]
    exact accounted
  | started _ _ absent _ reserved =>
    have granted := SharedBudget.Holds.reserve accounted reserved
    have grown := PartialHandshake.store_extends f.body (.start f epoch) f.offset
    have size : cost ((PartialHandshake.start f epoch).store f.offset f.body).2 = fragmentCost f.total := by
      rw [cost, grown.length]
      simp [PartialHandshake.start]
    unfold Accounted
    rw [total_insert cost absent, size]
    simpa [Int.add_comm] using granted

theorem Accounted.pop (accounted : r.Accounted budget) : (r.pop budget).2.1.Accounted (r.pop budget).2.2 := by
  unfold Reassembler.pop
  split
  · exact accounted
  split
  · exact accounted
  rename_i p found
  split
  · exact accounted
  have released := SharedBudget.Holds.release accounted (cost p)
  rw [total_erase cost found, Nat.cast_add, add_sub_cancel_left] at released
  exact released

theorem Accounted.reset (accounted : r.Accounted budget) : (r.reset budget).1.Accounted (r.reset budget).2 := by
  have released : ∀ (entries : List (Sigma fun _ : ℕ => PartialHandshake)) (budget : SharedBudget),
      budget.Holds ((entries.map fun entry => cost entry.2).sum : ℕ) →
      (entries.foldl (fun budget entry => Budget.release budget (cost entry.2)) budget).Holds 0 := by
    intro entries
    induction entries with
    | nil =>
      intro budget holds
      exact holds
    | cons entry rest ih =>
      intro budget holds
      apply ih
      have after := SharedBudget.Holds.release holds (cost entry.2)
      rwa [List.map_cons, List.sum_cons, Nat.cast_add, add_sub_cancel_left] at after
  exact released _ _ accounted

end Reassembler

/-! ## Runs -/

/-- A reassembler and the budget it draws on. -/
structure Holder where
  reassembler : Reassembler
  budget : SharedBudget

namespace Holder

inductive Call
  | add (data : Bytes) (epoch : ℕ)
  | pop
  | reset

def step (h : Holder) : Call → Holder
  | .add data epoch => ⟨(h.reassembler.add h.budget data epoch).2.1, (h.reassembler.add h.budget data epoch).2.2⟩
  | .pop => ⟨(h.reassembler.pop h.budget).2.1, (h.reassembler.pop h.budget).2.2⟩
  | .reset => ⟨(h.reassembler.reset h.budget).1, (h.reassembler.reset h.budget).2⟩

def run (h : Holder) (calls : List Call) : Holder := calls.foldl step h

/-- A new reassembler, which holds nothing of a budget others may already use. A listener starts some at a
later sequence than zero. -/
def start (next : UInt16) (memory : Option MemoryBudget) (schedule : List (List Demand)) : Holder where
  reassembler := { next := next.toNat }
  budget := ⟨memory, (memory.map MemoryBudget.used).getD 0, schedule⟩

/-- What is held is bounded and accounted for. -/
structure Bounded (h : Holder) : Prop where
  few : h.reassembler.pending.keys.length ≤ 16
  window : ∀ sequence ∈ h.reassembler.pending.keys,
    h.reassembler.next ≤ sequence ∧ sequence < h.reassembler.next + 16
  next_le : h.reassembler.next ≤ 65536
  buffered : h.reassembler.buffered = h.reassembler.pending.total fun p => p.message.body.length
  buffered_le : h.reassembler.buffered ≤ 2 * 2 ^ 20
  remaining : ∀ sequence p, h.reassembler.pending.lookup sequence = some p →
    p.seen.length = p.message.body.length ∧ p.remaining = p.seen.count false
  held : ∀ m, h.budget.memory = some m →
    m.used = h.budget.others + h.reassembler.pending.total fun p => fragmentCost p.message.body.length

/-- What every call keeps. -/
structure Sound (h : Holder) : Prop where
  reassembler : h.reassembler.Sound
  accounted : h.reassembler.Accounted h.budget

theorem Sound.bounded {h : Holder} (sound : h.Sound) : h.Bounded where
  few := sound.reassembler.few
  window := by
    intro sequence member
    obtain ⟨p, found⟩ := exists_lookup_of_mem (mem_keys.mpr member)
    have window := sound.reassembler.window sequence p found
    exact ⟨window.1, window.2.1⟩
  next_le := sound.reassembler.next_le
  buffered := sound.reassembler.buffered
  buffered_le := by
    have future := sound.reassembler.future
    have head := sound.reassembler.headLength_le
    have size : maxHandshakeBody = 2 ^ 20 := rfl
    omega
  remaining := by
    intro sequence p found
    obtain ⟨counted, -⟩ := sound.reassembler.entries sequence p found
    exact ⟨counted.marks, counted.remaining⟩
  held := sound.accounted

theorem Sound.step {h : Holder} (sound : h.Sound) (call : Call) : (h.step call).Sound := by
  cases call with
  | add data epoch =>
    have keeps : ∀ f ∈ fragments data, ∀ (r : Reassembler) (budget : SharedBudget), r.Sound ∧ r.Accounted budget →
        (r.insert budget f epoch).2.1.Sound ∧
          (r.insert budget f epoch).2.1.Accounted (r.insert budget f epoch).2.2 := by
      intro f member r budget holds
      obtain ⟨_, _, parsed⟩ := fragments_parsed member
      exact ⟨holds.1.insert (parseFragment_inside parsed) (parseFragment_sequence parsed) budget epoch,
        holds.2.insert epoch⟩
    have kept := Reassembler.add_invariant
      (P := fun r (budget : SharedBudget) => r.Sound ∧ r.Accounted budget) keeps
      ⟨sound.reassembler, sound.accounted⟩
    exact ⟨kept.1, kept.2⟩
  | pop => exact ⟨sound.reassembler.pop h.budget, sound.accounted.pop⟩
  | reset => exact ⟨sound.reassembler.reset h.budget, sound.accounted.reset⟩

theorem Sound.run {h : Holder} (sound : h.Sound) (calls : List Call) : (h.run calls).Sound := by
  induction calls generalizing h with
  | nil => exact sound
  | cons call rest ih => exact ih (sound.step call)

private theorem start_sound (next : UInt16) (memory : Option MemoryBudget) (schedule : List (List Demand)) :
    (start next memory schedule).Sound := by
  constructor
  · exact Reassembler.sound_empty next.toNat_lt.le
  · intro m found
    cases found
    exact (Int.add_zero _).symm

/-- Whatever bytes arrive, in whatever epochs and order of calls, the reassembler stays within its bounds, and
once it is reset it holds nothing. -/
theorem holder_bounded (next : UInt16) (memory : Option MemoryBudget) (schedule : List (List Demand))
    (calls : List Call) :
    ((start next memory schedule).run calls).Bounded ∧
      ((start next memory schedule).run (calls ++ [.reset])).reassembler.pending = ∅ ∧
      ∀ m, ((start next memory schedule).run (calls ++ [.reset])).budget.memory = some m →
        m.used = ((start next memory schedule).run (calls ++ [.reset])).budget.others := by
  have sound := (start_sound next memory schedule).run calls
  have cleared : (start next memory schedule).run (calls ++ [.reset]) =
      ((start next memory schedule).run calls).step .reset :=
    List.foldl_append
  refine ⟨sound.bounded, by rw [cleared]; rfl, fun m found => ?_⟩
  rw [cleared] at found ⊢
  have held := (sound.step .reset).accounted m found
  exact held.trans (Int.add_zero _)

end Holder

end Socat.Dtls13
