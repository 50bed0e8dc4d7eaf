import Socat.Dtls13.Moves.Drafting
import Socat.Dtls13.Moves.Quiet
import Socat.Dtls13.Soundness.Transmission

/-! # First transmissions

A flight sends its messages in order: no record of a message goes out before one of each message ahead of it. So
the numbers of the messages of which a record was sent stay consecutive, and right behind them come those that wait
in a flight and those that have just been numbered.
-/

namespace Socat.Dtls13

open Machine List OutboundMessage

/-- The sequence number in the header of a handshake record. -/
def Packet.messageNumber (p : Packet) : ℕ := readNat ((p.body.drop 4).take 2)

private theorem messageNumber_of_fragment {m : HandshakeMessage} {start size : ℕ} {p : Packet}
    (cut : m.fragment start size = .ok p.body) (small : m.sequence < 65536) : p.messageNumber = m.sequence := by
  obtain ⟨-, -, layout⟩ := HandshakeMessage.fragment_eq_ok.mp cut
  unfold Packet.messageNumber
  rw [layout]
  exact readNat_be16 small

/-- A record of the message was sent. -/
def OutboundMessage.Begun (m : OutboundMessage) : Prop := m.emptySent = true ∨ ∃ i, m.sent.getD i false = true

variable {f : Flight}

section Begun

variable {out : OutboundMessage}

/-- Of a message without anything left to send for the first time a record was sent. -/
theorem begun_of_allSent (books : out.Accounted) (all : out.AllSent) : out.Begun := by
  unfold AllSent at all
  split_ifs at all with empty
  · exact .inl (all.elim id books.emptyEarned)
  · exact .inr ⟨0, (all 0 (length_pos_iff.mpr empty)).elim id (books.earned 0)⟩

theorem start_not_begun (m : HandshakeMessage) : ¬(OutboundMessage.start m).Begun := by
  rintro (empty | ⟨i, sent⟩)
  · simp [OutboundMessage.start] at empty
  · simp only [OutboundMessage.start, getD_eq_getElem?_getD, getElem?_replicate] at sent
    split_ifs at sent <;> simp at sent

private theorem begun_of_done (books : out.Accounted) (done : out.done = true) : out.Begun := by
  unfold OutboundMessage.done at done
  simp only [Bool.and_eq_true, beq_iff_eq, Bool.or_eq_true, Bool.not_eq_true', isEmpty_eq_false_iff] at done
  obtain ⟨none, nonempty | acknowledged⟩ := done
  · rw [books.remaining, count_eq_zero] at none
    have inside : 0 < out.acknowledged.length := books.acknowledged ▸ length_pos_iff.mpr nonempty
    refine .inr ⟨0, books.earned 0 ?_⟩
    rw [getD_eq_getElem _ _ inside]
    cases first : out.acknowledged[0] with
    | true => rfl
    | false => exact absurd (first ▸ getElem_mem inside) none
  · exact .inl (books.emptyEarned acknowledged)

/-- What an acknowledgement leaves alone in a message. -/
def OutboundMessage.outline (m : OutboundMessage) : HandshakeMessage × List Bool × Bool :=
  (m.message, m.sent, m.emptySent)

theorem begun_of_outline {m : OutboundMessage} (same : m.outline = out.outline) (begun : m.Begun) : out.Begun := by
  unfold outline at same
  simp only [Prod.mk.injEq] at same
  unfold Begun at begun ⊢
  rwa [same.2.1, same.2.2] at begun

/-- An acknowledgement sends nothing, and completes a flight only after all its messages were begun. -/
theorem acknowledge_begun (accounted : f.Accounted) (records : List RecordNumber) (authenticated : Bool)
    (now : Time) : (f.acknowledge records authenticated now).2.messages.map outline =
        f.messages.map outline ∨
      (f.acknowledge records authenticated now).2.messages = [] ∧ ∀ m ∈ f.messages, m.Begun := by
  unfold Flight.acknowledge
  split_ifs with complete
  · exact .inl rfl
  have same := Flight.acknowledgeRecords_map outline (fun _ _ _ => rfl) authenticated now records (f, false, 0)
  have books := (accounted.acknowledgeRecords authenticated now records false 0).accounted
  generalize records.foldl (Flight.acknowledgeRecord authenticated now) (f, false, 0) = state at same books ⊢
  obtain ⟨g, progress, rtt⟩ := state
  dsimp only at same books ⊢
  have messages : (if progress then { g with retries := 0, ackedSinceSend := true } else g).messages = g.messages := by
    split <;> rfl
  generalize (if progress then { g with retries := 0, ackedSinceSend := true } else g) = g' at messages ⊢
  split_ifs with done
  · refine .inr ⟨rfl, fun m listed => ?_⟩
    have mapped := mem_map_of_mem (f := outline) listed
    rw [← same, mem_map] at mapped
    obtain ⟨x, member, outline⟩ := mapped
    rw [messages] at done
    exact begun_of_outline outline (begun_of_done (books.mem member) (all_eq_true.mp done x member))
  · exact .inl (messages ▸ same)

end Begun

namespace Ledger

section Defs

variable (l : Ledger)

def messages (slot : Slot) : List HandshakeMessage := (l.held slot).messages.map (·.message)

/-- The numbers on the handshake records that went out, newest first. -/
def numbers : List ℕ := l.flown.map Packet.messageNumber

/-- The numbers of the messages of which a record was sent, in the order of their first records. -/
def firstNumbers : List ℕ := l.numbers.dedup.reverse

/-- The messages of a flight of which no record was sent. -/
def unflown (slot : Slot) : List HandshakeMessage := (l.messages slot).filter fun m => m.sequence ∉ l.numbers

def send (p : Packet) : Ledger := { l with flown := p :: l.flown }

def refit (held : Slot → Flight) : Ledger := { l with held }

/-- The messages of which records were sent, in order, are `front` and `back`, those of the handshake and those
after it. The `skipped` ones were numbered in between and never sent; only a server has any. They are the rest of
its flight, of which some messages were sent when a message of the client was accepted as the answer. -/
structure Enumerated (base : ℕ) (front skipped back : List HandshakeMessage) : Prop where
  numbers : (front ++ skipped ++ back).map (·.sequence) = List.range' base (front ++ skipped ++ back).length
  order : l.firstNumbers = (front ++ back).map (·.sequence)
  carried : ∀ p ∈ l.flown, ∃ m ∈ front ++ back, ∃ start size, m.fragment start size = .ok p.body
  early : ∀ m ∈ front ++ skipped, m.isPost = false
  late : ∀ m ∈ back, m.isPost = true
  gap : skipped ≠ [] → l.client = false
  answered : skipped ≠ [] → ∃ entry ∈ l.answered, ∃ sent, sent ≠ [] ∧ sent <:+ front ∧ entry.2 = sent ++ skipped
  headed : back ≠ [] → front ≠ []
  side : l.client = decide (base = 0)

/-- The flights hold messages of which records were sent, but for those that wait in `slot`. -/
structure Aboard (slot : Slot) (sent : List HandshakeMessage) : Prop where
  known : ∀ other, ∀ m ∈ l.messages other, m.sequence ∈ l.numbers → m ∈ sent
  settled : ∀ other ≠ slot, l.unflown other = []
  accounted : ∀ other, (l.held other).Accounted
  noted : ∀ other, ∀ m ∈ (l.held other).messages, m.Begun → m.message.sequence ∈ l.numbers

/-- Behind the messages that were sent come those that wait in `slot` and those that were drafted, up to the counter.
Messages of the handshake come first, and none is left behind where one still waits. A handshake flight has those
that wait at its end, and the others were the last to be sent. -/
structure Numbering (base : ℕ) (slot : Slot) (drafted front skipped back : List HandshakeMessage) : Prop where
  enumerated : l.Enumerated base front skipped back
  aboard : l.Aboard slot (front ++ back)
  pending : (l.unflown slot ++ drafted).map (·.sequence) =
    List.range' (base + (front ++ skipped ++ back).length) (l.unflown slot ++ drafted).length
  counter : l.sequence = base + (front ++ skipped ++ back).length + (l.unflown slot ++ drafted).length
  bounded : l.sequence ≤ 65536
  place : slot = .outbound → l.unflown slot ++ drafted ≠ [] → skipped = [] ∧ back = []
  typed : ∀ m ∈ l.unflown slot ++ drafted, m.isPost = !decide (slot = .outbound)
  tail : l.unflown .outbound ≠ [] → ∃ sent, sent <:+ front ∧ l.messages .outbound = sent ++ l.unflown .outbound
  opened : slot ≠ .outbound → l.complete = true ∧ front ≠ []
  finished : back ≠ [] → l.complete = true
  passed : skipped ≠ [] → l.complete = true ∨ l.phase ≠ .clientHello

/-- The messages of which records were sent, those that wait in `slot` and the drafted ones are numbered one after
the other, but for those that were skipped. -/
def Consecutive (base : ℕ) (slot : Slot) (drafted : List HandshakeMessage) : Prop :=
  ∃ front skipped back, l.Numbering base slot drafted front skipped back

end Defs

variable {l l' : Ledger} {base : ℕ} {slot other : Slot} {drafted front skipped back : List HandshakeMessage}
  {m : HandshakeMessage} {p : Packet}

theorem messages_getElem? (l : Ledger) (slot : Slot) (j : ℕ) :
    (l.messages slot)[j]? = ((l.held slot).messages[j]?).map (·.message) := getElem?_map

theorem mem_unflown : m ∈ l.unflown slot ↔ m ∈ l.messages slot ∧ m.sequence ∉ l.numbers := by
  simp [unflown]

theorem messages_congr (same : l'.held slot = l.held slot) : l'.messages slot = l.messages slot :=
  congrArg (fun f => f.messages.map (·.message)) same

theorem unflown_congr (same : l'.held slot = l.held slot) (flown : l'.flown = l.flown) :
    l'.unflown slot = l.unflown slot := by
  unfold unflown numbers
  rw [messages_congr same, flown]

theorem Numbering.sequence_lt (numbering : l.Numbering base slot drafted front skipped back)
    (sent : m ∈ front ++ back) : m.sequence < base + (front ++ skipped ++ back).length := by
  have listed : m ∈ front ++ skipped ++ back := by
    simp only [mem_append] at sent ⊢
    tauto
  have mapped := mem_map_of_mem (f := (·.sequence)) listed
  rw [numbering.enumerated.numbers, mem_range'_1] at mapped
  exact mapped.2

/-! ## Sending a record -/

theorem numbers_send (cut : ∃ start size, m.fragment start size = .ok p.body) (small : m.sequence < 65536) :
    (l.send p).numbers = m.sequence :: l.numbers := by
  obtain ⟨start, size, cut⟩ := cut
  exact congrArg (· :: l.numbers) (messageNumber_of_fragment cut small)

theorem unflown_send (sent : (l.send p).numbers = m.sequence :: l.numbers) (slot : Slot) :
    (l.send p).unflown slot = (l.unflown slot).filter fun other => other.sequence ≠ m.sequence := by
  unfold unflown
  rw [sent, filter_filter]
  refine filter_congr fun other _ => ?_
  simp [not_or]

/-- Another record of a message of which one was sent before. -/
theorem Numbering.resend (numbering : l.Numbering base slot drafted front skipped back) (sent : m ∈ front ++ back)
    (cut : ∃ start size, m.fragment start size = .ok p.body) (flown : m.sequence ∈ l.numbers) :
    (l.send p).Numbering base slot drafted front skipped back := by
  have below := numbering.sequence_lt sent
  have small : m.sequence < 65536 := by
    have := numbering.counter
    have := numbering.bounded
    omega
  have numbers := numbers_send (l := l) cut small
  have unflown : ∀ slot, (l.send p).unflown slot = l.unflown slot := by
    intro slot
    rw [unflown_send numbers, filter_eq_self]
    intro other listed
    simp only [decide_eq_true_eq]
    exact fun same => (mem_unflown.mp listed).2 (same ▸ flown)
  have known : ∀ n, n ∈ (l.send p).numbers ↔ n ∈ l.numbers := by
    intro n
    rw [numbers, mem_cons, or_iff_right_iff_imp]
    rintro rfl
    exact flown
  exact
    { numbering with
      enumerated :=
        { numbering.enumerated with
          order := by
            unfold firstNumbers
            rw [numbers, dedup_cons_of_mem flown]
            exact numbering.enumerated.order
          carried := forall_mem_cons.mpr ⟨⟨m, sent, cut⟩, numbering.enumerated.carried⟩ }
      aboard :=
        { numbering.aboard with
          known := fun other m listed given => numbering.aboard.known other m listed ((known _).mp given)
          settled := fun other away => (unflown other).trans (numbering.aboard.settled other away)
          noted := fun other m listed begun => (known _).mpr (numbering.aboard.noted other m listed begun) }
      pending := unflown slot ▸ numbering.pending
      counter := unflown slot ▸ numbering.counter
      place := unflown slot ▸ numbering.place
      typed := unflown slot ▸ numbering.typed
      tail := unflown .outbound ▸ numbering.tail }

/-- The first record of the next message that waits. -/
theorem Numbering.launch (numbering : l.Numbering base slot drafted front skipped back)
    {rest : List HandshakeMessage} (first : l.unflown slot = m :: rest)
    (cut : ∃ start size, m.fragment start size = .ok p.body) :
    ∃ front' back', (l.send p).Numbering base slot drafted front' skipped back' := by
  have pending := numbering.pending
  have counter := numbering.counter
  have bounded := numbering.bounded
  have typed := numbering.typed m (first ▸ mem_append_left _ mem_cons_self)
  rw [first, cons_append, map_cons, length_cons, range'_succ] at pending
  rw [first, cons_append, length_cons] at counter
  obtain ⟨number, later⟩ := List.cons.inj pending
  have apart : ∀ x ∈ rest, x.sequence ≠ m.sequence := by
    intro x listed
    have mapped := mem_map_of_mem (f := (·.sequence)) (mem_append_left drafted listed)
    rw [later, mem_range'_1] at mapped
    omega
  have numbers := numbers_send (l := l) cut (by omega)
  have unsent : m.sequence ∉ l.numbers := (mem_unflown.mp (first ▸ mem_cons_self)).2
  have unflown : (l.send p).unflown slot = rest := by
    rw [unflown_send numbers, first, filter_cons_of_neg (by simp), filter_eq_self]
    simpa using apart
  -- whichever list takes the message, it becomes the last of those sent
  have extend : ∀ front' back', front' ++ skipped ++ back' = front ++ skipped ++ back ++ [m] →
      front' ++ back' = front ++ back ++ [m] → (∀ m ∈ front' ++ skipped, m.isPost = false) →
      (∀ m ∈ back', m.isPost = true) → (slot = .outbound → front' = front ++ [m] ∧ back' = []) →
      (slot ≠ .outbound → front' = front) → (l.send p).Numbering base slot drafted front' skipped back' := by
    intro front' back' all sent early late outbound post
    have length : (front' ++ skipped ++ back').length = (front ++ skipped ++ back).length + 1 := by
      rw [all, length_append, length_singleton]
    have mono : ∀ x ∈ front ++ back, x ∈ front' ++ back' := fun x listed => sent ▸ mem_append_left _ listed
    have last : m ∈ front' ++ back' := sent ▸ mem_append_right _ (mem_singleton_self m)
    have opened : slot ≠ .outbound → l.complete = true ∧ front' ≠ [] := fun away => post away ▸ numbering.opened away
    have away : back' ≠ [] → slot ≠ .outbound := fun some here => some (outbound here).2
    refine ⟨⟨?_, ?_, ?_, early, late, numbering.enumerated.gap, fun skips => ?_, fun some => (opened (away some)).2,
      numbering.enumerated.side⟩, ⟨?_, ?_, numbering.aboard.accounted, ?_⟩, ?_, ?_,
      bounded, ?_, ?_, fun waits => ?_, opened, fun some => (opened (away some)).1, numbering.passed⟩
    · rw [length, all, map_append, numbering.enumerated.numbers, range'_concat, Nat.one_mul,
        ← number]
      rfl
    · unfold firstNumbers
      rw [numbers, dedup_cons_of_notMem unsent, reverse_cons, sent, map_append]
      exact congrArg (· ++ [m.sequence]) numbering.enumerated.order
    · refine forall_mem_cons.mpr ⟨⟨m, last, cut⟩, fun p listed => ?_⟩
      obtain ⟨x, listed, cut⟩ := numbering.enumerated.carried p listed
      exact ⟨x, mono x listed, cut⟩
    · have away : slot ≠ .outbound := fun here => skips (numbering.place here (by simp [first])).1
      rw [post away]
      exact numbering.enumerated.answered skips
    · intro other x listed given
      rw [numbers] at given
      by_cases before : x.sequence ∈ l.numbers
      · exact mono x (numbering.aboard.known other x listed before)
      have waits : x ∈ l.unflown other := mem_unflown.mpr ⟨listed, before⟩
      by_cases here : other = slot
      · subst here
        rw [first, mem_cons] at waits
        obtain rfl | waits := waits
        · exact last
        · exact absurd ((mem_cons.mp given).resolve_right before) (apart x waits)
      · rw [numbering.aboard.settled other here] at waits
        exact absurd waits not_mem_nil
    · intro other away
      rw [unflown_send numbers, numbering.aboard.settled other away]
      rfl
    · intro other x listed begun
      exact numbers ▸ mem_cons_of_mem _ (numbering.aboard.noted other x listed begun)
    · rw [unflown, later, length, Nat.add_assoc]
    · rw [unflown, length]
      show l.sequence = _
      omega
    · intro here _
      obtain ⟨none, -⟩ := numbering.place here (by simp [first])
      exact ⟨none, (outbound here).2⟩
    · intro x listed
      rw [unflown] at listed
      exact numbering.typed x (first ▸ mem_cons_of_mem m listed)
    · by_cases here : slot = .outbound
      · subst here
        obtain ⟨before, ⟨earlier, rfl⟩, split⟩ := numbering.tail (by simp [first])
        refine ⟨before ++ [m], ⟨earlier, by rw [(outbound rfl).1, append_assoc]⟩, ?_⟩
        rw [unflown, append_assoc, singleton_append, ← first]
        exact split
      · rw [unflown_send numbers, numbering.aboard.settled .outbound (Ne.symm here)] at waits
        exact absurd rfl waits
  by_cases here : slot = .outbound
  · obtain ⟨rfl, rfl⟩ := numbering.place here (by simp [first])
    refine ⟨front ++ [m], [], extend _ _ (by simp) (by simp) (fun x listed => ?_) nofun (fun _ => ⟨rfl, rfl⟩)
      (absurd here)⟩
    rw [append_nil, mem_append, mem_singleton] at listed
    obtain listed | rfl := listed
    · exact numbering.enumerated.early x (mem_append_left _ listed)
    · simpa [here] using typed
  · refine ⟨front, back ++ [m], extend _ _ (by simp) (by simp) numbering.enumerated.early (fun x listed => ?_)
      (fun outbound => absurd outbound here) fun _ => rfl⟩
    rw [mem_append, mem_singleton] at listed
    obtain listed | rfl := listed
    · exact numbering.enumerated.late x listed
    · simpa [here] using typed

/-! ## Changing flights -/

/-- One slot gets another flight. -/
theorem Aboard.replace {slot' changed : Slot} {sent : List HandshakeMessage} (aboard : l.Aboard slot sent)
    (flown : l'.flown = l.flown) (others : ∀ other ≠ changed, l'.held other = l.held other)
    (known : ∀ m ∈ l'.messages changed, m.sequence ∈ l.numbers → m ∈ sent)
    (settled : ∀ other ≠ slot', l'.unflown other = []) (accounted : (l'.held changed).Accounted)
    (noted : ∀ m ∈ (l'.held changed).messages, m.Begun → m.message.sequence ∈ l.numbers) : l'.Aboard slot' sent := by
  have numbers : l'.numbers = l.numbers := congrArg (List.map Packet.messageNumber) flown
  refine ⟨fun other => ?_, settled, fun other => ?_, fun other => ?_⟩ <;> by_cases here : other = changed
  · rw [here, numbers]
    exact known
  · rw [messages_congr (others other here), numbers]
    exact aboard.known other
  · rw [here]
    exact accounted
  · rw [others other here]
    exact aboard.accounted other
  · rw [here, numbers]
    exact noted
  · rw [others other here, numbers]
    exact aboard.noted other

/-- Other flights, with the same messages waiting or drafted. -/
theorem Numbering.refit (numbering : l.Numbering base slot drafted front skipped back) {held : Slot → Flight}
    {drafted' : List HandshakeMessage} (aboard : (l.refit held).Aboard slot (front ++ back))
    (same : (l.refit held).unflown slot ++ drafted' = l.unflown slot ++ drafted)
    (tail : (l.refit held).unflown .outbound ≠ [] → ∃ sent, sent <:+ front ∧
      (l.refit held).messages .outbound = sent ++ (l.refit held).unflown .outbound) :
    (l.refit held).Numbering base slot drafted' front skipped back :=
  { numbering with
    enumerated := { numbering.enumerated with }
    aboard
    pending := same ▸ numbering.pending
    counter := same ▸ numbering.counter
    place := same ▸ numbering.place
    typed := same ▸ numbering.typed
    tail }

/-- One flight is exchanged. -/
def exchange (l : Ledger) (slot : Slot) (f : Flight) : Ledger := l.refit (Function.update l.held slot f)

theorem held_exchange (f : Flight) : (l.exchange slot f).held slot = f := Function.update_self ..

theorem held_exchange_of_ne (f : Flight) (away : other ≠ slot) : (l.exchange slot f).held other = l.held other :=
  Function.update_of_ne away _ _

theorem unflown_exchange_of_ne (f : Flight) (away : other ≠ slot) :
    (l.exchange slot f).unflown other = l.unflown other := unflown_congr (held_exchange_of_ne f away) rfl

/-- The flight in `other` is exchanged for one that accounts for the same messages, or for none when none waits. -/
theorem Numbering.exchange (numbering : l.Numbering base slot drafted front skipped back) (accounted : f.Accounted)
    (messages : f.messages.map (·.message) = l.messages other ∨ f.messages = [] ∧ l.unflown other = [])
    (noted : ∀ m ∈ f.messages, m.Begun → m.message.sequence ∈ l.numbers) :
    (l.exchange other f).Numbering base slot drafted front skipped back := by
  have listed : (l.exchange other f).messages other = f.messages.map (·.message) := by
    unfold Ledger.messages
    rw [held_exchange]
  have unflown : ∀ x, (l.exchange other f).unflown x = l.unflown x := by
    intro x
    by_cases here : x = other
    · subst here
      unfold Ledger.unflown
      rw [listed]
      obtain same | ⟨none, waits⟩ := messages
      · rw [same]
        rfl
      · rw [none]
        exact waits.symm
    · exact unflown_exchange_of_ne f here
  have aboard : (l.exchange other f).Aboard slot (front ++ back) := by
    refine numbering.aboard.replace rfl (fun _ => held_exchange_of_ne f) (fun m mem sent => ?_)
      (fun x away => (unflown x).trans (numbering.aboard.settled x away)) ?_ ?_
    · rw [listed] at mem
      obtain same | ⟨none, -⟩ := messages
      · exact numbering.aboard.known other m (same ▸ mem) sent
      · rw [none] at mem
        exact absurd mem not_mem_nil
    · rw [held_exchange]
      exact accounted
    · rw [held_exchange]
      exact noted
  refine numbering.refit aboard (congrArg (· ++ drafted) (unflown slot)) fun waits => ?_
  rw [show (l.refit _).unflown .outbound = _ from unflown .outbound] at waits ⊢
  by_cases here : Slot.outbound = other
  · subst here
    obtain same | ⟨-, none⟩ := messages
    · rw [show (l.refit _).messages .outbound = _ from listed.trans same]
      exact numbering.tail waits
    · exact absurd none waits
  · rw [show (l.refit _).messages .outbound = _ from messages_congr (held_exchange_of_ne f here)]
    exact numbering.tail waits

/-! ## Transmissions -/

/-- A record of each of the first `n` messages in a slot was sent. -/
def Launched (l : Ledger) (slot : Slot) (n : ℕ) : Prop := ∀ m ∈ (l.messages slot).take n, m.sequence ∈ l.numbers

/-- What a transmission keeps: where the handshake stands and the messages; and it only sends more. -/
structure Follows (l l' : Ledger) : Prop where
  client : l'.client = l.client
  complete : l'.complete = l.complete
  phase : l'.phase = l.phase
  messages : ∀ slot, l'.messages slot = l.messages slot
  numbers : ∀ n ∈ l.numbers, n ∈ l'.numbers

theorem Follows.refl (l : Ledger) : l.Follows l := ⟨rfl, rfl, rfl, fun _ => rfl, fun _ => id⟩

theorem Follows.trans {l'' : Ledger} (first : l.Follows l') (second : l'.Follows l'') : l.Follows l'' :=
  ⟨second.client.trans first.client, second.complete.trans first.complete, second.phase.trans first.phase,
    fun slot => (second.messages slot).trans (first.messages slot),
      fun n sent => second.numbers n (first.numbers n sent)⟩

/-- A flight is exchanged for one of the same messages. -/
theorem Follows.exchange (messages : f.messages.map (·.message) = l.messages slot) : l.Follows (l.exchange slot f) := by
  refine ⟨rfl, rfl, rfl, fun other => ?_, fun _ => id⟩
  by_cases here : other = slot
  · subst here
    rw [← messages, Ledger.messages, held_exchange]
  · rw [Ledger.messages, held_exchange_of_ne _ here, Ledger.messages]

theorem Follows.launched (follows : l.Follows l') {n : ℕ} (launched : l.Launched slot n) : l'.Launched slot n :=
  fun m listed => follows.numbers _ (launched m (follows.messages slot ▸ listed))

theorem Follows.unflown (follows : l.Follows l') (none : l.unflown slot = []) : l'.unflown slot = [] := by
  rw [eq_nil_iff_forall_not_mem] at none ⊢
  intro m waits
  obtain ⟨listed, unsent⟩ := mem_unflown.mp waits
  exact none m (mem_unflown.mpr ⟨follows.messages slot ▸ listed, fun sent => unsent (follows.numbers _ sent)⟩)

/-- A record is waiting for its acknowledgement if and only if one was sent. -/
def Witnessed (l : Ledger) (slot : Slot) : Prop :=
  (∃ m ∈ l.messages slot, m.sequence ∈ l.numbers) ↔ (l.held slot).sent.entries ≠ []

/-- A transmission of the flight in `other` that began in `l` has come to `l'`. -/
structure Underway (base : ℕ) (slot other : Slot) (l l' : Ledger) : Prop where
  numbering : l'.Consecutive base slot []
  follows : l.Follows l'
  witnessed : l.Witnessed other → l'.Witnessed other

theorem Underway.refl (numbering : l.Consecutive base slot []) : Underway base slot other l l :=
  ⟨numbering, .refl l, id⟩

theorem Underway.trans {l'' : Ledger} (first : Underway base slot other l l')
    (second : Underway base slot other l' l'') : Underway base slot other l l'' :=
  ⟨second.numbering, first.follows.trans second.follows, fun before => second.witnessed (first.witnessed before)⟩

theorem Launched.succ {n : ℕ} (launched : l.Launched slot n)
    (next : ∀ m, (l.messages slot)[n]? = some m → m.sequence ∈ l.numbers) : l.Launched slot (n + 1) := by
  intro m listed
  rw [take_add_one, mem_append, Option.mem_toList] at listed
  exact listed.elim (launched m) (next m)

private theorem record_messages (f : Flight) (now : Time) (onlyNew : Bool) (index start stop : ℕ)
    (number : RecordNumber) :
    (f.record now onlyNew index start stop number).messages.map (·.message) = f.messages.map (·.message) := by
  refine ext_getElem? fun i => ?_
  rw [getElem?_map, getElem?_map, Flight.record_getElem?]
  split_ifs
  · rw [Option.map_map]
    congr 1
    funext m
    exact noteSent_message m onlyNew start stop
  · rfl

variable {index start stop : ℕ} {onlyNew : Bool} {capacity : ℕ} {out : OutboundMessage}

/-- Where everything ahead of a message was sent, it is the first that waits. -/
theorem Launched.unflown (launched : l.Launched slot index)
    (found : (l.held slot).messages[index]? = some out) (unsent : out.message.sequence ∉ l.numbers) :
    ∃ rest, l.unflown slot = out.message :: rest := by
  have split := take_append_drop index (l.messages slot)
  rw [drop_eq_getElem?_toList_append, messages_getElem?, found] at split
  have ahead : (List.take index (l.messages slot)).filter (fun m => m.sequence ∉ l.numbers) = [] := by
    rw [filter_eq_nil_iff]
    intro m taken
    simpa using launched m taken
  refine ⟨((l.messages slot).drop (index + 1)).filter fun m => m.sequence ∉ l.numbers, ?_⟩
  unfold Ledger.unflown
  conv_lhs => rw [← split]
  rw [filter_append, ahead]
  simp [unsent]

/-- One more record of the flight, of its next message at the most. -/
theorem Underway.send (under : Underway base slot other l l') (launched : l'.Launched other index)
    (found : (l'.held other).messages[index]? = some out)
    (cut : ∃ start size, out.message.fragment start size = .ok p.body) :
    (l'.send p).Consecutive base slot [] ∧ l'.Follows (l'.send p) ∧ out.message.sequence ∈ (l'.send p).numbers := by
  obtain ⟨front, skipped, back, numbering⟩ := under.numbering
  have counter := numbering.counter
  have bounded := numbering.bounded
  have member : out.message ∈ l'.messages other := mem_map_of_mem (mem_of_getElem? found)
  have grows : (l'.send p).numbers = out.message.sequence :: l'.numbers → l'.Follows (l'.send p) ∧
      out.message.sequence ∈ (l'.send p).numbers := fun numbers =>
    ⟨⟨rfl, rfl, rfl, fun _ => rfl, fun n sent => numbers ▸ mem_cons_of_mem _ sent⟩, numbers ▸ mem_cons_self⟩
  by_cases flown : out.message.sequence ∈ l'.numbers
  · have sent := numbering.aboard.known other _ member flown
    have below := numbering.sequence_lt sent
    exact ⟨⟨front, skipped, back, numbering.resend sent cut flown⟩, grows (numbers_send cut (by omega))⟩
  · have waits : out.message ∈ l'.unflown other := mem_unflown.mpr ⟨member, flown⟩
    obtain rfl : other = slot := by
      by_contra away
      rw [numbering.aboard.settled other away] at waits
      exact not_mem_nil waits
    obtain ⟨rest, first⟩ := launched.unflown found flown
    have pending := numbering.pending
    rw [first, append_nil, map_cons, length_cons, range'_succ] at pending
    rw [first, append_nil, length_cons] at counter
    have number := (List.cons.inj pending).1
    obtain ⟨front', back', launched⟩ := numbering.launch first cut
    exact ⟨⟨front', skipped, back', launched⟩, grows (numbers_send cut (by omega))⟩

theorem witnessed_of_sent (listed : m ∈ l.messages slot) (sent : m.sequence ∈ l.numbers)
    (recorded : (l.held slot).sent.entries ≠ []) : l.Witnessed slot := ⟨fun _ => recorded, fun _ => ⟨m, listed, sent⟩⟩

/-- The record is noted in its flight. -/
theorem Underway.record (under : Underway base slot other l l') (now : Time) (number : RecordNumber)
    (launched : l'.Launched other index) (found : (l'.held other).messages[index]? = some out)
    (sendable : out.Sendable onlyNew capacity start stop)
    (cut : ∃ start size, out.message.fragment start size = .ok p.body) :
    Underway base slot other l
      ((l'.send p).exchange other ((l'.held other).record now onlyNew index start stop number)) ∧
      out.message.sequence ∈ (l'.send p).numbers := by
  obtain ⟨⟨front, skipped, back, numbering⟩, follows, flown⟩ := under.send launched found cut
  have messages : ((l'.held other).record now onlyNew index start stop number).messages.map (·.message) =
      (l'.send p).messages other := record_messages ..
  have accounted : (l'.held other).Accounted := numbering.aboard.accounted other
  have exchanged := numbering.exchange (accounted.record found sendable) (.inl messages) (by
    intro x listed begun
    obtain ⟨i, here⟩ := mem_iff_getElem?.mp listed
    rw [Flight.record_getElem?] at here
    split_ifs at here with same
    · subst same
      rw [found] at here
      cases here
      rwa [noteSent_message]
    · exact numbering.aboard.noted other x (mem_of_getElem? here) begun)
  have kept := Follows.exchange messages
  refine ⟨⟨⟨front, skipped, back, exchanged⟩, under.follows.trans (follows.trans kept), fun _ => ?_⟩, flown⟩
  refine witnessed_of_sent (m := out.message) ?_ flown ?_
  · rw [kept.messages]
    exact mem_map_of_mem (mem_of_getElem? found)
  · rw [held_exchange]
    intro empty
    have listed : number ∈ ((l'.held other).record now onlyNew index start stop number).sent :=
      (AList.mem_insert _).mpr (.inl rfl)
    rw [AList.mem_keys, AList.keys, empty] at listed
    exact not_mem_nil listed

/-- The flight is changed in other fields than its messages and records. -/
theorem Underway.touch (under : Underway base slot other l l') {g : Flight}
    (messages : g.messages = (l'.held other).messages) (sent : g.sent = (l'.held other).sent)
    (accounted : (l'.held other).Accounted → g.Accounted) : Underway base slot other l (l'.exchange other g) := by
  obtain ⟨front, skipped, back, numbering⟩ := under.numbering
  have listed : g.messages.map (·.message) = l'.messages other := congrArg (map (·.message)) messages
  have exchanged := numbering.exchange (accounted (numbering.aboard.accounted other)) (.inl listed)
    (messages ▸ numbering.aboard.noted other)
  have kept := Follows.exchange listed
  refine ⟨⟨front, skipped, back, exchanged⟩, under.follows.trans kept, fun before => ?_⟩
  have witnessed := under.witnessed before
  unfold Witnessed at witnessed ⊢
  rwa [kept.messages, held_exchange, sent]

end Ledger

/-! ## The records of a transmission -/

theorem ledger_setFlight (w : World) (f : Option Flight) (slot : Slot) :
    ({ w with session := w.session.setFlight f slot } : World).ledger =
      w.ledger.exchange slot (f.getD default) := by
  have held : (fun other => ((w.session.setFlight f slot).flight other).getD default) =
      Function.update w.ledger.held slot (f.getD default) := by
    rw [flight_setFlight]
    exact funext fun other => Function.apply_update (fun _ flight => Option.getD flight default) ..
  cases slot <;> exact congrArg w.ledger.refit held

theorem ledger_store {slot : Slot} {w : World} (present : w.session.flight slot = some f) (g : Flight) :
    (slot.ref.store g w).ledger = w.ledger.exchange slot g := by
  rw [Slot.store_of_present present]
  exact ledger_setFlight w (some g) slot

private theorem present_of_found {slot : Slot} {w : World} {index : ℕ} {out : OutboundMessage}
    (found : (slot.ref.load w).messages[index]? = some out) : ∃ f, w.session.flight slot = some f := by
  cases present : w.session.flight slot with
  | none => simp [Slot.ref, present, default] at found
  | some f => exact ⟨f, rfl⟩

private theorem ledger_deliver {w : World} {p : Packet} (handshake : p.typ = contentHandshake) (e : WriteEpoch)
    (env : Env) :
    ({ (w.hand p e).deliver p with env } : World).ledger = w.ledger.send p := by
  have flown : ({ (w.hand p e).deliver p with env } : World).flown = p :: w.flown :=
    filter_cons_of_pos (by simp [handshake])
  unfold World.ledger
  rw [flown]
  rfl

open Ledger

variable {base : ℕ} {slot other : Slot} {l : Ledger} {w w' : World}

theorem store_underway (under : Underway base slot other l w.ledger) {g : Flight}
    (messages : g.messages = (other.ref.load w).messages) (sent : g.sent = (other.ref.load w).sent)
    (accounted : (other.ref.load w).Accounted → g.Accounted) :
    Underway base slot other l (other.ref.store g w).ledger := by
  cases present : w.session.flight other with
  | none => rwa [endpoint_store_absent other g w present]
  | some f =>
    rw [ledger_store present]
    exact under.touch messages sent accounted

/-- Of messages without anything left to send for the first time records were sent. -/
theorem launched_of_sentUpTo (consecutive : w.ledger.Consecutive base slot []) {n : ℕ}
    (sent : (other.ref.load w).SentUpTo n) : w.ledger.Launched other n := by
  intro m listed
  obtain ⟨front, skipped, back, numbering⟩ := consecutive
  obtain ⟨j, found⟩ := mem_iff_getElem?.mp listed
  rw [getElem?_take] at found
  split_ifs at found with below
  rw [messages_getElem?, Option.map_eq_some_iff] at found
  obtain ⟨out, found, rfl⟩ := found
  have books := (numbering.aboard.accounted other).messages j out found
  exact numbering.aboard.noted other out (mem_of_getElem? found) (begun_of_allSent books (sent j below out found))

variable {now : Time} {onlyNew : Bool} {capacity : ℕ} {part : Part}

variable [Crypto]

theorem sendHandshake_ledger (epoch : ℕ) (body : Bytes) (w : World) : Ends (sendHandshake epoch body) w
    (fun number w' => ∃ p : Packet, p.number = number ∧ number.epoch = epoch ∧ p.body = body ∧
      w'.ledger = w.ledger.send p)
    (fun _ w' => w'.ledger = w.ledger) :=
  sendRecord_ends (fun _ => rfl) (fun _ _ _ _ _ _ _ _ => rfl) fun p e env _ epoch handshake carried =>
    ⟨p, rfl, epoch, carried, ledger_deliver handshake e env⟩

/-- After one more record, one was sent of its message and of each message ahead of it. -/
private theorem sent_underway (consecutive : w.ledger.Consecutive base slot [])
    (sent : (other.sender now capacity).Sent onlyNew w part w') :
    Underway base slot other w.ledger w'.ledger ∧ w'.ledger.Launched other (part.index + 1) := by
  cases sent with
  | @mk call number w₁ carries sent =>
    obtain ⟨found, sendable, ahead, cut⟩ := carries
    have launched := launched_of_sentUpTo consecutive ahead
    obtain ⟨p, rfl, -, body, ledger⟩ := (sendHandshake_ledger _ _ w).ok sent
    have loaded : other.ref.load w₁ = w.ledger.held other := congrArg (·.held other) ledger
    obtain ⟨recorded, flown⟩ :=
      (Underway.refl consecutive).record now p.number launched found sendable
        ⟨_, _, cut.trans (congrArg Except.ok body.symm)⟩
    have stored : (other.ref.store ((other.ref.load w₁).record now onlyNew part.index part.start part.stop
        p.number) w₁).ledger = (w.ledger.send p).exchange other
          ((w.ledger.held other).record now onlyNew part.index part.start part.stop p.number) := by
      obtain ⟨f, present⟩ := present_of_found (w := w₁) (by rw [loaded]; exact found)
      rw [ledger_store present, ledger, loaded]
    rw [← stored] at recorded
    refine ⟨recorded, (recorded.follows.launched launched).succ fun m listed => ?_⟩
    rw [recorded.follows.messages, messages_getElem?] at listed
    cases listed.symm.trans (congrArg (Option.map _) found)
    exact stored ▸ flown

/-- A burst that sent anything sent a record of the first message. -/
theorem burst_underway {parts : List Part} (burst : (other.sender now capacity).Burst onlyNew w parts w')
    (consecutive : w.ledger.Consecutive base slot []) : Underway base slot other w.ledger w'.ledger ∧
      (parts ≠ [] → w'.ledger.Launched other 1) := by
  induction burst with
  | nil w => exact ⟨.refl consecutive, fun some => absurd rfl some⟩
  | cons sent _ ih =>
    obtain ⟨first, launched⟩ := sent_underway consecutive sent
    obtain ⟨rest, -⟩ := ih first.numbering
    refine ⟨first.trans rest, fun _ => rest.follows.launched fun m listed => ?_⟩
    exact launched m (take_subset_take_left _ (Nat.le_add_left 1 _) listed)

private theorem failed_underway (consecutive : w.ledger.Consecutive base slot [])
    (failed : (other.sender now capacity).Failed onlyNew w w') : Underway base slot other w.ledger w'.ledger := by
  cases failed with
  | uncalled => exact .refl consecutive
  | refused _ failed =>
    rw [(sendHandshake_ledger _ _ w).error failed]
    exact .refl consecutive
  | @unrecorded part call number _ carries sent unusable =>
    obtain ⟨found, -, ahead, cut⟩ := carries
    obtain ⟨p, rfl, epoch, body, ledger⟩ := (sendHandshake_ledger _ _ w).ok sent
    obtain ⟨numbering, follows, flown⟩ :=
      (Underway.refl consecutive).send (launched_of_sentUpTo consecutive ahead) found
        ⟨_, _, cut.trans (congrArg Except.ok body.symm)⟩
    have used := unusable.resolve_left (not_not.mpr epoch)
    rw [show (other.sender now capacity).flight w' = other.ref.load w from
      ((other.sender now capacity).kept _ _ w).ok sent] at used
    rw [ledger]
    refine ⟨numbering, follows, fun _ => ?_⟩
    refine witnessed_of_sent (mem_map_of_mem (mem_of_getElem? found)) flown fun empty => ?_
    have listed := AList.mem_keys.mp used
    rw [AList.keys, show (other.ref.load w).sent.entries = [] from empty] at listed
    exact not_mem_nil listed

private theorem stopped_underway {count : ℕ} (consecutive : w.ledger.Consecutive base slot [])
    (stopped : (other.sender now capacity).Stopped onlyNew w count w') :
    Underway base slot other w.ledger w'.ledger := by
  obtain ⟨parts, mid, burst, -, failed⟩ := stopped
  have before := (burst_underway burst consecutive).1
  exact before.trans (failed_underway before.numbering failed)

/-- A transmission that returns has sent something of the first message. -/
private theorem flightTransmit_underway (consecutive : w.ledger.Consecutive base slot []) (now : Time) (capacity : ℕ) :
    Ends (other.ref.transmit now capacity sendHandshake) w
      (fun _ w' => Underway base slot other w.ledger w'.ledger ∧ w'.ledger.Launched other 1)
      (fun _ w' => Underway base slot other w.ledger w'.ledger) := by
  have accounted : (other.ref.load w).Accounted := by
    obtain ⟨_, _, _, numbering⟩ := consecutive
    exact numbering.aboard.accounted other
  have arms : ∀ {w' : World}, Underway base slot other w.ledger w'.ledger ∧ w'.ledger.Launched other 1 →
      Underway base slot other w.ledger ((other.sender now capacity).arm w').ledger ∧
        ((other.sender now capacity).arm w').ledger.Launched other 1 := by
    rintro w' ⟨under, launched⟩
    have armed : Underway base slot other w'.ledger ((other.sender now capacity).arm w').ledger :=
      store_underway (.refl under.numbering) rfl rfl fun accounted => Sender.armed_accounted accounted now
    exact ⟨under.trans armed, armed.follows.launched launched⟩
  refine ((other.sender now capacity).transmit_ends accounted).mono (fun _ w' transmitted => ?_) fun _ w' aborted => ?_
  · cases transmitted with
    | complete complete =>
      refine ⟨.refl consecutive, fun m listed => ?_⟩
      rw [messages, show (w.ledger.held other).messages = [] from accounted.finished complete] at listed
      exact absurd listed not_mem_nil
    | new burst some _ _ =>
      obtain ⟨under, launched⟩ := burst_underway burst consecutive
      exact arms ⟨under, launched some⟩
    | again left burst _ =>
      obtain ⟨under, -⟩ := burst_underway burst consecutive
      refine arms ⟨under, under.follows.launched (launched_of_sentUpTo consecutive fun j _ m found => ?_)⟩
      exact accounted.allSent_iff.mpr left m (mem_of_getElem? found)
  · cases aborted with
    | refused => exact .refl consecutive
    | new stopped => exact stopped_underway consecutive stopped
    | again _ stopped => exact stopped_underway consecutive stopped

/-- Every round of the loop continues where the last one failed. -/
private theorem transmitLoop_underway (now : Time) (fuel : ℕ) (consecutive : w.ledger.Consecutive base slot []) :
    Ends (transmitLoop other now fuel) w
      (fun _ w' => Underway base slot other w.ledger w'.ledger ∧ w'.ledger.Launched other 1)
      (fun _ w' => Underway base slot other w.ledger w'.ledger) := by
  induction fuel generalizing w with
  | zero => exact .refl consecutive
  | succ fuel ih =>
    unfold transmitLoop
    rw [ends_session, ends_bind, ends_attempt]
    apply (flightTransmit_underway consecutive now _).mono
    · intro _ w' sent
      rw [ends_session]
      dsimp only
      apply (respects_runIf (silent_of_quiet sendACK_quiet) w').mono
      · intro _ w'' silent
        rw [show w''.ledger = w'.ledger from silent]
        exact sent
      · intro _ w'' silent
        rw [show w''.ledger = w'.ledger from silent]
        exact sent.1
    · intro e w' failed
      rw [ends_session]
      dsimp only
      rw [ends_ite]
      split_ifs
      · have only := @Session.mtuOnly_reduceHandshakeMTU w'.session w'.session.working.lastSendSize
        split
        · exact failed
        · rename_i reduced done
          rw [done] at only
          rw [ends_bind, ends_modifySession]
          have ledger : ({ w' with session := reduced } : World).ledger = w'.ledger := mtuOnly_silent only
          apply (ih (ledger ▸ failed.numbering)).mono
          · intro _ w'' sent
            rw [ledger] at sent
            exact ⟨failed.trans sent.1, sent.2⟩
          · intro _ w'' failed'
            rw [ledger] at failed'
            exact failed.trans failed'
      · exact failed

theorem transmit_underway (now : Time) (consecutive : w.ledger.Consecutive base slot []) :
    Ends (transmit other now) w
      (fun _ w' => Underway base slot other w.ledger w'.ledger ∧ w'.ledger.Launched other 1)
      (fun _ w' => Underway base slot other w.ledger w'.ledger) := transmitLoop_underway now _ consecutive

end Socat.Dtls13
