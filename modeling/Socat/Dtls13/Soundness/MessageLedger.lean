import Socat.Dtls13.Soundness.FirstTransmissions

/-! # The ledger of the handshake messages

How the numbers of the messages stay in step: an operation takes the next number and gives it back if nothing was
sent, the drafted answer becomes the handshake flight, and a flight that is answered is over. Only there can numbers
be skipped: the messages of an answered flight that were still waiting are never sent.
-/

namespace Socat.Dtls13

open Machine List

variable {slot : Slot} {m : HandshakeMessage} {l' l : Ledger} {response : List HandshakeMessage}

namespace Ledger

variable {l : Ledger} {base : ℕ} {drafted front skipped back : List HandshakeMessage}

/-- Before the other side has answered, nothing of the handshake flight waits behind its first message. -/
def Prompt (l : Ledger) : Prop :=
  l.complete = false → (l.client = true ∨ l.phase = .clientHello) → l.unflown .outbound = []

/-- Between the events of a session. Of a handshake flight something was sent, and so was the first message of all:
a client has said hello, and a server that waits for more than a hello has answered one. -/
structure InStep (base : ℕ) (l : Ledger) : Prop where
  numbering : l.Consecutive base .outbound []
  prompt : l.Prompt
  launched : l.Launched .outbound 1
  begun : l.client = true ∨ l.complete = true ∨ l.phase ≠ .clientHello → l.numbers ≠ []

/-- After every event. -/
def Sound (base : ℕ) (l : Ledger) : Prop := ∃ front skipped back, l.Enumerated base front skipped back

theorem Consecutive.sound (consecutive : l.Consecutive base slot drafted) : l.Sound base := by
  obtain ⟨front, skipped, back, numbering⟩ := consecutive
  exact ⟨front, skipped, back, numbering.enumerated⟩

theorem InStep.sound (inStep : l.InStep base) : l.Sound base := inStep.numbering.sound

theorem Numbering.number_lt (numbering : l.Numbering base slot drafted front skipped back) {n : ℕ}
    (sent : n ∈ l.numbers) : n < base + (front ++ skipped ++ back).length := by
  have first : n ∈ l.firstNumbers := mem_reverse.mpr (mem_dedup.mpr sent)
  rw [numbering.enumerated.order, mem_map] at first
  obtain ⟨m, listed, rfl⟩ := first
  exact numbering.sequence_lt listed

theorem Enumerated.numbers_ne (enumerated : l.Enumerated base front skipped back) (some : front ≠ []) :
    l.numbers ≠ [] := by
  intro none
  have order := enumerated.order
  rw [firstNumbers, none] at order
  simp [some] at order

theorem Enumerated.front_ne (enumerated : l.Enumerated base front skipped back) (some : l.numbers ≠ []) :
    front ≠ [] := by
  rintro rfl
  obtain rfl : back = [] := by_contra fun later => enumerated.headed later rfl
  have order := enumerated.order
  simp [firstNumbers] at order
  exact some order

theorem launched_of_idle (idle : l.unflown slot = []) {n : ℕ} : l.Launched slot n := fun m listed => by
  by_contra unsent
  have waits := mem_unflown.mpr ⟨mem_of_mem_take listed, unsent⟩
  rw [idle] at waits
  exact not_mem_nil waits

/-- Once the first message was sent and none waits, everything is in step. -/
theorem Numbering.settled (numbering : l.Numbering base .outbound [] front skipped back)
    (idle : l.unflown .outbound = []) (some : front ≠ []) : l.InStep base :=
  ⟨⟨front, skipped, back, numbering⟩, fun _ _ => idle, launched_of_idle idle,
    fun _ => numbering.enumerated.numbers_ne some⟩

/-- Once nothing waits in a slot any more, the handshake flight is the one to wait. -/
theorem Numbering.home (numbering : l.Numbering base slot [] front skipped back)
    (none : l.unflown slot = []) : l.Numbering base .outbound [] front skipped back := by
  have settled : ∀ other, l.unflown other = [] := by
    intro other
    by_cases here : other = slot
    · rw [here, none]
    · exact numbering.aboard.settled other here
  have counter := numbering.counter
  rw [none] at counter
  exact
    { numbering with
      aboard := { numbering.aboard with settled := fun other _ => settled other }
      pending := by rw [settled]; rfl
      counter := by rw [settled]; exact counter
      place := fun _ some => absurd (settled .outbound) (by simpa using some)
      typed := by rw [settled]; exact nofun
      tail := fun some => absurd (settled .outbound) some
      opened := fun away => absurd rfl away }

/-- An operation starts: its message takes the next number and waits in a slot of its own. -/
def issue (l : Ledger) (typ : PostType) (f : Flight) : Ledger :=
  { l.exchange (.post typ) f with sequence := l.sequence + 1 }

theorem Numbering.issue (numbering : l.Numbering base .outbound [] front skipped back)
    (idle : l.unflown .outbound = []) (complete : l.complete = true) (headed : front ≠ []) (typ : PostType) {f : Flight}
    (only : f.messages = [.start m]) (accounted : f.Accounted) (unsent : f.sent = ∅)
    (number : m.sequence = l.sequence) (room : l.sequence < 65536) (post : m.isPost = true) :
    (l.issue typ f).Numbering base (.post typ) [] front skipped back ∧ (l.issue typ f).Witnessed (.post typ) := by
  have counter := numbering.counter
  rw [idle, append_nil, length_nil, Nat.add_zero] at counter
  have fresh : m.sequence ∉ l.numbers := fun sent => by
    have := numbering.number_lt sent
    omega
  have held : (l.issue typ f).held (.post typ) = f := held_exchange f
  have others : ∀ other ≠ Slot.post typ, (l.issue typ f).held other = l.held other :=
    fun other => held_exchange_of_ne f
  have messages : (l.issue typ f).messages (.post typ) = [m] := by
    rw [Ledger.messages, held, only]
    rfl
  have waits : (l.issue typ f).unflown (.post typ) = [m] := by
    unfold unflown
    rw [messages]
    exact filter_cons_of_pos (decide_eq_true fresh)
  have aboard : (l.issue typ f).Aboard (.post typ) (front ++ back) := by
    refine numbering.aboard.replace rfl others (fun x listed sent => ?_) (fun other away => ?_) ?_
      (fun x listed begun => ?_)
    · rw [messages, mem_singleton] at listed
      exact absurd (listed ▸ sent) fresh
    · rw [unflown_congr (others other away) rfl]
      by_cases outbound : other = .outbound
      · rw [outbound, idle]
      · exact numbering.aboard.settled other outbound
    · rw [held]
      exact accounted
    · rw [held, only, mem_singleton] at listed
      exact absurd (listed ▸ begun) (start_not_begun m)
  refine ⟨⟨{ numbering.enumerated with }, aboard, ?_, ?_, room, by simp, ?_, fun waits => ?_,
    fun _ => ⟨complete, headed⟩,
    numbering.finished, numbering.passed⟩, ?_⟩
  · rw [waits]
    simp [number, counter]
  · rw [waits]
    show l.sequence + 1 = _
    rw [counter]
    rfl
  · rw [waits]
    simpa using post
  · rw [unflown_congr (others .outbound (by simp)) rfl] at waits
    exact absurd idle waits
  · unfold Witnessed
    rw [messages, held, unsent, show (l.issue typ f).numbers = l.numbers from rfl]
    simpa [AList.entries] using fresh

/-- The message of an operation of which nothing was sent is taken back. -/
def withdraw (l : Ledger) (typ : PostType) : Ledger :=
  { l.exchange (.post typ) default with sequence := l.sequence - 1 }

theorem Numbering.withdraw {typ : PostType} (numbering : l.Numbering base (.post typ) [] front skipped back)
    (waits : l.unflown (.post typ) = [m]) : (l.withdraw typ).InStep base := by
  have held : (l.withdraw typ).held (.post typ) = default := held_exchange _
  have others : ∀ other ≠ Slot.post typ, (l.withdraw typ).held other = l.held other :=
    fun other => held_exchange_of_ne _
  have settled : ∀ other, (l.withdraw typ).unflown other = [] := by
    intro other
    by_cases here : other = .post typ
    · rw [here, unflown, messages, held]
      rfl
    · rw [unflown_congr (others other here) rfl]
      exact numbering.aboard.settled other here
  have counter := numbering.counter
  rw [waits] at counter
  have opened := (numbering.opened (by simp)).2
  refine Numbering.settled ⟨{ numbering.enumerated with }, ?_, ?_, ?_, (Nat.sub_le _ _).trans numbering.bounded, ?_, ?_,
    fun some => absurd (settled .outbound) some, ?_, numbering.finished, numbering.passed⟩ (settled .outbound) opened
  · refine numbering.aboard.replace rfl others ?_ (fun other _ => settled other) ?_ ?_
    · rw [messages, held]
      exact fun _ listed => absurd listed not_mem_nil
    · rw [held]
      exact Flight.default_accounted
    · rw [held]
      exact fun _ listed => absurd listed not_mem_nil
  · rw [settled]
    rfl
  · rw [settled]
    show l.sequence - 1 = _
    rw [counter]
    rfl
  · exact fun _ some => absurd (settled .outbound) (by simpa using some)
  · simp [settled]
  · exact fun away => absurd rfl away

/-- The drafted messages become the handshake flight. -/
theorem Numbering.depart (numbering : l.Numbering base .outbound drafted front skipped back)
    (idle : l.unflown .outbound = []) {f : Flight} (messages : f.messages = drafted.map .start)
    (accounted : f.Accounted) :
    (l.exchange .outbound f).Numbering base .outbound [] front skipped back ∧
      (l.exchange .outbound f).messages .outbound = drafted := by
  have listed : (l.exchange .outbound f).messages .outbound = drafted := by
    rw [Ledger.messages, held_exchange, messages, map_map]
    exact map_id drafted
  have fresh : ∀ m ∈ drafted, m.sequence ∉ l.numbers := by
    intro m listed sent
    have below := numbering.number_lt sent
    have mapped := mem_map_of_mem (f := (·.sequence)) (mem_append_right (l.unflown .outbound) listed)
    rw [numbering.pending, mem_range'_1] at mapped
    omega
  have waits : (l.exchange .outbound f).unflown .outbound = drafted := by
    unfold unflown
    rw [listed, filter_eq_self]
    exact fun m listed => decide_eq_true (fresh m listed)
  have same : (l.exchange .outbound f).unflown .outbound ++ [] = l.unflown .outbound ++ drafted := by
    rw [waits, idle, append_nil, nil_append]
  have aboard : (l.exchange .outbound f).Aboard .outbound (front ++ back) := by
    refine numbering.aboard.replace rfl (fun _ => held_exchange_of_ne f) (fun m mem sent => ?_)
      (fun other away => ?_) ?_ (fun m mem begun => ?_)
    · exact absurd sent (fresh m (listed ▸ mem))
    · rw [unflown_exchange_of_ne f away]
      exact numbering.aboard.settled other away
    · rw [held_exchange]
      exact accounted
    · rw [held_exchange, messages, mem_map] at mem
      obtain ⟨x, -, rfl⟩ := mem
      exact absurd begun (start_not_begun x)
  exact ⟨numbering.refit aboard same fun _ => ⟨[], nil_suffix, listed.trans waits.symm⟩, listed⟩

/-- A handler has taken a message and drafted its answer, and the flight it answers is over. -/
structure Answers (l : Ledger) (response : List HandshakeMessage) (l' : Ledger) : Prop where
  flown : l'.flown = l.flown
  client : l'.client = l.client
  others : ∀ other ≠ Slot.outbound, l'.held other = l.held other
  ended : (l'.held .outbound).messages = []
  accounted : (l'.held .outbound).Accounted
  numbers : response.map (·.sequence) = List.range' l.sequence response.length
  counter : l'.sequence = l.sequence + response.length
  bounded : l'.sequence ≤ 65536
  early : ∀ m ∈ response, m.isPost = false
  once : l.client = false → (response = [] ↔ l.phase ≠ .clientHello)
  answered : ∃ m, l'.answered = (m, l.messages .outbound) :: l.answered
  passed : l.client = false → l'.complete = true ∨ l'.phase ≠ .clientHello

theorem Answers.idle (answers : l.Answers response l') : l'.unflown .outbound = [] := by
  rw [unflown, messages, answers.ended]
  rfl

/-- What still waited is skipped. Only a server that has its answer skips anything, and it drafts nothing then. -/
theorem Answers.numbering (answers : l.Answers response l') (inStep : l.InStep base)
    (incomplete : l.complete = false) :
    l'.Consecutive base .outbound response := by
  obtain ⟨⟨front, skipped, back, numbering⟩, prompt, launched, -⟩ := inStep
  obtain rfl : back = [] := by
    by_contra some
    exact absurd (numbering.finished some) (by simp [incomplete])
  have sent := numbering.enumerated.numbers
  have pending := numbering.pending
  have counter := numbering.counter
  simp only [append_nil] at sent pending counter
  have waits : l.unflown .outbound ≠ [] → l.client = false ∧ response = [] := by
    intro some
    have server : l.client = false ∧ l.phase ≠ .clientHello := by
      by_contra other
      refine some (prompt incomplete ?_)
      cases side : l.client with
      | true => exact .inl rfl
      | false => exact .inr (by_contra fun later => other ⟨side, later⟩)
    exact ⟨server.1, (answers.once server.1).mpr server.2⟩
  have gap : skipped ++ l.unflown .outbound ≠ [] → l.client = false ∧ response = [] := by
    intro some
    by_cases none : l.unflown .outbound = []
    · rw [none, append_nil] at some
      have server := numbering.enumerated.gap some
      exact ⟨server, (answers.once server).mpr ((numbering.passed some).resolve_left (by simp [incomplete]))⟩
    · exact waits none
  have numbers : (front ++ (skipped ++ l.unflown .outbound)).map (·.sequence) =
      List.range' base (front ++ (skipped ++ l.unflown .outbound)).length := by
    rw [← append_assoc, map_append, sent, pending, range'_append_1, ← length_append]
  have reached : l.sequence = base + (front ++ (skipped ++ l.unflown .outbound)).length := by
    rw [counter, ← append_assoc]
    simp only [length_append]
    omega
  have first : l'.firstNumbers = l.firstNumbers := by
    unfold firstNumbers Ledger.numbers
    rw [answers.flown]
  refine ⟨front, skipped ++ l.unflown .outbound, [], ⟨?_, ?_, ?_, ?_, by simp, ?_, fun some => ?_, by simp,
    answers.client.trans numbering.enumerated.side⟩, ?_, ?_, ?_, answers.bounded, ?_, ?_,
    fun waits => absurd answers.idle waits, fun away => absurd rfl away, by simp,
      fun some => answers.passed (gap some).1⟩
  · simpa only [append_nil] using numbers
  · rw [first]
    exact numbering.enumerated.order
  · rw [answers.flown]
    exact numbering.enumerated.carried
  · intro m listed
    rw [← append_assoc, mem_append] at listed
    obtain listed | listed := listed
    · exact numbering.enumerated.early m listed
    · simpa using numbering.typed m (mem_append_left _ listed)
  · rw [answers.client]
    exact fun some => (gap some).1
  · obtain ⟨m, log⟩ := answers.answered
    rw [log]
    by_cases none : l.unflown .outbound = []
    · rw [none, append_nil] at some ⊢
      obtain ⟨entry, listed, ended⟩ := numbering.enumerated.answered some
      exact ⟨entry, mem_cons_of_mem _ listed, ended⟩
    -- the flight that is answered now has a first message, which was sent
    · obtain ⟨rfl, -⟩ := numbering.place rfl (by simpa using none)
      obtain ⟨sent, last, split⟩ := numbering.tail none
      refine ⟨_, mem_cons_self, sent, ?_, last, split⟩
      rintro rfl
      obtain ⟨first, rest, waits⟩ := exists_cons_of_ne_nil none
      refine (mem_unflown.mp (waits ▸ mem_cons_self : first ∈ l.unflown .outbound)).2 (launched first ?_)
      rw [split, nil_append, waits]
      exact mem_cons_self
  · refine numbering.aboard.replace answers.flown answers.others ?_ (fun other away => ?_) answers.accounted ?_
    · simp [messages, answers.ended]
    · rw [unflown_congr (answers.others other away) answers.flown]
      exact numbering.aboard.settled other away
    · simp [answers.ended]
  · rw [answers.idle, nil_append, answers.numbers, reached, append_nil]
  · rw [answers.idle, nil_append, answers.counter, reached, append_nil]
  · intro _ some
    rw [answers.idle, nil_append] at some
    exact ⟨by_contra fun skips => some (gap skips).2, rfl⟩
  · rw [answers.idle, nil_append]
    exact answers.early

theorem Follows.begun (follows : l.Follows l') (some : l.numbers ≠ []) : l'.numbers ≠ [] := by
  obtain ⟨n, listed⟩ := exists_mem_of_ne_nil _ some
  exact ne_nil_of_mem (follows.numbers n listed)

theorem Underway.inStep {other : Slot} (inStep : l.InStep base) (under : Underway base .outbound other l l') :
    l'.InStep base where
  numbering := under.numbering
  prompt incomplete early := by
    rw [under.follows.complete] at incomplete
    rw [under.follows.client, under.follows.phase] at early
    exact under.follows.unflown (inStep.prompt incomplete early)
  launched := under.follows.launched inStep.launched
  begun reached := by
    rw [under.follows.client, under.follows.complete, under.follows.phase] at reached
    exact under.follows.begun (inStep.begun reached)

theorem unflown_of_sent (only : l.messages slot = [m]) (sent : m.sequence ∈ l.numbers) : l.unflown slot = [] := by
  unfold unflown
  rw [only]
  exact filter_cons_of_neg (by simpa using sent)

/-- Once its message was sent, an operation is in step with the rest. -/
theorem Numbering.inStep {front skipped back : List HandshakeMessage}
    (numbering : l.Numbering base slot [] front skipped back) (away : slot ≠ .outbound)
    (none : l.unflown slot = []) : l.InStep base :=
  (numbering.home none).settled (numbering.aboard.settled .outbound away.symm) (numbering.opened away).2

/-- An operation takes its number when no handshake flight is left. -/
theorem InStep.issue (inStep : l.InStep base) (complete : l.complete = true)
    (stopped : (l.held .outbound).complete = true ∨ (l.held .outbound).messages = []) (typ : PostType) {f : Flight}
    {interval : Duration} (created : newFlight [m] interval = .ok f) (number : m.sequence = l.sequence)
    (room : l.sequence < 65536) (post : m.isPost = true) :
    ∃ front skipped back, (l.issue typ f).Numbering base (.post typ) [] front skipped back ∧
      (l.issue typ f).Witnessed (.post typ) ∧ (l.issue typ f).messages (.post typ) = [m] := by
  obtain ⟨front, skipped, back, numbering⟩ := inStep.numbering
  have headed := numbering.enumerated.front_ne (inStep.begun (.inr (.inl complete)))
  have accounted := Flight.newFlight_accounted created
  have idle : l.unflown .outbound = [] := by
    rw [unflown, messages, stopped.elim (numbering.aboard.accounted .outbound).finished id]
    rfl
  have core := newFlight_core created
  have only : f.messages = [.start m] := congrArg (·.messages) core
  have unsent : f.sent = ∅ := congrArg (·.sent) core
  have issued := numbering.issue idle complete headed typ only accounted unsent number room post
  refine ⟨front, skipped, back, issued.1, issued.2, ?_⟩
  rw [Ledger.messages, show (l.issue typ f).held (.post typ) = f from held_exchange f, only]
  rfl

/-- Flights that are over may go. -/
theorem InStep.refit (inStep : l.InStep base) {held : Slot → Flight}
    (kept : ∀ slot, held slot = l.held slot ∨ held slot = default ∧ (l.held slot).messages = []) :
    (l.refit held).InStep base := by
  obtain ⟨⟨front, skipped, back, numbering⟩, prompt, launched, begun⟩ := inStep
  have outbound : ∀ slot, (held slot).messages = (l.held slot).messages := by
    intro slot
    obtain same | ⟨gone, none⟩ := kept slot
    · rw [same]
    · rw [none, gone]
      rfl
  have messages : ∀ slot, (l.refit held).messages slot = l.messages slot := fun slot =>
    congrArg (List.map OutboundMessage.message) (outbound slot)
  have waits : ∀ slot, (l.refit held).unflown slot = l.unflown slot := by
    intro slot
    unfold unflown
    rw [messages]
    rfl
  have aboard : (l.refit held).Aboard .outbound (front ++ back) :=
    { known := fun slot m listed => numbering.aboard.known slot m (messages slot ▸ listed)
      settled := fun slot away => (waits slot).trans (numbering.aboard.settled slot away)
      accounted := by
        intro slot
        show (held slot).Accounted
        obtain same | ⟨gone, -⟩ := kept slot
        · exact same ▸ numbering.aboard.accounted slot
        · exact gone ▸ Flight.default_accounted
      noted := fun slot x listed => numbering.aboard.noted slot x (outbound slot ▸ listed) }
  refine ⟨⟨front, skipped, back, numbering.refit aboard (congrArg (· ++ []) (waits .outbound)) fun some => ?_⟩,
    fun incomplete early => (waits .outbound).trans (prompt incomplete early),
    fun m listed => launched m (messages .outbound ▸ listed), begun⟩
  rw [waits] at some ⊢
  rw [messages]
  exact numbering.tail some

end Ledger

end Socat.Dtls13
