import Socat.Dtls13.Model.Fragment
import Socat.Dtls13.Model.Record

/-! # Outbound flights

A flight owns its messages and, for every record it has sent, the byte range that record carried.
Acknowledging a record number marks that range, whichever transmission it belonged to; the flight
completes when every byte of every message is marked. Transmission is written against any send
action on any state that holds the flight, and keeps what it recorded before an error. The bit maps of the source are
lists with one Boolean for each body byte.
-/

namespace Socat.Dtls13

def initialRetransmit : Duration := 1000000000
def maximumRetransmit : Duration := 60 * initialRetransmit
def minRetransmit : Duration := initialRetransmit / 10
def maxFlightRecords : ℕ := 65536
def maxFlightRetries : ℕ := 8
def flightBurst : ℕ := 10

/-- Set the bits of `[start, stop)`. -/
def markRange (bits : List Bool) (start stop : ℕ) : List Bool :=
  bits.mapIdx fun i bit => bit || (decide (start ≤ i) && decide (i < stop))

/-- How many bits of `[start, stop)` are still clear. -/
def clearIn (bits : List Bool) (start stop : ℕ) : ℕ :=
  ((bits.drop start).take (stop - start)).count false

structure OutboundMessage where
  message : HandshakeMessage
  acknowledged : List Bool
  sent : List Bool
  remaining : ℕ
  sentCount : ℕ := 0
  emptyAcknowledged : Bool := false
  emptySent : Bool := false
  resent : Bool := false
deriving DecidableEq, Repr

namespace OutboundMessage

def start (m : HandshakeMessage) : OutboundMessage where
  message := m
  acknowledged := List.replicate m.body.length false
  sent := List.replicate m.body.length false
  remaining := m.body.length

/-- The bytes a pass has to send: not acknowledged, and for new bytes not sent either. -/
def wanted (m : OutboundMessage) (onlyNew : Bool) : List Bool :=
  List.zipWith (fun acknowledged sent => !(acknowledged || (onlyNew && sent))) m.acknowledged m.sent

/-- The first wanted byte from `start` on, or the end of the body. -/
def skip (m : OutboundMessage) (onlyNew : Bool) (start : ℕ) : ℕ :=
  start + (((m.wanted onlyNew).drop start).takeWhile (!·)).length

/-- The end of the run of wanted bytes at `start`, at most `capacity` of them. -/
def extent (m : OutboundMessage) (onlyNew : Bool) (capacity start : ℕ) : ℕ :=
  start + ((((m.wanted onlyNew).drop start).take capacity).takeWhile id).length

/-- Record a transmission of `[start, stop)`. -/
def noteSent (m : OutboundMessage) (onlyNew : Bool) (start stop : ℕ) : OutboundMessage :=
  let m := if onlyNew then m else { m with resent := true }
  if m.message.body = [] then { m with emptySent := true }
  else { m with
    sent := markRange m.sent start stop
    sentCount := m.sentCount + clearIn m.sent start stop }

/-- Mark `[start, stop)` acknowledged. -/
def noteAcknowledged (m : OutboundMessage) (start stop : ℕ) : OutboundMessage :=
  { m with
    emptyAcknowledged := m.emptyAcknowledged || m.message.body.isEmpty
    acknowledged := markRange m.acknowledged start stop
    remaining := m.remaining - clearIn m.acknowledged start stop }

/-- Whether marking `[start, stop)` changes anything. -/
def progresses (m : OutboundMessage) (start stop : ℕ) : Bool :=
  (m.message.body.isEmpty && !m.emptyAcknowledged) || decide (0 < clearIn m.acknowledged start stop)

def done (m : OutboundMessage) : Bool :=
  m.remaining == 0 && (!m.message.body.isEmpty || m.emptyAcknowledged)

def pendingSend (m : OutboundMessage) : Bool :=
  if m.message.body = [] then !m.emptyAcknowledged && !m.emptySent
  else decide (m.sentCount < m.message.body.length)

end OutboundMessage

structure SentFragment where
  message : ℕ
  start : ℕ
  stop : ℕ
  sentAt : Time
deriving DecidableEq, Repr

/-- The retransmission interval is never zero, so a started timer is always set. -/
structure Flight where
  messages : List OutboundMessage
  sent : AList (fun _ : RecordNumber => SentFragment) := ∅
  interval : Duration
  positive : 0 < interval
  deadline : Time := 0
  firstSent : Time := 0
  retries : ℕ := 0
  complete : Bool := false
  sentOnce : Bool := false
  ackedSinceSend : Bool := false
  resent : Bool := false
  burstWait : Bool := false
deriving DecidableEq

def newFlight (messages : List HandshakeMessage) (interval : Duration) : Except Err Flight :=
  if messages = [] ∨ maxPendingMessages < messages.length then .error .handshakeLimit
  else if messages.any (fun m => maxHandshakeBody < m.body.length) ||
      decide (2 * maxHandshakeBody < (messages.map fun m => m.body.length).sum) then
    .error .handshakeLimit
  else .ok
    { messages := messages.map OutboundMessage.start
      interval := min (if interval = 0 then initialRetransmit else interval) maximumRetransmit
      positive := by
        rw [lt_min_iff]
        refine ⟨?_, by decide⟩
        split
        · decide
        · exact Nat.pos_of_ne_zero ‹_› }

namespace Flight

def pendingSend (f : Flight) : Bool := f.messages.any OutboundMessage.pendingSend

def finish (f : Flight) : Flight :=
  { f with complete := true, deadline := 0, messages := [], sent := ∅ }

/-- The bookkeeping after a record of message `index` went out as `number`. -/
def record (f : Flight) (now : Time) (onlyNew : Bool) (index start stop : ℕ) (number : RecordNumber) : Flight :=
  { f with
    firstSent := if f.firstSent = 0 then now else f.firstSent
    resent := f.resent || !onlyNew
    sent := f.sent.insert number ⟨index, start, stop, now⟩
    messages := f.messages.modify index fun m => m.noteSent onlyNew start stop }

/-- The end of a successful transmission: the retransmission timer is armed. -/
def armed (f : Flight) (now : Time) : Flight :=
  { f with sentOnce := f.sentOnce || !f.pendingSend, deadline := now + f.interval }

end Flight

/-! ## Transmission -/

/-- A pointer to a flight that a state holds. -/
structure FlightRef (σ : Type) where
  load : σ → Flight
  store : Flight → σ → σ

namespace FlightRef

variable {σ : Type}

/-- Update the flight in place. -/
def update (ref : FlightRef σ) (change : Flight → Flight) : EStateM Err σ Unit :=
  modify fun s => ref.store (change (ref.load s)) s

/-- Send one range of one message and record it under the number it was given. -/
def sendRange (ref : FlightRef σ) (now : Time) (send : ℕ → Bytes → EStateM Err σ RecordNumber)
    (onlyNew : Bool) (index : ℕ) (m : HandshakeMessage) (start stop : ℕ) : EStateM Err σ Unit := do
  let s ← get
  if maxFlightRecords ≤ (ref.load s).sent.entries.length then throw .handshakeLimit
  else
    match m.fragment start (stop - start) with
    | .error e => throw e
    | .ok body => do
      let number ← send m.epoch body
      let s ← get
      if number.epoch ≠ m.epoch then throw .record
      else if number ∈ (ref.load s).sent then throw .sequence
      else ref.update fun f => f.record now onlyNew index start stop number

/-- The loop over one message's body. Each iteration moves `start`, so the body length bounds it. -/
def sendBody (ref : FlightRef σ) (now : Time) (capacity : ℕ)
    (send : ℕ → Bytes → EStateM Err σ RecordNumber) (onlyNew : Bool) (index : ℕ) :
    ℕ → ℕ → ℕ → EStateM Err σ ℕ
  | 0, _, count => pure count
  | fuel + 1, start, count => do
    let s ← get
    match (ref.load s).messages[index]? with
    | none => pure count
    | some m =>
      if m.message.body = [] then
        if m.emptyAcknowledged || (onlyNew && m.emptySent) then pure count
        else do
          ref.sendRange now send onlyNew index m.message 0 0
          pure (count + 1)
      else
        let start := m.skip onlyNew start
        if m.message.body.length ≤ start then pure count
        else do
          let stop := m.extent onlyNew capacity start
          ref.sendRange now send onlyNew index m.message start stop
          if count + 1 = flightBurst then pure (count + 1)
          else ref.sendBody now capacity send onlyNew index fuel stop (count + 1)

/-- The loop over the messages, ended by a full burst. -/
def sendMessages (ref : FlightRef σ) (now : Time) (capacity : ℕ)
    (send : ℕ → Bytes → EStateM Err σ RecordNumber) (onlyNew : Bool) :
    List OutboundMessage → ℕ → ℕ → EStateM Err σ ℕ
  | [], _, count => pure count
  | m :: rest, index, count => do
    let count ← ref.sendBody now capacity send onlyNew index (m.message.body.length + 1) 0 count
    if count = flightBurst then pure count
    else ref.sendMessages now capacity send onlyNew rest (index + 1) count

def sendRanges (ref : FlightRef σ) (now : Time) (capacity : ℕ)
    (send : ℕ → Bytes → EStateM Err σ RecordNumber) (onlyNew : Bool) : EStateM Err σ ℕ := do
  let s ← get
  ref.sendMessages now capacity send onlyNew (ref.load s).messages 0 0

/-- Send at most one burst, new bytes before unacknowledged ones. -/
def transmit (ref : FlightRef σ) (now : Time) (capacity : ℕ)
    (send : ℕ → Bytes → EStateM Err σ RecordNumber) : EStateM Err σ Unit := do
  let s ← get
  if (ref.load s).complete then pure ()
  else if capacity < 1 ∨ maxContent - handshakeHeader < capacity then throw .recordOverflow
  else do
    let count ← ref.sendRanges now capacity send true
    if count = 0 then do
      let _ ← ref.sendRanges now capacity send false
      ref.update fun f => f.armed now
    else ref.update fun f => f.armed now

end FlightRef

namespace Flight

/-! ## Acknowledgement and timers -/

/-- The round-trip sample of an acknowledged record, kept if it is the smallest so far. -/
def sample (m : OutboundMessage) (part : SentFragment) (authenticated : Bool) (now : Time)
    (rtt : Duration) : Duration :=
  if authenticated ∧ m.resent = false ∧ part.sentAt ≠ 0 ∧ part.sentAt < now then
    let elapsed := now - part.sentAt
    if rtt = 0 ∨ elapsed < rtt then elapsed else rtt
  else rtt

/-- One record number of an ACK: unknown numbers and unauthenticated acknowledgements of protected
records are ignored. -/
def acknowledgeRecord (authenticated : Bool) (now : Time) (state : Flight × Bool × Duration)
    (number : RecordNumber) : Flight × Bool × Duration :=
  let (f, progress, rtt) := state
  match f.sent.lookup number with
  | none => state
  | some part =>
    if authenticated = false ∧ number.epoch ≠ 0 then state
    else
      match f.messages[part.message]? with
      | none => state
      | some m =>
        ({ f with
            messages := f.messages.set part.message (m.noteAcknowledged part.start part.stop)
            sent := f.sent.erase number },
          progress || m.progresses part.start part.stop,
          sample m part authenticated now rtt)

/-- What an acknowledgement leaves alone in a message stays in the flight. -/
theorem acknowledgeRecord_map {α : Type} (view : OutboundMessage → α)
    (same : ∀ m start stop, view (m.noteAcknowledged start stop) = view m) (authenticated : Bool) (now : Time)
    (state : Flight × Bool × Duration) (number : RecordNumber) :
    (acknowledgeRecord authenticated now state number).1.messages.map view = state.1.messages.map view := by
  obtain ⟨f, progress, rtt⟩ := state
  simp only [acknowledgeRecord]
  split
  · rfl
  · next part _ =>
    split_ifs
    · rfl
    · split
      · rfl
      · next m found =>
        obtain ⟨bound, rfl⟩ := List.getElem?_eq_some_iff.mp found
        rw [List.map_set, same, ← List.getElem_map view (h := by simpa using bound), List.set_getElem_self]

theorem acknowledgeRecords_map {α : Type} (view : OutboundMessage → α)
    (same : ∀ m start stop, view (m.noteAcknowledged start stop) = view m) (authenticated : Bool) (now : Time)
    (records : List RecordNumber) (state : Flight × Bool × Duration) :
    (records.foldl (acknowledgeRecord authenticated now) state).1.messages.map view = state.1.messages.map view := by
  induction records generalizing state with
  | nil => rfl
  | cons number rest ih => exact (ih _).trans (acknowledgeRecord_map view same authenticated now state number)

/-- Apply an ACK; the answer is whether it made progress and the round-trip sample it gave. -/
def acknowledge (f : Flight) (records : List RecordNumber) (authenticated : Bool) (now : Time) :
    (Bool × Duration) × Flight :=
  if f.complete then ((false, 0), f)
  else
    let (f, progress, rtt) := records.foldl (acknowledgeRecord authenticated now) (f, false, 0)
    let f := if progress then { f with retries := 0, ackedSinceSend := true } else f
    ((progress, rtt), if f.messages.all OutboundMessage.done then f.finish else f)

/-- `expire`: whether a retransmission is due. A flight with unsent bytes only starts its next
burst; otherwise the retry counts and the interval doubles. -/
def expire (f : Flight) (now : Time) : Except Err Bool × Flight :=
  if f.complete = true ∨ f.deadline = 0 ∨ now < f.deadline then (.ok false, f)
  else if f.pendingSend then (.ok true, { f with burstWait := true, deadline := now + f.interval })
  else if f.retries = maxFlightRetries then (.error .handshakeTimeout, f)
  else
    let interval := min (2 * f.interval) maximumRetransmit
    (.ok true, { f with
      retries := f.retries + 1
      resent := true
      interval
      positive := lt_min (Nat.mul_pos two_pos f.positive) (by decide)
      deadline := now + interval })

end Flight

end Socat.Dtls13
