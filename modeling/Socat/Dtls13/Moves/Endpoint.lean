import Socat.Dtls13.Model.Driver

/-! # What an endpoint can do

One event of the driver is a long computation with many exits. `Endpoint` keeps keys, flights, the
reassembler and the records that went out and came in, and forgets timers, paths, connection IDs and
the answers of the surroundings; `Move` says once, with their guards, which changes an event is made
of. Every invariant over whole runs is proved against the moves, and the code is related to them once.
`SendMove` is the part that numbers, seals and transmits records. A KeyUpdate and its flag change in
one move: the code sets the flag after the first transmission, which does not read it.
-/

namespace Socat.Dtls13

/-! ## The abstract state -/

/-- A flight without the values of its timers. -/
structure FlightCore where
  messages : List OutboundMessage
  sent : AList (fun _ : RecordNumber => SentFragment)
  complete : Bool
  armed : Bool
deriving DecidableEq

def Flight.core (f : Flight) : FlightCore := ⟨f.messages, f.sent, f.complete, f.deadline != 0⟩

/-- The `handshake` of an endpoint has no `peerCID`, which changes with the path. -/
structure Endpoint where
  handshake : Handshake
  epochs : TrafficEpochs
  reassembly : Reassembler
  flights : Slot → Option FlightCore
  updating : Bool
  handed : List Packet
  opened : List OpenedRecord
  faults : List ℕ

def World.endpoint (w : World) : Endpoint where
  handshake := { w.session.handshake with peerCID := [] }
  epochs := w.session.epochs
  reassembly := w.session.reassembly
  flights slot := (w.session.flight slot).map Flight.core
  updating := w.session.keyUpdate.updating
  handed := w.history.handed
  opened := w.history.opened
  faults := w.history.faults

namespace Endpoint

/-- The slot holds a flight that is not acknowledged. -/
def Outstanding (k : Endpoint) (slot : Slot) : Prop :=
  ∃ f, k.flights slot = some f ∧ f.complete = false

/-- A KeyUpdate under way is flagged. -/
def Flagged (k : Endpoint) : Prop := k.Outstanding (.post .keyUpdate) → k.updating = true

/-- Every outstanding flight has a timer. -/
def Timed (k : Endpoint) : Prop :=
  ∀ slot f, k.flights slot = some f → f.complete = false → f.armed = true

/-- While keys are being updated some message is outstanding. -/
def Held (k : Endpoint) : Prop := k.updating = true → ∃ typ, k.Outstanding (.post typ)

def setFlight (k : Endpoint) (slot : Slot) (f : FlightCore) : Endpoint :=
  { k with flights := Function.update k.flights slot (some f) }

def hand (k : Endpoint) (p : Packet) (e : WriteEpoch) : Endpoint :=
  { k with epochs := k.epochs.number p.number.epoch e, handed := p :: k.handed }

/-- A new message takes the next sequence number and a flight of its own. -/
def issue (k : Endpoint) (typ : PostType) (f : FlightCore) : Endpoint :=
  { k.setFlight (.post typ) f with
    handshake := { k.handshake with sequence := k.handshake.sequence + 1 } }

def dropComplete (k : Endpoint) : Endpoint :=
  { k with flights := fun
      | .outbound => k.flights .outbound
      | .post typ => (k.flights (.post typ)).filter fun f => !f.complete }

def openAs (k : Endpoint) (epoch : ℕ) (keys : ReadEpoch) (o : OpenedRecord) (window : ReplayWindow) : Endpoint :=
  { k with epochs := k.epochs.authenticate epoch keys window, opened := o :: k.opened }

/-- The epochs after the handshake keys are retired; reading may go on for a while. -/
def retire (k : Endpoint) (discard : Bool) : Endpoint :=
  { k with
    handshake := { k.handshake with
      schedule := none
      clientApplication :=
        if k.handshake.schedule.isSome then [] else k.handshake.clientApplication
      serverApplication :=
        if k.handshake.schedule.isSome then [] else k.handshake.serverApplication }
    epochs :=
      if discard then k.epochs.retireHandshakeWrite.discardHandshakeRead
      else k.epochs.retireHandshakeWrite }

end Endpoint

def FlightCore.record (f : FlightCore) (now : Time) (onlyNew : Bool) (index start stop : ℕ)
    (number : RecordNumber) : FlightCore :=
  { f with
    sent := f.sent.insert number ⟨index, start, stop, now⟩
    messages := f.messages.modify index fun m => m.noteSent onlyNew start stop }

variable [Crypto]

/-! ## Sending -/

/-- `p` is the next record of its epoch. -/
structure Numbered (k : Endpoint) (p : Packet) (e : WriteEpoch) : Prop where
  found : k.epochs.write.lookup p.number.epoch = some e
  sequence : p.number.sequence = e.sequence
  keys : p.keys = e.keys
  encoded : e.encode p.number.epoch p.typ p.body p.cid p.padding = .ok p.bytes

inductive SendMove : Endpoint → Endpoint → Prop
  | hand {k : Endpoint} (p : Packet) (e : WriteEpoch) (numbered : Numbered k p e) :
      SendMove k (k.hand p e)
  | fragment {k : Endpoint} (slot : Slot) (f : FlightCore) (p : Packet) (e : WriteEpoch)
      (index start stop : ℕ) (onlyNew : Bool) (now : Time) (numbered : Numbered k p e)
      (present : k.flights slot = some f) :
      SendMove k ((k.hand p e).setFlight slot (f.record now onlyNew index start stop p.number))
  | arm {k : Endpoint} (slot : Slot) (f : FlightCore) (present : k.flights slot = some f) :
      SendMove k (k.setFlight slot { f with armed := true })

abbrev Sends : Endpoint → Endpoint → Prop := Relation.ReflTransGen SendMove

/-! ## Post-handshake messages -/

/-- A message may be started: it takes the next sequence number under the current epoch and a new
flight. -/
structure Issuing (k : Endpoint) (typ : PostType) (f : FlightCore) : Prop where
  complete : k.handshake.complete = true
  idle : k.updating = false
  acknowledged : ¬k.Outstanding .outbound
  vacant : k.flights (.post typ) = none
  flight : ∃ body, f = ⟨[.start ⟨typ.code, k.handshake.sequence, k.epochs.currentWrite, body⟩], ∅, false, false⟩

/-! ## Receiving -/

/-- The protected record `r` opens under the newest matching epoch. -/
structure Opens (k : Endpoint) (r : Record) (epoch : ℕ) (keys : ReadEpoch) (o : OpenedRecord)
    (window : ReplayWindow) : Prop where
  encrypted : r.encrypted = true
  selected : k.epochs.select r.number.epoch = some epoch
  found : k.epochs.read.lookup epoch = some keys
  decoded : keys.keys.decodeRecord r epoch r.cid keys.window =
    .ok ((o.number, o.typ, o.body), window)
  cid : o.cid = r.cid

/-- An epoch in which the endpoint has opened a record, or the one in the clear. -/
def Met (k : Endpoint) (epoch : ℕ) : Prop := epoch = 0 ∨ ∃ o ∈ k.opened, o.number.epoch = epoch

/-- The reassembler hands out `m`. -/
def Pops (k : Endpoint) (m : HandshakeMessage) (reassembly : Reassembler) : Prop :=
  ∃ budget rest : List Bool, k.reassembly.pop budget = (some m, reassembly, rest)

/-- A message that post-handshake processing looks at. -/
structure Takes (k : Endpoint) (m : HandshakeMessage) (reassembly : Reassembler) : Prop where
  pops : Pops k m reassembly
  application : 3 ≤ m.epoch
  current : m.epoch = k.epochs.readApplicationEpoch

/-! ## Moves -/

inductive Move : Endpoint → Endpoint → Prop
  | send {k k' : Endpoint} (move : SendMove k k') : Move k k'
  | issueKeyUpdate {k : Endpoint} (f : FlightCore) (issuing : Issuing k .keyUpdate f) :
      Move k { k.issue .keyUpdate f with updating := true }
  | issue {k : Endpoint} (typ : PostType) (f : FlightCore) (issuing : Issuing k typ f)
      (other : typ ≠ .keyUpdate) : Move k (k.issue typ f)
  | acknowledge {k : Endpoint} (slot : Slot) (f : Flight) (records : List RecordNumber)
      (authenticated : Bool) (now : Time) (present : k.flights slot = some f.core) :
      Move k (k.setFlight slot (f.acknowledge records authenticated now).2.core)
  | retire {k : Endpoint} (discard : Bool) (complete : k.handshake.complete = true)
      (acknowledged : ¬k.Outstanding .outbound) : Move k (k.retire discard)
  | switchKeys {k : Endpoint} (e : WriteEpoch) (keys : TrafficKeys) (updating : k.updating = true)
      (acknowledged : ∀ slot, ¬k.Outstanding slot)
      (retired : 0 ∉ k.epochs.write ∧ 2 ∉ k.epochs.write)
      (found : k.epochs.write.lookup k.epochs.currentWrite = some e)
      (updated : updatedKeys k.handshake.cipherSuite e.secret = .ok keys) :
      Move k { k with epochs := k.epochs.switchWrite keys, updating := false }
  | dropComplete {k : Endpoint} : Move k k.dropComplete
  | openRecord {k : Endpoint} (r : Record) (epoch : ℕ) (keys : ReadEpoch) (o : OpenedRecord)
      (window : ReplayWindow) (opens : Opens k r epoch keys o window) :
      Move k (k.openAs epoch keys o window)
  | countFailure {k : Endpoint} (epoch : ℕ) (keys : ReadEpoch)
      (found : k.epochs.read.lookup epoch = some keys) :
      Move k { k with epochs := k.epochs.countFailure epoch keys }
  | discardRead {k : Endpoint} : Move k { k with epochs := k.epochs.discardHandshakeRead }
  | store {k : Endpoint} (epoch : ℕ) (body : Bytes) (budget : List Bool) (met : Met k epoch) :
      Move k { k with reassembly := (k.reassembly.add budget body epoch).2.1 }
  | pop {k : Endpoint} (m : HandshakeMessage) (reassembly : Reassembler)
      (pops : Pops k m reassembly) : Move k { k with reassembly }
  | takeKeyUpdate {k : Endpoint} (m : HandshakeMessage) (reassembly : Reassembler) (r : ReadEpoch)
      (keys : TrafficKeys) (takes : Takes k m reassembly) (typ : m.typ = msgKeyUpdate)
      (found : k.epochs.read.lookup m.epoch = some r)
      (updated : updatedKeys k.handshake.cipherSuite r.secret = .ok keys) :
      Move k { k with reassembly, epochs := k.epochs.updateRead m.epoch keys }
  | handler {k : Endpoint} (handshake : Handshake) (incomplete : k.handshake.complete = false)
      (phased : handshake.complete = false → handshake.Phased)
      (secured : handshake.complete = true → 3 ∈ k.epochs.installed) : Move k { k with handshake }
  | install {k : Endpoint} (epoch : ℕ) (readKeys writeKeys : TrafficKeys)
      (epochs : epoch = 2 ∨ epoch = 3) (absent : epoch ∉ k.epochs.installed)
      (staged : epoch = 3 → 2 ∈ k.epochs.installed) :
      Move k { k with epochs := k.epochs.install epoch readKeys writeKeys }
  | startOutbound {k : Endpoint} (messages : List HandshakeMessage) (idle : k.updating = false)
      (keyed : ∀ m ∈ messages, m.epoch ∈ k.epochs.write) :
      Move k (k.setFlight .outbound ⟨messages.map OutboundMessage.start, ∅, false, false⟩)
  | finishOutbound {k : Endpoint} (armed : Bool) : Move k (k.setFlight .outbound ⟨[], ∅, true, armed⟩)

abbrev Moves : Endpoint → Endpoint → Prop := Relation.ReflTransGen Move

/-- What a failure or a method called out of turn can leave behind: a KeyUpdate without read keys, a
handshake that went on without its keys, a flight without keys, or a window moved by a record whose
connection ID the demultiplexer refused. -/
inductive Lapse : Endpoint → Endpoint → Prop
  | none {k : Endpoint} : Lapse k k
  | missing {k : Endpoint} (m : HandshakeMessage) (reassembly : Reassembler) (takes : Takes k m reassembly)
      (missing : m.epoch ∉ k.epochs.read) : Lapse k { k with reassembly, faults := m.epoch :: k.faults }
  | unsecured {k : Endpoint} (handshake : Handshake) (incomplete : k.handshake.complete = false)
      (phased : handshake.complete = false → handshake.Phased) : Lapse k { k with handshake }
  | unkeyed {k : Endpoint} (messages : List HandshakeMessage) (incomplete : k.handshake.complete = false) :
      Lapse k (k.setFlight .outbound ⟨messages.map OutboundMessage.start, ∅, false, false⟩)
  | unopened {k : Endpoint} (r : Record) (epoch : ℕ) (keys : ReadEpoch) (o : OpenedRecord)
      (window : ReplayWindow) (opens : Opens k r epoch keys o window) :
      Lapse k { k with epochs := k.epochs.authenticate epoch keys window }

/-- How an operation that fails ends. -/
def Breaks (k k' : Endpoint) : Prop := ∃ k₁ k₂, Moves k k₁ ∧ Lapse k₁ k₂ ∧ Sends k₂ k'

end Socat.Dtls13
