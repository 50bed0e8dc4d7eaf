import Socat.Dtls13.Model.PathMTU

/-! # Sending

Every record leaves through `sendRecordLimited`: it numbers the record under its epoch, encodes it,
checks the size limit, moves the epoch's counter and only then calls the send callback. Flights and
acknowledgements are built on it. Keys for the handshake and application epochs are installed once
each, tracked by the `installed` bit set.
-/

namespace Socat.Dtls13

variable [Crypto]

/-! ## Records -/

/-- The bytes of the next record of an epoch. -/
def WriteEpoch.encode (e : WriteEpoch) (epoch : ℕ) (typ : UInt8) (body cid : Bytes)
    (padding : ℕ) : Except Err Bytes :=
  if epoch = 0 then
    if 2 ^ 48 ≤ e.sequence then .error .sequence
    else if padding ≠ 0 then .error .record
    else encodePlainRecord typ e.sequence body
  else
    match e.keys with
    | none => .error .nilDereference
    | some keys =>
      if keys.recordLimit ≤ e.sequence then .error .sequence
      else keys.encodeRecord ⟨epoch, e.sequence⟩ cid typ body padding

/-- The counter of the packet's epoch moves before the packet is handed to the callback. -/
def World.hand (w : World) (p : Packet) (e : WriteEpoch) : World :=
  { w with
    session.working.lastSendSize := p.bytes.length
    session.epochs := w.session.epochs.number p.number.epoch e
    history.handed := p :: w.history.handed }

def sendRecordLimited (epoch : ℕ) (typ : UInt8) (body cid : Bytes) (padding limit : ℕ)
    (send : Packet → SessionM Unit) : SessionM RecordNumber := do
  let s ← getSession
  match s.epochs.write.lookup epoch with
  | none => throw .keyMaterial
  | some e =>
    match e.encode epoch typ body cid padding with
    | .error cause => throw cause
    | .ok bytes =>
      if limit < bytes.length then throw .recordOverflow
      else do
        let p : Packet := ⟨⟨epoch, e.sequence⟩, typ, body, cid, padding, bytes, e.keys⟩
        modify fun w => w.hand p e
        send p
        return p.number

def sendRecordWith (epoch : ℕ) (typ : UInt8) (body cid : Bytes)
    (send : Packet → SessionM Unit) : SessionM RecordNumber := do
  let s ← getSession
  sendRecordLimited epoch typ body cid 0 s.effectiveMTU send

def sendRecord (epoch : ℕ) (typ : UInt8) (body : Bytes) : SessionM RecordNumber := do
  let s ← getSession
  sendRecordWith epoch typ body s.probeCID transport

/-! ## Key installation -/

/-- One iteration of `installKeys`. -/
def installPair (epoch : ℕ) (client server : Bytes) : SessionM Unit := do
  let s ← getSession
  if client = [] ∨ epoch ∈ s.epochs.installed then pure ()
  else
    let readSecret := if s.handshake.client then server else client
    let writeSecret := if s.handshake.client then client else server
    match newTrafficKeys s.handshake.cipherSuite readSecret,
        newTrafficKeys s.handshake.cipherSuite writeSecret with
    | .error e, _ => throw e
    | .ok _, .error e => throw e
    | .ok readKeys, .ok writeKeys =>
      modifySession fun s => { s with epochs := s.epochs.install epoch readKeys writeKeys }

def installKeys : SessionM Unit := do
  let s ← getSession
  match s.handshake.schedule with
  | none => pure ()
  | some schedule => do
    installPair 2 schedule.clientHandshake schedule.serverHandshake
    installPair 3 s.handshake.clientApplication s.handshake.serverApplication

/-! ## Acknowledgements -/

def fragmentBudget (mtu cid : ℕ) : ℕ :=
  min (max (mtu - handshakeHeader - 5 - cid - 17) 1) (maxContent - handshakeHeader)

namespace Session

def fragmentCapacity (s : Session) : ℕ := fragmentBudget s.effectiveMTU s.probeCID.length

def handshakeACKReady (s : Session) : Bool :=
  if s.handshake.complete then s.handshakeFlightSent else s.reassembly.disrupted

def handshakeFlightStalled (s : Session) (now : Time) : Bool :=
  !s.handshake.complete && !s.ack.pending.isEmpty && s.ack.deadline != 0 &&
    decide (s.ack.deadline ≤ now) && !s.flightPending

end Session

/-- The loop of `writeAcknowledgements`; every round shortens the queue. -/
def writeAckLoop (limit : ℕ) : ℕ → SessionM Unit
  | 0 => modifySession fun s => { s with ack.deadline := 0 }
  | fuel + 1 => do
    let s ← getSession
    if s.ack.pending = [] then modifySession fun s => { s with ack.deadline := 0 }
    else
      match encodeACK (s.ack.pending.take limit) with
      | .error e => throw e
      | .ok body => do
        let _ ← sendRecord s.currentWriteEpoch contentACK body
        modifySession fun s => { s with ack.pending := s.ack.pending.drop limit }
        writeAckLoop limit fuel

def writeAcknowledgements (ready : Bool) : SessionM Unit := do
  let s ← getSession
  if s.ack.pending = [] then modifySession fun s => { s with ack.deadline := 0 }
  else if ready = false then pure ()
  else
    let limit := (s.fragmentCapacity + handshakeHeader - 2) / 16
    if limit < 1 then throw .recordOverflow else writeAckLoop limit s.ack.pending.length

def sendACK : SessionM Unit := do
  let s ← getSession
  writeAcknowledgements s.handshakeACKReady

def sendScheduledACK (now : Time) : SessionM Unit := do
  let s ← getSession
  if s.ack.pending = [] then modifySession fun s => { s with ack.deadline := 0 }
  else writeAcknowledgements (s.handshakeACKReady || s.handshakeFlightStalled now)

/-- Append a number and restart the quiet timer unless the flight is disrupted. -/
def Session.pushAck (s : Session) (number : RecordNumber) (now : Time) : Session :=
  { s with
    ack.pending := s.ack.pending ++ [number]
    ack.deadline :=
      if s.ack.deadline = 0 ∨ s.reassembly.disrupted = false then now + s.ackDelay
      else s.ack.deadline }

def queueAcknowledgement (number : RecordNumber) (now : Time) : SessionM Unit := do
  let s ← getSession
  runIf (maxQueuedAcknowledgements ≤ s.ack.pending.length) sendACK
  let s ← getSession
  if maxQueuedAcknowledgements ≤ s.ack.pending.length then pure ()
  else do
    modifySession fun s => s.pushAck number now
    let s ← getSession
    runIf (maxQueuedAcknowledgements ≤ s.ack.pending.length) sendACK

/-! ## Flights -/

/-- Where a session keeps a flight. -/
inductive Slot where
  | outbound
  | post (typ : PostType)
deriving DecidableEq, Repr

instance : Inhabited Flight := ⟨{ messages := [], interval := 1, positive := one_pos }⟩

def Session.flight (s : Session) : Slot → Option Flight
  | .outbound => s.outbound
  | .post typ => s.post typ

def Session.setFlight (s : Session) (f : Option Flight) : Slot → Session
  | .outbound => { s with outbound := f }
  | .post typ => { s with post := Function.update s.post typ f }

/-- The pointer to the flight in a slot; nothing is stored through a nil pointer. -/
def Slot.ref (slot : Slot) : FlightRef World where
  load w := (w.session.flight slot).getD default
  store f w :=
    { w with session := w.session.setFlight ((w.session.flight slot).map fun _ => f) slot }

/-- The retry loop of `transmit`. Each retry costs one of at most eight MTU reductions. -/
def transmitLoop (slot : Slot) (now : Time) : ℕ → SessionM Unit
  | 0 => throw .recordOverflow
  | fuel + 1 => do
    let s ← getSession
    let outcome ← attempt (slot.ref.transmit now s.fragmentCapacity fun epoch body =>
      sendRecord epoch contentHandshake body)
    let s ← getSession
    match outcome with
    | .ok () => runIf s.handshake.complete sendACK
    | .error e =>
      if e.isMessageTooLong then
        match s.reduceHandshakeMTU s.working.lastSendSize with
        | (false, _) => throw e
        | (true, reduced) => do
          modifySession fun _ => reduced
          transmitLoop slot now fuel
      else throw e

def transmit (slot : Slot) (now : Time) : SessionM Unit :=
  transmitLoop slot now (maxMTUReductions + 1)

/-- `noteRTT` with the flight the sample came from. -/
def noteRTT (sample : Duration) (slot : Slot) : SessionM Unit :=
  if sample = 0 then pure ()
  else do
    modifySession fun s => { s with rtt := sample }
    let s ← getSession
    slot.ref.update fun f =>
      if f.resent then f
      else { f with interval := s.retransmitTimer, positive := s.retransmitTimer_pos }

def Session.noteFlightRTT (s : Session) (f : Flight) (now : Time) : Session :=
  if f.complete ∨ f.resent ∨ f.burstWait ∨ f.firstSent = 0 ∨ now ≤ f.firstSent then s
  else { s with rtt := now - f.firstSent }

def startFlight (messages : List HandshakeMessage) (now : Time) : SessionM Unit := do
  installKeys
  let s ← getSession
  let interval := match s.outbound with
    | some f => if f.resent then f.interval else s.retransmitTimer
    | none => s.retransmitTimer
  match newFlight messages interval with
  | .error e => throw e
  | .ok f => do
    modifySession fun s => { s with outbound := some f }
    transmit .outbound now

def acknowledgeFlight (slot : Slot) (records : List RecordNumber) (authenticated : Bool)
    (now : Time) : SessionM Unit := do
  let s ← getSession
  match s.flight slot with
  | none => pure ()
  | some f => do
    let ((progress, sample), acknowledged) := f.acknowledge records authenticated now
    slot.ref.update fun _ => acknowledged
    noteRTT sample slot
    runIf (progress ∧ acknowledged.complete = false) (transmit slot now)

def retransmitExpired (slot : Slot) (now : Time) : SessionM Unit := do
  let s ← getSession
  match s.flight slot with
  | none => pure ()
  | some f => do
    let (due, expired) := f.expire now
    slot.ref.update fun _ => expired
    match due with
    | .error e => throw e
    | .ok false => pure ()
    | .ok true => transmit slot now

/-- Unanswered retries are evidence against the path MTU, but not the first of them. -/
def expireOutbound (now : Time) : SessionM Unit := do
  let s ← getSession
  match s.outbound with
  | none => pure ()
  | some f => do
    let (due, expired) := f.expire now
    Slot.outbound.ref.update fun _ => expired
    match due with
    | .error e => throw e
    | .ok false => pure ()
    | .ok true => do
      runIf (expired.pendingSend = false ∧ expired.ackedSinceSend = false ∧ 1 < expired.retries)
        (modifySession fun s => (s.reduceHandshakeMTU 0).2)
      Slot.outbound.ref.update fun f => { f with ackedSinceSend := false }
      transmit .outbound now

end Socat.Dtls13
