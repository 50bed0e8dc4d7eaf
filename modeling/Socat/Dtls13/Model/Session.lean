import Socat.Dtls13.Model.Path

/-! # The session's event handlers

`receiveFrom` takes one datagram from one address: it parses all records before it opens any, opens
each record under the newest read epoch that matches the two epoch bits, and dispatches on the
content type. `tick` runs the timers and `application` sends user data. Handshake messages go to the
handshake handler until it reports completion, and to the post-handshake operations afterwards.
-/

namespace Socat.Dtls13

def alertCloseNotify : UInt8 := 0
def alertUserCanceled : UInt8 := 90

/-- Failed authentications an epoch may see before its keys are given up. -/
def failureLimit : ℕ := 2 ^ 36

namespace Session

/-- The records of a datagram and whether one of them carries a connection ID. One malformed record
or unknown connection ID rejects the whole datagram. -/
def parseDatagram (s : Session) : ℕ → Bytes → List Record → Bool → Option (List Record × Bool)
  | 0, _, records, hasCID => some (records, hasCID)
  | fuel + 1, datagram, records, hasCID =>
    if datagram = [] then some (records, hasCID)
    else
      match parseRecord datagram s.handshake.localCID.length with
      | .error _ => none
      | .ok (r, rest) =>
        if r.cid ≠ [] ∧ s.acceptCID r.cid = false then none
        else s.parseDatagram fuel rest (records ++ [r]) (hasCID || !r.cid.isEmpty)

/-- A path other than the peer's needs a complete handshake with return routability and
connection IDs, and an address the filter allows. -/
def rejectsSource (s : Session) (sender : PacketPath) : Bool :=
  s.path.any fun p => sender.remote != p.peer.remote &&
    (!s.handshake.complete || !s.handshake.rrc || !s.handshake.cidNegotiated ||
      !p.allowed sender.remote)

/-- The peer closed its direction at the earliest close record seen. -/
def notePeerClosed (s : Session) (number : RecordNumber) : Session :=
  if s.peerClosed.all fun closed => closed.after number then { s with peerClosed := some number } else s

/-- A processed handshake message ends the flight it answers. -/
def finishOutbound (s : Session) (now : Time) : Session :=
  match s.outbound with
  | none => s
  | some f => { s.noteFlightRTT f now with outbound := some f.finish }

end Session

variable [Crypto]

/-! ## Opening records -/

/-- `openRecord` answers `none` where the source returns `ok = false`. -/
def openRecord (r : Record) (hasCID : Bool) : SessionM (Option (RecordNumber × UInt8 × Bytes)) := do
  let s ← getSession
  if r.encrypted = false then
    pure (if s.epochs.installed = ∅ then some (r.number, r.typ, r.body) else none)
  else if (s.handshake.cidNegotiated ∧ s.handshake.localCID ≠ [] ∧ hasCID = false) ∨
      (s.handshake.cidNegotiated = false ∧ r.cid ≠ []) then pure none
  else
    match s.epochs.select r.number.epoch with
    | none => pure none
    | some epoch =>
      match s.epochs.read.lookup epoch with
      | none => pure none
      | some keys =>
        match keys.keys.decodeRecord r epoch r.cid keys.window with
        | .error .authentication => do
          modifySession fun s => { s with epochs := s.epochs.countFailure epoch keys }
          throwIf (failureLimit ≤ min (keys.failures + 1) maxUint64) .keyMaterial
          pure none
        | .error .replay => pure none
        | .error e => throw (if e = .record then .unexpectedMessage else e)
        | .ok ((number, typ, body), window) => do
          modifySession fun s => { s with epochs := s.epochs.authenticate epoch keys window }
          usedLocalCID r.cid
          note fun h => { h with opened := ⟨number, typ, body, r.cid⟩ :: h.opened }
          pure (some (number, typ, body))

/-! ## Handshake messages -/

/-- Run the reassembler on a record's body. -/
def addFragments (number : RecordNumber) (body : Bytes) : SessionM Bool := do
  let w ← get
  let (result, reassembly, reserve) := w.session.reassembly.add w.env.reserve body number.epoch
  set { w with session.reassembly := reassembly, env.reserve := reserve }
  Machine.lift result

def popMessage : SessionM (Option HandshakeMessage) := do
  let w ← get
  let (m, reassembly, reserve) := w.session.reassembly.pop w.env.reserve
  set { w with session.reassembly := reassembly, env.reserve := reserve }
  return m

/-- Run the handshake handler on a message. -/
def callHandler (m : HandshakeMessage) : SessionM (List HandshakeMessage) := do
  let w ← get
  match HandshakeM.handle m ⟨w.session.handshake, w.env.handshakes.headD {}⟩ with
  | .ok response after => do
    set { w with
      session.handshake := after.handshake
      env.handshakes := w.env.handshakes.tail
      history.answered :=
        (m, (w.session.outbound.getD default).messages.map OutboundMessage.message) :: w.history.answered }
    return response
  | .error e after => do
    set { w with session.handshake := after.handshake, env.handshakes := w.env.handshakes.tail }
    throw e

/-- Start the flight that answers a message. The first protected flight drops queued ACKs. -/
def respond (response : List HandshakeMessage) (now : Time) : SessionM Unit := do
  let s ← getSession
  runIf (s.currentWriteEpoch < 2) (modifySession fun s => { s with ack := {} })
  startFlight response now

def handleMessage (m : HandshakeMessage) (now : Time) : SessionM Unit := do
  let response ← callHandler m
  modifySession fun s => s.finishOutbound now
  installKeys
  runIf (response ≠ []) (respond response now)
  sendACK

/-- The loop of `processHandshakes`; every round takes one entry out of the reassembler. -/
def processLoop (now : Time) : ℕ → SessionM Unit
  | 0 => pure ()
  | fuel + 1 => do
    match ← popMessage with
    | none => pure ()
    | some m => do
      let s ← getSession
      if s.handshake.complete then do
        receivePost m
        processLoop now fuel
      else do
        handleMessage m now
        processLoop now fuel

def processHandshakes (now : Time) : SessionM Unit := do
  let s ← getSession
  processLoop now (s.reassembly.pending.entries.length + 1)

def receiveHandshake (number : RecordNumber) (body : Bytes) (now : Time) : SessionM Unit := do
  let accepted ← addFragments number body
  runIf accepted (queueAcknowledgement number now)
  processHandshakes now

/-! ## Datagrams -/

def receiveAlert (number : RecordNumber) (body : Bytes) (encrypted : Bool) : SessionM Unit :=
  match body with
  | [_, description] =>
    if description = alertCloseNotify then modifySession fun s => s.notePeerClosed number
    else throwIf (description ≠ alertUserCanceled) (.alert description)
  | _ => throwIf encrypted .decode

def receiveACK (body : Bytes) (encrypted : Bool) (now : Time) : SessionM Unit :=
  match parseACK body with
  | .error _ => pure ()
  | .ok acks => do
    acknowledgeFlight .outbound acks encrypted now
    acknowledgePost acks encrypted now

def receiveRRC (number : RecordNumber) (body : Bytes) (sender : PacketPath) (size : ℕ) (now : Time) :
    SessionM Unit := do
  let s ← getSession
  throwIf (s.handshake.rrc = false ∨ s.handshake.complete = false ∨ number.epoch < 3 ∨ s.path.isNone)
    .unexpectedMessage
  receivePath sender body size now
  modifySession fun s => s.receiveMTUProbe sender body now

/-- Application data counts once the handshake is complete. -/
def receiveData (number : RecordNumber) (body : Bytes) : SessionM (List Bytes) := do
  let s ← getSession
  if 3 ≤ number.epoch ∧ s.handshake.complete then do
    modifySession Session.noteMTUActivity
    pure [body]
  else pure []

/-- The switch over the content type. -/
def dispatch (number : RecordNumber) (typ : UInt8) (body : Bytes) (encrypted : Bool)
    (sender : PacketPath) (size : ℕ) (now : Time) : SessionM (List Bytes) :=
  if typ = contentHandshake then do
    receiveHandshake number body now
    pure []
  else if typ = contentACK then do
    receiveACK body encrypted now
    pure []
  else if typ = contentData then receiveData number body
  else if typ = contentAlert then do
    receiveAlert number body encrypted
    pure []
  else if typ = contentRRC then do
    receiveRRC number body sender size now
    pure []
  else pure []

/-- One record of a datagram: the application data it delivers. -/
def receiveRecord (r : Record) (hasCID : Bool) (sender : PacketPath) (now : Time) : SessionM (List Bytes) := do
  let opened ← openRecord r hasCID
  match opened with
  | none => pure []
  | some (number, typ, body) => do
    let s ← getSession
    if s.peerClosed.any fun closed => number.after closed then pure []
    else do
      let size := r.header.length + r.body.length
      runIf (s.path.isSome ∧ s.handshake.complete ∧ r.encrypted) (observe sender number typ size now)
      dispatch number typ body r.encrypted sender size now

def receiveRecords (hasCID : Bool) (sender : PacketPath) (now : Time) :
    List Record → SessionM (List Bytes)
  | [] => pure []
  | r :: rest => do
    let delivered ← receiveRecord r hasCID sender now
    let later ← receiveRecords hasCID sender now rest
    pure (delivered ++ later)

/-- What follows the records of a datagram. -/
def finishReceive (now : Time) : SessionM Unit := do
  advancePost now
  let s ← getSession
  runIf (s.handshake.complete ∧ s.handshake.client = false ∧ s.ack.pending ≠ []) sendACK

def receiveFrom (datagram : Bytes) (sender : PacketPath) (now : Time) : SessionM (List Bytes) := do
  modifySession fun s => s.expireHandshakeRead now
  let s ← getSession
  if s.rejectsSource sender then pure []
  else
    match s.parseDatagram datagram.length datagram [] false with
    | none => pure []
    | some (records, hasCID) => do
      runIf (s.handshake.complete = false ∧ records ≠ [])
        (modifySession fun s => { s with handshakeReceived := now })
      let application ← receiveRecords hasCID sender now records
      finishReceive now
      pure application

/-! ## Timers and user data -/

/-- The acknowledgement timer of `tick`. -/
def tickACK (now : Time) : SessionM Unit := do
  let s ← getSession
  runIf (s.ack.deadline ≠ 0 ∧ s.ack.deadline ≤ now) (sendScheduledACK now)

def tick (now : Time) : SessionM Unit := do
  modifySession fun s => s.expireHandshakeRead now
  tickMTUProbe now
  tickPath now
  tickACK now
  expireOutbound now
  retransmitExpired (.post .newConnectionID) now
  retransmitExpired (.post .requestConnectionID) now
  retransmitExpired (.post .keyUpdate) now
  advancePost now

/-- Send user data under the current write epoch. -/
def sendApplication (body : Bytes) : SessionM Unit := do
  let s ← getSession
  match ← attempt (sendRecord s.currentWriteEpoch contentData body) with
  | .ok _ => modifySession Session.noteMTUActivity
  | .error e => do
    runIf e.isMessageTooLong (modifySession Session.onApplicationTooBig)
    throw e

def application (body : Bytes) : SessionM Unit := do
  let s ← getSession
  throwIf (s.handshake.complete = false) .unexpectedMessage
  throwIf s.probing .pathPending
  throwIf (s.keyUpdate.localPending ∨ s.keyUpdate.updating ∨ s.handshakeFlightSent = false)
    .operationPending
  match (s.epochs.write.lookup s.currentWriteEpoch).bind WriteEpoch.keys with
  | none => throw .nilDereference
  | some keys =>
    if keys.recordLimit - 1024 ≤ ((s.epochs.write.lookup s.currentWriteEpoch).map WriteEpoch.sequence).getD 0
    then do
      modifySession fun s => { s with keyUpdate.localPending := true }
      throw .operationPending
    else sendApplication body

end Socat.Dtls13
