import Socat.Dtls13.Model.Send

/-! # Post-handshake operations

After the handshake each side may update its keys, offer connection IDs and ask for more. Every
operation is one reliable message in a flight of its own. A KeyUpdate stops further messages until
every flight is acknowledged; only then does the writer move to the next epoch. The reader installs
the next epoch when it processes the KeyUpdate. `advancePost` runs after every event and starts
whatever has become possible.
-/

namespace Socat.Dtls13

/-- RFC 9147 section 5.8.1: twice the maximum segment lifetime. -/
def handshakeReadRetention : Duration := 240 * initialRetransmit

/-- Writers stop before the epoch field is exhausted. -/
def lastWriteEpoch : ℕ := 2 ^ 48 - 1

namespace Session

def discardHandshakeRead (s : Session) : Session :=
  { s with epochs := s.epochs.discardHandshakeRead, epoch2ReadKeyExpiry := 0 }

def expireHandshakeRead (s : Session) (now : Time) : Session :=
  if s.epoch2ReadKeyExpiry ≠ 0 ∧ s.epoch2ReadKeyExpiry ≤ now then s.discardHandshakeRead else s

/-- An incomplete flight in `post`. -/
def postPending (s : Session) : Bool := postTypes.any fun typ => (s.post typ).any fun f => !f.complete

def cidBusy (s : Session) : Bool :=
  s.keyUpdate.updating || s.flightPending || (s.post .newConnectionID).isSome ||
    !s.cid.immediate.isEmpty || s.probing

/-- The connection IDs this side accepts. -/
def localCIDs (s : Session) : List Bytes := s.cid.localIDs.getD [s.handshake.localCID]

def acceptCID (s : Session) (cid : Bytes) : Bool := s.localCIDs.contains cid

/-- `s.cid.local` is filled from the handshake when it is still nil. -/
def adoptLocal (s : Session) : Session := { s with cid.localIDs := some s.localCIDs }

end Session

variable [Crypto]

/-! ## Starting a message -/

/-- A new message takes the next sequence number and a flight of its own. -/
def World.issue (w : World) (typ : PostType) (f : Flight) : World :=
  { w with session.post := Function.update w.session.post typ (some f) }

/-- After a failed transmission a flight that sent nothing is dropped and its sequence number is
free again; one that sent something gets a timer. -/
def World.settlePost (w : World) (typ : PostType) (now : Time) : World :=
  match w.session.post typ with
  | none => w
  | some f =>
    if f.sent.entries = [] then
      { w with
        session.post := Function.update w.session.post typ none
        session.handshake.sequence := w.session.handshake.sequence - f.messages.length }
    else if f.deadline = 0 then
      { w with session.post :=
          Function.update w.session.post typ (some { f with deadline := now + f.interval }) }
    else w

def startPost (typ : PostType) (body : Bytes) (now : Time) : SessionM Unit := do
  let s ← getSession
  if s.handshake.complete = false ∨ s.keyUpdate.updating ∨ s.flightPending then
    throw .operationPending
  else if (s.post typ).any (fun f => !f.complete) then throw .operationPending
  else
    match s.handshake.message typ.code s.currentWriteEpoch body with
    | .error e => throw e
    | .ok (m, handshake) => do
      modifySession fun s => { s with handshake }
      match newFlight [m] s.retransmitTimer with
      | .error e => throw e
      | .ok f => do
        modify fun w => w.issue typ f
        match ← attempt (transmit (.post typ) now) with
        | .ok () => pure ()
        | .error e => do
          modify fun w => w.settlePost typ now
          throw e

/-! ## Connection IDs -/

def usedLocalCID (cid : Bytes) : SessionM Unit := do
  let s ← getSession
  if s.cid.immediate = [] ∨ cid ∉ s.cid.immediate then pure ()
  else do
    setLocal
    modifySession fun s => { s with cid.localIDs := some s.cid.immediate, cid.immediate := [] }

def requestCIDs (count : UInt8) (now : Time) : SessionM Unit := do
  let s ← getSession
  throwIf (s.handshake.cidNegotiated = false ∨ s.handshake.peerCID = []) .unexpectedMessage
  throwIf s.cid.requested .operationPending
  startPost .requestConnectionID [count] now
  modifySession fun s => { s with cid.requested := true }

/-- Draw connection IDs that differ from the existing ones and from each other. Every round takes
bytes from the random source, which bounds the rounds. -/
def drawCIDs (existing : List Bytes) (size count : ℕ) : ℕ → List Bytes → SessionM (List Bytes)
  | 0, _ => throw .random
  | fuel + 1, ids =>
    if count ≤ ids.length then pure ids
    else do
      let id ← randRead size
      drawCIDs existing size count fuel (if id ∉ existing ∧ id ∉ ids then ids ++ [id] else ids)

def World.offer (w : World) (previous ids : List Bytes) (immediate : Bool) : World :=
  { w with
    session.cid.localIDs := some (previous ++ ids)
    session.cid.immediate := if immediate then ids else w.session.cid.immediate }

def World.withdraw (w : World) (previous : List Bytes) : World :=
  { w with
    session.cid.localIDs := some previous
    session.cid.immediate := [] }

/-- The rest of `provideCIDs` once the new IDs are drawn. -/
def offerCIDs (ids : List Bytes) (immediate : Bool) (now : Time) : SessionM Unit := do
  let previous := (← getSession).localCIDs
  match encodeCIDs ids immediate with
  | .error e => throw e
  | .ok body => do
    setLocal
    modify fun w => w.offer previous ids immediate
    let outcome ← attempt (startPost .newConnectionID body now)
    let s ← getSession
    match outcome with
    | .ok () => pure ()
    | .error e =>
      if (s.post .newConnectionID).isSome then throw e
      else do
        setLocal
        modify fun w => w.withdraw previous
        throw e

def provideCIDs (count : ℕ) (immediate : Bool) (now : Time) : SessionM Unit := do
  let s ← getSession
  throwIf (s.handshake.cidNegotiated = false ∨ s.handshake.localCID = []) .unexpectedMessage
  throwIf s.cidBusy .operationPending
  modifySession Session.adoptLocal
  let w ← get
  let existing := w.session.localCIDs
  let count := if immediate then 1 else min count (maxConnectionIDs - existing.length)
  let ids ← drawCIDs existing w.session.handshake.localCID.length count (w.env.random.length + 1) []
  offerCIDs ids immediate now

def respondCIDRequest (now : Time) : SessionM Unit := do
  let s ← getSession
  match s.cid.response with
  | none => pure ()
  | some count =>
    if s.cidBusy then pure ()
    else do
      modifySession Session.adoptLocal
      let s ← getSession
      if maxConnectionIDs ≤ s.localCIDs.length ∧ 0 < count then provideCIDs 1 true now
      else do
        modifySession fun s => { s with cid.response := none }
        provideCIDs count.toNat false now

/-- One offered spare: kept unless the pool is full or the ID is known. -/
def Session.addSpare (s : Session) (id : Bytes) : Session :=
  if s.cid.peerSpare.length < maxConnectionIDs ∧ id ≠ s.handshake.peerCID ∧ id ∉ s.cid.peerSpare then
    { s with cid.peerSpare := s.cid.peerSpare ++ [id] }
  else s

/-- Switch to a rotated connection ID, in a pending validation of a new path as well. -/
def Session.rotatePeerCID (s : Session) (id : Bytes) (spares : List Bytes) : Session :=
  { s with
    handshake.peerCID := id
    cid.peerSpare := spares
    path := s.path.map fun p =>
      { p with probe := p.probe.map fun probe =>
          if probe.phase = .validateCandidate then { probe with cid := id } else probe } }

/-- What a NewConnectionId changes. -/
def Session.takeCIDs (s : Session) (ids : List Bytes) (immediate : Bool) : Session :=
  if immediate then s.rotatePeerCID (ids.headD []) ids.tail
  else { ids.foldl Session.addSpare s with cid.requested := false }

def receiveCIDs (m : HandshakeMessage) : SessionM Unit := do
  let s ← getSession
  throwIf (s.handshake.peerCIDUpdates = false) .unexpectedMessage
  match parseCIDs m.body with
  | .error e => throw e
  | .ok (ids, immediate) => do
    modifySession fun s => s.takeCIDs ids immediate
    sendACK

/-! ## Advancing -/

def updatedKeys (cipherSuite : ℕ) (secret : Bytes) : Except Err TrafficKeys := do
  let updated ← nextTrafficSecret cipherSuite secret
  newTrafficKeys cipherSuite updated

/-- Once the handshake is acknowledged its secrets and write keys go. The client drops the read keys
too; the server keeps them for a while, to answer a repeated final flight. -/
def Session.retireHandshake (s : Session) (now : Time) : Session :=
  let s := { s with
    handshake.schedule := none
    handshake.clientApplication :=
      if s.handshake.schedule.isSome then [] else s.handshake.clientApplication
    handshake.serverApplication :=
      if s.handshake.schedule.isSome then [] else s.handshake.serverApplication
    epochs := s.epochs.retireHandshakeWrite }
  if (s.epochs.read.lookup 2).isNone then s
  else if s.handshake.client then s.discardHandshakeRead
  else if s.epoch2ReadKeyExpiry = 0 then
    { s with epoch2ReadKeyExpiry := now + handshakeReadRetention }
  else s

/-- Move the writer to the next epoch. -/
def switchWriteKeys : SessionM Unit := do
  let s ← getSession
  match s.epochs.write.lookup s.currentWriteEpoch with
  | none => throw .nilDereference
  | some e =>
    match updatedKeys s.handshake.cipherSuite e.secret with
    | .error cause => throw cause
    | .ok keys => modifySession fun s => { s with
        epochs := s.epochs.switchWrite keys
        keyUpdate.updating := false }

def Session.dropComplete (s : Session) : Session :=
  { s with post := fun typ => (s.post typ).filter fun f => !f.complete }

/-- A KeyUpdate is in progress once a record of it was sent. -/
def Session.keyUpdateStarted (s : Session) (request : Bool) : Session :=
  { s with
    keyUpdate.updating := true
    keyUpdate.localPending := false
    keyUpdate.requestPeer := false
    keyUpdate.awaitingPeer := s.keyUpdate.awaitingPeer || request }

def startKeyUpdate (now : Time) : SessionM Unit := do
  let s ← getSession
  if s.keyUpdate.localPending = false then pure ()
  else if lastWriteEpoch ≤ s.currentWriteEpoch then throw .sequence
  else do
    let request := s.keyUpdate.requestPeer && !s.keyUpdate.awaitingPeer
    let outcome ← attempt (startPost .keyUpdate [if request then 1 else 0] now)
    let s ← getSession
    match outcome with
    | .ok () => modifySession fun s => s.keyUpdateStarted request
    | .error e =>
      if (s.post .keyUpdate).all (fun f => f.sent.entries.isEmpty) then throw e
      else do
        modifySession fun s => s.keyUpdateStarted request
        throw e

/-- The wanted request for spares, when nothing stands in its way. -/
def startCIDRequest (now : Time) : SessionM Unit := do
  let s ← getSession
  if s.keyUpdate.updating = false ∧ s.cid.want ∧ s.cid.requested = false ∧
      (s.post .requestConnectionID).isNone ∧ s.probing = false then do
    modifySession fun s => { s with cid.want := false }
    runIf (s.handshake.cidNegotiated ∧ s.handshake.peerCID ≠ []) (requestCIDs 4 now)
  else pure ()

def advancePost (now : Time) : SessionM Unit := do
  let s ← getSession
  if s.handshake.complete = false ∨ s.flightPending then pure ()
  else do
    modifySession fun s => s.retireHandshake now
    let s ← getSession
    if s.keyUpdate.updating ∧ s.postPending then pure ()
    else do
      runIf s.keyUpdate.updating switchWriteKeys
      modifySession Session.dropComplete
      startKeyUpdate now
      respondCIDRequest now
      startCIDRequest now

def requestKeyUpdate (requestPeer : Bool) (now : Time) : SessionM Unit := do
  let s ← getSession
  throwIf (s.handshake.complete = false) .unexpectedMessage
  throwIf (lastWriteEpoch ≤ s.currentWriteEpoch) .sequence
  modifySession fun s => { s with
    keyUpdate.localPending := true
    keyUpdate.requestPeer :=
      s.keyUpdate.requestPeer || (requestPeer && !s.keyUpdate.awaitingPeer) }
  advancePost now

def acknowledgePost (records : List RecordNumber) (authenticated : Bool) (now : Time) : SessionM Unit := do
  acknowledgeFlight (.post .newConnectionID) records authenticated now
  acknowledgeFlight (.post .requestConnectionID) records authenticated now
  acknowledgeFlight (.post .keyUpdate) records authenticated now
  advancePost now

/-! ## Processing a message -/

/-- What a KeyUpdate changes on the reading side. -/
def Session.takeKeyUpdate (s : Session) (epoch : ℕ) (keys : TrafficKeys) (request : Bool) : Session :=
  { s with
    epochs := s.epochs.updateRead epoch keys
    epoch2ReadKeyExpiry := 0
    keyUpdate.awaitingPeer := false
    keyUpdate.requestPeer := false
    keyUpdate.localPending :=
      s.keyUpdate.localPending || (request && decide (s.currentWriteEpoch < lastWriteEpoch)) }

def receiveKeyUpdate (m : HandshakeMessage) : SessionM Unit := do
  let s ← getSession
  match m.body with
  | [request] =>
    if 1 < request ∨ m.epoch ≠ s.epochs.readApplicationEpoch then throw .illegalParameter
    else if m.epoch = maxUint64 then throw .sequence
    else
      match s.epochs.read.lookup m.epoch with
      | none => do
        note fun h => { h with faults := m.epoch :: h.faults }
        throw .nilDereference
      | some r =>
        match updatedKeys s.handshake.cipherSuite r.secret with
        | .error e => throw e
        | .ok keys => do
          modifySession fun s => s.takeKeyUpdate m.epoch keys (request == 1)
          sendACK
  | _ => throw .decode

def receiveTicket (m : HandshakeMessage) : SessionM Unit := do
  let s ← getSession
  throwIf (s.handshake.client = false) .unexpectedMessage
  match validateSessionTicket m.body with
  | .error e => throw e
  | .ok () => sendACK

def receiveCIDRequest (m : HandshakeMessage) : SessionM Unit := do
  let s ← getSession
  throwIf (s.handshake.cidNegotiated = false ∨ s.handshake.localCID = []) .unexpectedMessage
  match m.body with
  | [count] => do
    throwIf s.cid.response.isSome (.alert 52)
    modifySession fun s => { s with cid.response := some count }
    sendACK
  | _ => throw .decode

def receivePost (m : HandshakeMessage) : SessionM Unit := do
  let s ← getSession
  throwIf (m.epoch < 3 ∨ m.epoch ≠ s.epochs.readApplicationEpoch) .unexpectedMessage
  if m.typ = msgKeyUpdate then receiveKeyUpdate m
  else if m.typ = msgNewSessionTicket then receiveTicket m
  else if m.typ = msgNewConnectionID then receiveCIDs m
  else if m.typ = msgRequestConnectionID then receiveCIDRequest m
  else throw .unexpectedMessage

end Socat.Dtls13
