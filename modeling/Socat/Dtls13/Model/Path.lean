import Socat.Dtls13.Model.PostHandshake

/-! # Path validation and MTU probes

An authenticated record from a new address starts a probe: the old path is challenged first, then
the candidate, and only a response from the challenged path with the current cookie, before the
deadline, moves the peer address. Packets to an address that is not validated are paid for from a
credit of three times the bytes received from it. MTU probes are padded challenges on the validated
path.
-/

namespace Socat.Dtls13

def pathChallenge : UInt8 := 0
def pathResponse : UInt8 := 1
def pathDrop : UInt8 := 2

/-- The most credit a probe can hold. -/
def maxCredit : ℕ := 2 ^ 30

variable [Crypto]

/-- Change the path state in place. -/
def modifyPath (change : PathState → PathState) : SessionM Unit :=
  modifySession fun s => { s with path := s.path.map change }

def PathState.setProbe (p : PathState) (probe : PathProbe) : PathState := { p with probe := some probe }

/-- Account for a record from an address that is not the validated peer. -/
def notePathReceived (p : PathState) (sender : PacketPath) (size : ℕ) : SessionM Unit :=
  runIf (sender.remote ≠ p.peer.remote)
    (note fun h => { h with pathReceived := (sender.remote, size) :: h.pathReceived })

/-! ## Messages -/

/-- A packet goes out to `dest`, and is accounted for unless that is the validated peer. -/
def transportTo (p : PathState) (dest : PacketPath) (packet : Packet) : SessionM Unit := do
  runIf (dest.remote ≠ p.peer.remote)
    (note fun h => { h with pathSent := (dest.remote, packet) :: h.pathSent })
  transport packet

/-- The send callback of `sendMessage`: a packet to an address that is not validated is dropped
unless the probe's credit, or for another address the one-shot credit, covers it. -/
def pathSend (dest : PacketPath) (credit : ℕ) (packet : Packet) : SessionM Unit := do
  let s ← getSession
  match s.path with
  | none => throw .nilDereference
  | some p =>
    let size := packet.bytes.length
    if dest.remote = p.peer.remote then transportTo p dest packet
    else
      match p.probe.filter fun probe => dest = probe.candidate with
      | some probe =>
        if probe.credit < size then pure ()
        else do
          modifyPath fun p => p.setProbe { probe with credit := probe.credit - size }
          transportTo p dest packet
      | none =>
        if credit < size then pure ()
        else transportTo p dest packet

/-- The connection ID of a message to `dest`: a candidate path under validation has its own. -/
def PathState.cidFor (p : PathState) (dest : PacketPath) (peerCID : Bytes) : Bytes :=
  match p.probe with
  | some probe =>
    if dest = probe.candidate ∧ probe.phase = .validateCandidate then probe.cid else peerCID
  | none => peerCID

def sendMessage (dest : PacketPath) (typ : UInt8) (cookie : Bytes) (credit : ℕ) : SessionM Unit := do
  let s ← getSession
  match s.path with
  | none => throw .nilDereference
  | some p => do
    let _ ← sendRecordWith s.currentWriteEpoch contentRRC (typ :: cookie)
      (p.cidFor dest s.handshake.peerCID) (pathSend dest credit)
    pure ()

/-! ## Challenges -/

/-- A fresh cookie and deadline for the phase the probe is in. -/
def PathProbe.challenged (probe : PathProbe) (cookie : Bytes) (timer : Duration) (now : Time) : PathProbe :=
  { probe with
    cookie
    deadline := now + (if probe.phase = .validateCandidate then max timer initialPathChallenge else timer) }

/-- Where the challenge of the current phase goes. -/
def PathState.challengedPath (p : PathState) (probe : PathProbe) : PacketPath :=
  if probe.phase = .validateCandidate then probe.candidate else p.peer

def challenge (now : Time) : SessionM Unit := do
  let s ← getSession
  match s.path with
  | none => throw .nilDereference
  | some p =>
    match p.probe with
    | none => throw .nilDereference
    | some probe => do
      let cookie ← randRead rrcCookieLen
      let probe := probe.challenged cookie s.pathChallengeTimer now
      modifyPath fun p => p.setProbe probe
      note fun h => { h with challenges :=
        ⟨p.challengedPath probe, probe.phase, cookie, probe.deadline⟩ :: h.challenges }
      sendMessage (p.challengedPath probe) pathChallenge cookie 0

/-- Turn to the candidate path, with a spare connection ID when there is one. -/
def Session.beginCandidate (s : Session) : Session :=
  let cid := s.cid.peerSpare.headD s.handshake.peerCID
  { s with
    path := s.path.map fun p => { p with probe := p.probe.map fun probe =>
      { probe with phase := .validateCandidate, cid } }
    cid.peerSpare := s.cid.peerSpare.tail
    cid.want := if s.cid.peerSpare = [] then s.cid.want else decide (s.cid.peerSpare.length ≤ 2) }

def startBasic (now : Time) : SessionM Unit := do
  let s ← getSession
  if s.probing then do
    modifySession Session.beginCandidate
    challenge now
  else throw .nilDereference

/-! ## The path state machine -/

/-- Credit for bytes from the candidate path. -/
def PathState.grant (p : PathState) (sender : PacketPath) (size : ℕ) : PathState :=
  { p with probe := p.probe.map fun probe =>
      if sender = probe.candidate then
        { probe with credit := min maxCredit (probe.credit + 3 * size) }
      else probe }

/-- The newest record number seen so far. -/
def PathState.see (p : PathState) (number : RecordNumber) : PathState :=
  if p.seen = false ∨ number.after p.highest then { p with highest := number, seen := true } else p

def observe (sender : PacketPath) (number : RecordNumber) (typ : UInt8) (size : ℕ) (now : Time) : SessionM Unit := do
  let s ← getSession
  match s.path with
  | none => throw .nilDereference
  | some p => do
    runIf (typ ≠ contentRRC) (notePathReceived p sender size)
    modifyPath fun p => p.see number
    if sender.remote = p.peer.remote ∨ number.epoch < 3 ∨ typ = contentRRC then pure ()
    else if p.probe.isSome then modifyPath fun p => p.grant sender size
    else if (p.seen = true ∧ number.after p.highest = false) ∨ p.allowed sender.remote = false then
      pure ()
    else do
      modifyPath fun p => p.setProbe { candidate := sender, phase := .validateOld, credit := 3 * size }
      challenge now

/-- A validated candidate becomes the peer. -/
def Session.switchPath (s : Session) (probe : PathProbe) : Session :=
  ({ s with
    path := s.path.map fun p => { p with peer := probe.candidate, probe := none }
    handshake.peerCID := probe.cid } : Session).restartMTUConfirm

/-- A response or drop that matches the current challenge. -/
def settleProbe (kind : UInt8) (probe : PathProbe) (now : Time) : SessionM Unit :=
  if kind = pathDrop then
    if probe.phase = .validateOld then startBasic now else pure ()
  else if probe.phase = .validateCandidate then modifySession fun s => s.switchPath probe
  else modifyPath fun p => { p with probe := none }

def receivePath (sender : PacketPath) (body : Bytes) (size : ℕ) (now : Time) : SessionM Unit := do
  let s ← getSession
  match s.path, body with
  | none, _ => throw .nilDereference
  | some _, [] => throw .decode
  | some p, kind :: cookie => do
    notePathReceived p sender size
    if pathDrop < kind then pure ()
    else if cookie.length ≠ rrcCookieLen then throw .decode
    else if kind = pathChallenge then do
      modifyPath fun p => p.grant sender size
      sendMessage sender (if sender.socket ≠ p.peer.socket then pathDrop else pathResponse) cookie
        (3 * size)
    else
      match p.probe with
      | none => pure ()
      | some probe =>
        if cookie ≠ probe.cookie ∨ probe.deadline ≤ now ∨ sender ≠ p.challengedPath probe then pure ()
        else settleProbe kind probe now

def tickPath (now : Time) : SessionM Unit := do
  let s ← getSession
  match s.path with
  | none => pure ()
  | some p =>
    match p.probe with
    | none => pure ()
    | some probe =>
      if now < probe.deadline then pure ()
      else if probe.phase = .validateOld then startBasic now
      else modifyPath fun p => { p with probe := none }

/-! ## MTU probes -/

def Session.canSendMTUProbe (s : Session) : Except Err Unit :=
  if s.mtuDiscoveryEnabled = false then .error .probeDisabled
  else if s.probing ∨ s.keyUpdate.localPending ∨ s.keyUpdate.updating then .error .probeBusy
  else if s.mtu.outstanding.isSome then .error .probePending
  else .ok ()

/-- The send callback of a probe: only a packet of exactly the probed size counts. -/
def probeSend (datagramSize : ℕ) (packet : Packet) : SessionM Unit := do
  throwIf (packet.bytes.length ≠ datagramSize) .probeSize
  transport packet

def sendMTUProbe (datagramSize : ℕ) (now : Time) (kind : MTUProbeKind) : SessionM Unit := do
  let s ← getSession
  Machine.lift s.canSendMTUProbe
  throwIf (s.mtuCeiling < datagramSize) .probeSize
  let pad ← Machine.lift (rrcProbePadding datagramSize s.probeCID.length s.recordTagLen)
  let cookie ← randRead rrcCookieLen
  let probe : MTUProbe :=
    { cookie
      size := datagramSize
      generation := s.mtu.generation
      deadline := now + probeTimeout
      path := (s.path.map PathState.peer).getD {}
      kind }
  modifySession fun s => { s with mtu.outstanding := some probe }
  match ← attempt (sendRecordLimited s.currentWriteEpoch contentRRC (pathChallenge :: cookie)
      s.probeCID pad s.mtuCeiling (probeSend datagramSize)) with
  | .ok _ => pure ()
  | .error e => do
    modifySession fun s => { s with mtu.outstanding := none }
    throw (if e.isMessageTooLong then .probeTooBig else e)

/-- What a failed probe does to the search. -/
def Session.probeRefused (s : Session) (size : ℕ) (now : Time) (kind : MTUProbeKind) (e : Err) : Session :=
  if e = .probeTooBig ∨ e.isMessageTooLong then
    match kind with
    | .search =>
      let s := { s with
        mtu.finder := s.mtu.finder.rejectHard size
        mtu.nextProbe := now + probePace }
      if s.mtu.finder.done then s.scheduleMTUWatch now else s
    | .confirm => s.onMTUProbeLost { size, kind := .confirm } now true
  else if e = .probeSize ∨ e = .recordOverflow then s.scheduleMTUWatch now
  else { s with mtu.nextProbe := now + probePace }

/-- What a sent probe does to the search. -/
def Session.probeSent (s : Session) (size : ℕ) (kind : MTUProbeKind) : Session :=
  { s with
    mtu.finder := match kind with
      | .search => { s.mtu.finder with inFlight := size, probes := s.mtu.finder.probes + 1 }
      | .confirm => s.mtu.finder
    mtu.appSinceProbe := false }

def sendDiscoveryProbe (size : ℕ) (now : Time) (kind : MTUProbeKind) : SessionM Unit := do
  let s ← getSession
  let size := max size s.mtuProbeMin
  if s.mtuProbeCeiling < size ∨ (kind = .search ∧ (size : ℤ) ≤ s.mtu.finder.floor) then
    modifySession fun s => s.scheduleMTUWatch now
  else
    match ← attempt (sendMTUProbe size now kind) with
    | .ok () => modifySession fun s => s.probeSent size kind
    | .error e => modifySession fun s => s.probeRefused size now kind e

/-- Probe the next size of the search, or end it. -/
def searchMTU (now : Time) : SessionM Unit := do
  let s ← getSession
  let size := s.mtu.finder.nextSize
  if size = 0 then modifySession fun s => s.scheduleMTUWatch now
  else sendDiscoveryProbe size.toNat now .search

def watchMTU (now : Time) : SessionM Unit := do
  let s ← getSession
  if s.mtu.appSinceProbe = false then pure ()
  else if s.mtu.raiseAt ≠ 0 ∧ s.mtu.raiseAt ≤ now then do
    modifySession fun s => ({ s with mtu.appSinceProbe := false } : Session).beginMTUSearch now
    let s ← getSession
    runIf (s.mtu.phase = .search) (searchMTU now)
  else if s.mtu.confirmAt ≠ 0 ∧ s.mtu.confirmAt ≤ now then do
    modifySession fun s => { s with
      mtu.appSinceProbe := false
      mtu.phase := .confirm
      mtu.searchAfterConfirm := false
      mtu.confirmFails := 0 }
    let s ← getSession
    sendDiscoveryProbe s.effectiveMTU now .confirm
  else pure ()

def tickMTUDiscovery (now : Time) : SessionM Unit := do
  let s ← getSession
  if s.mtu.outstanding.isSome then pure ()
  else if s.mtuDiscoveryEnabled = false then modifySession fun s => { s with mtu.phase := .disabled }
  else do
    runIf (s.mtu.phase = .disabled) (modifySession Session.restartMTUConfirm)
    let s ← getSession
    if s.mtu.nextProbe ≠ 0 ∧ now < s.mtu.nextProbe then pure ()
    else
      match s.mtu.phase with
      | .disabled => pure ()
      | .confirm => sendDiscoveryProbe s.effectiveMTU now .confirm
      | .search => searchMTU now
      | .watch => watchMTU now

/-- A probe whose deadline passed is lost. -/
def Session.expireMTUProbe (s : Session) (now : Time) : Session :=
  match s.mtu.outstanding with
  | some probe =>
    if probe.deadline ≤ now then
      ({ s with mtu.outstanding := none } : Session).onMTUProbeLost probe now false
    else s
  | none => s

def tickMTUProbe (now : Time) : SessionM Unit := do
  modifySession fun s => s.expireMTUProbe now
  tickMTUDiscovery now

end Socat.Dtls13
