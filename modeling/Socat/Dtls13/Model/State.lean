import Socat.Dtls13.Model.Flight
import Socat.Dtls13.Model.Handshake
import Socat.ToMathlib.FiniteMap

/-! # The state of an association

`Session` follows the source's struct: traffic keys by epoch, the reassembler, the outbound
handshake flight and the post-handshake flights, the ACK queue, key-update and connection-ID state,
path validation and path MTU discovery. A `World` adds what the session meets outside: `Env` holds
the answers of the transport, the random source, the demultiplexer hook, the memory budget and of
what the handshake takes from outside, and `History` records what happened, for statements over whole runs; no
computation reads it.
-/

namespace Socat.Dtls13

/-! ## Epochs -/

/-- Keys for one direction of receiving. The source stores the secret beside the keys that are
expanded from it; here it is the secret of the keys. -/
structure ReadEpoch where
  keys : TrafficKeys
  window : ReplayWindow := {}
  failures : ℕ := 0
deriving DecidableEq

def ReadEpoch.secret (r : ReadEpoch) : Bytes := r.keys.secret

/-- Keys for one direction of sending; the plaintext epoch has none. -/
structure WriteEpoch where
  keys : Option TrafficKeys := none
  sequence : ℕ := 0
deriving DecidableEq

def WriteEpoch.secret (e : WriteEpoch) : Bytes := (e.keys.map TrafficKeys.secret).getD []

/-- `installed` is a bit set over epochs. -/
structure TrafficEpochs where
  read : AList (fun _ : ℕ => ReadEpoch) := ∅
  write : AList (fun _ : ℕ => WriteEpoch) := AList.singleton 0 {}
  installed : Finset ℕ := ∅
  readApplicationEpoch : ℕ := 0
deriving DecidableEq

namespace TrafficEpochs

/-- The highest epoch with write keys. -/
def currentWrite (t : TrafficEpochs) : ℕ := t.write.keys.foldr max 0

/-- The counter of a write epoch after one more record. -/
def number (t : TrafficEpochs) (epoch : ℕ) (e : WriteEpoch) : TrafficEpochs :=
  { t with write := t.write.insert epoch { e with sequence := e.sequence + 1 } }

/-- New keys for both directions of a handshake or application epoch. -/
def install (t : TrafficEpochs) (epoch : ℕ) (readKeys writeKeys : TrafficKeys) : TrafficEpochs where
  read := t.read.insert epoch { keys := readKeys }
  write := t.write.insert epoch { keys := some writeKeys }
  installed := insert epoch t.installed
  readApplicationEpoch := if epoch = 3 then 3 else t.readApplicationEpoch

/-- The newest read epoch whose low bits match. -/
def select (t : TrafficEpochs) (bits : ℕ) : Option ℕ :=
  (t.read.keys.filter fun candidate => candidate % 4 == bits).max?

/-- An epoch whose record authenticated keeps its moved window; older application epochs go. -/
def authenticate (t : TrafficEpochs) (epoch : ℕ) (r : ReadEpoch) (window : ReplayWindow) : TrafficEpochs :=
  let read := t.read.insert epoch { r with window }
  { t with read :=
      if 4 ≤ epoch then read.eraseAll (read.keys.filter fun old => 3 ≤ old && decide (old < epoch))
      else read }

def countFailure (t : TrafficEpochs) (epoch : ℕ) (r : ReadEpoch) : TrafficEpochs :=
  let failures := if r.failures < maxUint64 then r.failures + 1 else r.failures
  { t with read := t.read.insert epoch { r with failures } }

def discardHandshakeRead (t : TrafficEpochs) : TrafficEpochs := { t with read := t.read.erase 2 }

def retireHandshakeWrite (t : TrafficEpochs) : TrafficEpochs :=
  { t with write := (t.write.erase 0).erase 2 }

/-- The writer moves to the next epoch. -/
def switchWrite (t : TrafficEpochs) (keys : TrafficKeys) : TrafficEpochs :=
  { t with write := (t.write.insert (t.currentWrite + 1) { keys := some keys }).erase t.currentWrite }

/-- The reader installs the epoch after `epoch` and drops the handshake epoch. -/
def updateRead (t : TrafficEpochs) (epoch : ℕ) (keys : TrafficKeys) : TrafficEpochs :=
  { t with
    readApplicationEpoch := epoch + 1
    read := (t.read.insert (epoch + 1) { keys }).erase 2 }

end TrafficEpochs

/-! ## Post-handshake operations -/

structure AckState where
  pending : List RecordNumber := []
  deadline : Time := 0
deriving DecidableEq

structure KeyUpdateState where
  localPending : Bool := false
  requestPeer : Bool := false
  awaitingPeer : Bool := false
  updating : Bool := false
deriving DecidableEq

/-- `localIDs` is `local`, nil until the first connection ID is issued; `setLocal` tells whether a
demultiplexer hook is installed. -/
structure CidState where
  localIDs : Option (List Bytes) := none
  immediate : List Bytes := []
  peerSpare : List Bytes := []
  requested : Bool := false
  want : Bool := false
  response : Option UInt8 := none
  setLocal : Bool := false
deriving DecidableEq

/-- The keys of the `post` map, in the order of `postTypes`. -/
inductive PostType where
  | newConnectionID
  | requestConnectionID
  | keyUpdate
deriving DecidableEq, Repr

def PostType.code : PostType → UInt8
  | .newConnectionID => msgNewConnectionID
  | .requestConnectionID => msgRequestConnectionID
  | .keyUpdate => msgKeyUpdate

def postTypes : List PostType := [.newConnectionID, .requestConnectionID, .keyUpdate]

/-! ## Paths -/

/-- `netip.AddrPort`; `none` is the invalid zero value. -/
abbrev AddrPort := Option (ℕ × ℕ)

/-- `packetPath`; `socket` is `local`, the receiving socket. -/
structure PacketPath where
  remote : AddrPort := none
  socket : ℕ := 0
deriving DecidableEq, Repr

inductive PathPhase where
  | validateOld
  | validateCandidate
deriving DecidableEq, Repr

structure PathProbe where
  candidate : PacketPath
  phase : PathPhase
  cookie : Bytes := List.replicate 8 0
  deadline : Time := 0
  credit : ℕ
  cid : Bytes := []
deriving DecidableEq, Repr

structure PathState where
  peer : PacketPath
  probe : Option PathProbe := none
  highest : RecordNumber := ⟨0, 0⟩
  seen : Bool := false
  allowPeer : Option (AddrPort → Bool) := none

def PathState.allowed (p : PathState) (address : AddrPort) : Bool :=
  address.isSome && (p.allowPeer.map fun allow => allow address).getD true

/-! ## Path MTU -/

structure WorkingMTU where
  pathMTU : ℕ := 0
  reductions : ℕ := 0
  lastSendSize : ℕ := 0
  canProbe : Bool := false
deriving DecidableEq, Repr

inductive MTUPhase where
  | disabled
  | confirm
  | search
  | watch
deriving DecidableEq, Repr

inductive MTUProbeKind where
  | confirm
  | search
deriving DecidableEq, Repr

structure MTUProbe where
  cookie : Bytes := List.replicate 8 0
  size : ℕ
  generation : ℕ := 0
  deadline : Time := 0
  path : PacketPath := {}
  kind : MTUProbeKind
deriving DecidableEq, Repr

/-- The interval search; the slots of `lost` hold `-1` when unused. Sizes are unbounded integers here,
where a sum of two sizes near `2 ^ 63` would wrap in the source. -/
structure MTUFinder where
  floor : ℤ := 0
  lost : List ℤ := [0, 0, 0]
  lastProbeWasLost : Bool := false
  inFlight : ℤ := 0
  probes : ℕ := 0
deriving DecidableEq, Repr

structure MTUDiscovery where
  generation : ℕ := 0
  outstanding : Option MTUProbe := none
  phase : MTUPhase := .disabled
  finder : MTUFinder := {}
  nextProbe : Time := 0
  raiseAt : Time := 0
  confirmAt : Time := 0
  confirmFails : ℕ := 0
  appSinceProbe : Bool := false
  searchAfterConfirm : Bool := false
deriving DecidableEq, Repr

/-! ## The session -/

structure Session where
  handshake : Handshake
  handshakeReceived : Time := 0
  epochs : TrafficEpochs := {}
  reassembly : Reassembler := {}
  outbound : Option Flight := none
  ack : AckState := {}
  epoch2ReadKeyExpiry : Time := 0
  post : PostType → Option Flight := fun _ => none
  keyUpdate : KeyUpdateState := {}
  peerClosed : Option RecordNumber := none
  cid : CidState := {}
  path : Option PathState := none
  working : WorkingMTU := {}
  mtu : MTUDiscovery := {}
  rtt : Duration := 0

namespace Session

def currentWriteEpoch (s : Session) : ℕ := s.epochs.currentWrite

/-- `s.outbound != nil && !s.outbound.complete`. -/
def flightPending (s : Session) : Bool := s.outbound.any fun f => !f.complete

def handshakeFlightSent (s : Session) : Bool := s.outbound.all fun f => f.complete || f.sentOnce

def probing (s : Session) : Bool := s.path.any fun p => p.probe.isSome

end Session

/-! ## Outside and history -/

/-- Answers of the code around the session, each list consumed from its head. An exhausted list
answers with success, except that randomness runs out. -/
structure Env where
  sends : List (Option SendError) := []
  random : Bytes := []
  setLocal : List Bool := []
  reserve : List Bool := []
  handshakes : List Answers := []

/-- A datagram with the record it encodes and the keys that seal it. -/
structure Packet where
  number : RecordNumber
  typ : UInt8
  body : Bytes
  cid : Bytes
  padding : ℕ
  bytes : Bytes
  keys : Option TrafficKeys
deriving DecidableEq

structure OpenedRecord where
  number : RecordNumber
  typ : UInt8
  body : Bytes
  cid : Bytes
deriving DecidableEq, Repr

structure Challenge where
  path : PacketPath
  phase : PathPhase
  cookie : Bytes
  deadline : Time
deriving DecidableEq, Repr

/-- What happened so far, newest first: packets handed to a send callback and those it sent,
protected records opened, handshake messages accepted, each with the flight it answered, epochs whose
missing read keys a KeyUpdate was processed with, path challenges, and the packets to and the bytes from
addresses that were not the validated peer. -/
structure History where
  handed : List Packet := []
  wire : List Packet := []
  opened : List OpenedRecord := []
  answered : List (HandshakeMessage × List HandshakeMessage) := []
  faults : List ℕ := []
  challenges : List Challenge := []
  pathSent : List (AddrPort × Packet) := []
  pathReceived : List (AddrPort × ℕ) := []

structure World where
  session : Session
  env : Env := {}
  history : History := {}

/-- A packet reaches the network. -/
def World.deliver (w : World) (p : Packet) : World := { w with history.wire := p :: w.history.wire }

abbrev SessionM := EStateM Err World

export Machine (throwIf runIf attempt)

def getSession : SessionM Session := do
  let w ← get
  return w.session

def modifySession (change : Session → Session) : SessionM Unit :=
  modify fun w => { w with session := change w.session }

def note (change : History → History) : SessionM Unit :=
  modify fun w => { w with history := change w.history }

/-- The transport's answer to one packet; only an accepted packet is on the wire. -/
def transport (p : Packet) : SessionM Unit := do
  let w ← get
  match w.env.sends with
  | some cause :: rest => do
    set { w with env := { w.env with sends := rest } }
    throw (.transport cause)
  | accepted => set { w.deliver p with env := { w.env with sends := accepted.tail } }

/-- `rand.Read` into `n` bytes. -/
def randRead (n : ℕ) : SessionM Bytes := do
  let w ← get
  if w.env.random.length < n then throw .random
  else do
    set { w with env := { w.env with random := w.env.random.drop n } }
    return w.env.random.take n

/-- Call the `setLocal` hook when there is one. -/
def setLocal : SessionM Unit := do
  let w ← get
  if w.session.cid.setLocal = false then pure ()
  else do
    set { w with env := { w.env with setLocal := w.env.setLocal.tail } }
    throwIf (w.env.setLocal.head? = some true) .setLocal

/-- Answers of a memory budget that is shared with other associations. -/
instance : Budget (List Bool) where
  reserve answers _ := (answers.headD true, answers.tail)
  release answers _ := answers

end Socat.Dtls13
