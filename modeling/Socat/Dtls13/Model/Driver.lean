import Socat.Dtls13.Model.Session

/-! # The connection driver

The driver owns one session and feeds it one event at a time: datagrams, timer ticks, the commands
of the user, and the steps around the end of the handshake. An error from receiving or from a timer
ends the association, after an attempt to send the alert for it; an error from a command is returned
to the user and the association goes on. `Runs` is the reachability relation of that loop. `Steps` is
the larger one in which the session's methods are called in any order, also after errors.
-/

namespace Socat.Dtls13

/-- `newSession`, with the counter of the plaintext epoch the listener may have moved and the
message it may have stored. -/
structure Fresh (s : Session) : Prop where
  read : s.epochs.read = ∅
  write : ∃ sequence, s.epochs.write = AList.singleton 0 { keys := none, sequence }
  installed : s.epochs.installed = ∅
  readApplicationEpoch : s.epochs.readApplicationEpoch = 0
  outbound : s.outbound = none
  post : ∀ typ, s.post typ = none
  pending : ∀ sequence p, s.reassembly.pending.lookup sequence = some p → p.message.epoch = 0
  incomplete : s.handshake.complete = false
  phase : s.handshake.phase = if s.handshake.client then .serverHello else .clientHello
  pendingACK : s.ack.pending = []
  idle : s.keyUpdate.updating = false

theorem Fresh.phased {s : Session} (fresh : Fresh s) : s.handshake.Phased :=
  ⟨fun client later => absurd (fresh.phase.trans (if_pos client)) later,
    fun server later => absurd (fresh.phase.trans (if_neg (by simp [server]))) later⟩

inductive Event where
  | start (messages : List HandshakeMessage) (now : Time)
  | process (now : Time)
  | receive (datagram : Bytes) (sender : PacketPath) (now : Time)
  | tick (now : Time)
  | ready (canProbe : Bool)
  | write (body : Bytes) (now : Time)
  | updateKeys (requestPeer : Bool) (now : Time)
  | rotateCID (now : Time)
  | closeWrite
  | close
deriving DecidableEq, Repr

/-- Events whose error ends the association. -/
def Event.fatal : Event → Bool
  | .start .. | .process .. | .receive .. | .tick .. | .ready .. | .close => true
  | .write .. | .updateKeys .. | .rotateCID .. | .closeWrite => false

variable [Crypto]

/-- The alert for an error that ends the association; its own failure is ignored. Only the pass over
the stored messages that opens the driver alerts about a closed transport too. -/
def alertError (opening : Bool) (e : Err) : SessionM Unit := do
  let s ← getSession
  if opening = false ∧ e = .transport .closed then pure ()
  else do
    let _ ← attempt (sendRecord s.currentWriteEpoch contentAlert (errorAlert e))
    pure ()

/-- Flights started from outside are plaintext hellos of an unfinished handshake. -/
def driveStart (messages : List HandshakeMessage) (now : Time) : SessionM Unit := do
  let s ← getSession
  runIf (s.handshake.complete = false)
    (startFlight (messages.map fun m => { m with epoch := 0 }) now)

def driveProcess (now : Time) : SessionM Unit := do
  match ← attempt (processHandshakes now) with
  | .ok () => pure ()
  | .error e => do
    alertError true e
    throw e

def receivePacket (datagram : Bytes) (sender : PacketPath) (now : Time) : SessionM Unit := do
  match ← attempt (receiveFrom datagram sender now) with
  | .ok _ => pure ()
  | .error e => do
    alertError false e
    throw e

/-- The step that opens the connection to its user once the final flight was sent. -/
def becomeReady (canProbe : Bool) : SessionM Unit := do
  let s ← getSession
  if s.handshake.complete ∧ s.handshakeFlightSent then do
    sendACK
    modifySession fun s => { s with
      working.canProbe :=
        if s.handshake.rrc ∧ s.handshake.cidNegotiated then canProbe else s.working.canProbe
      cid.want := true }
  else pure ()

def commandWrite (body : Bytes) (now : Time) : SessionM Unit := do
  match ← attempt (application body) with
  | .ok () => pure ()
  | .error .operationPending => do
    advancePost now
    throw .operationPending
  | .error e => throw e

def commandCloseWrite : SessionM Unit := do
  let s ← getSession
  if s.keyUpdate.updating ∨ s.keyUpdate.localPending then pure ()
  else do
    let _ ← sendRecord s.currentWriteEpoch contentAlert [1, alertCloseNotify]
    pure ()

def teardown : SessionM Unit := do
  let s ← getSession
  if s.handshake.complete then do
    let _ ← attempt (sendRecordWith s.currentWriteEpoch contentAlert [1, alertCloseNotify]
      s.handshake.peerCID transport)
    pure ()
  else pure ()

/-- What the driver does with an event. -/
def drive : Event → SessionM Unit
  | .start messages now => driveStart messages now
  | .process now => driveProcess now
  | .receive datagram sender now => receivePacket datagram sender now
  | .tick now => tick now
  | .ready canProbe => becomeReady canProbe
  | .write body now => commandWrite body now
  | .updateKeys requestPeer now => requestKeyUpdate requestPeer now
  | .rotateCID now => provideCIDs 1 true now
  | .closeWrite => commandCloseWrite
  | .close => teardown

/-- The methods of a session called one by one, besides the driver's events. -/
inductive Operation where
  | event (event : Event)
  | installKeys
  | startFlight (messages : List HandshakeMessage) (now : Time)
  | transmit (slot : Slot) (now : Time)
  | retransmitExpired (slot : Slot) (now : Time)
  | sendACK
  | sendScheduledACK (now : Time)
  | application (body : Bytes)
  | alert (epoch : ℕ) (body : Bytes)
  | challenge (now : Time)
  | sendMessage (dest : PacketPath) (typ : UInt8) (cookie : Bytes) (credit : ℕ)
  | sendMTUProbe (datagramSize : ℕ) (now : Time) (kind : MTUProbeKind)
  | advancePost (now : Time)
  | provideCIDs (count : ℕ) (immediate : Bool) (now : Time)
  | discardHandshakeRead
  | receiveFrom (datagram : Bytes) (sender : PacketPath) (now : Time)

/-- Flights are started while the handshake runs; everything else is called at any time. -/
def operate : Operation → SessionM Unit
  | .event event => drive event
  | .installKeys => Socat.Dtls13.installKeys
  | .startFlight messages now => do
    let s ← getSession
    runIf (s.handshake.complete = false) (Socat.Dtls13.startFlight messages now)
  | .transmit slot now => Socat.Dtls13.transmit slot now
  | .retransmitExpired slot now => Socat.Dtls13.retransmitExpired slot now
  | .sendACK => Socat.Dtls13.sendACK
  | .sendScheduledACK now => Socat.Dtls13.sendScheduledACK now
  | .application body => Socat.Dtls13.application body
  | .alert epoch body => do
    let _ ← sendRecord epoch contentAlert body
    pure ()
  | .challenge now => Socat.Dtls13.challenge now
  | .sendMessage dest typ cookie credit => Socat.Dtls13.sendMessage dest typ cookie credit
  | .sendMTUProbe datagramSize now kind => Socat.Dtls13.sendMTUProbe datagramSize now kind
  | .advancePost now => Socat.Dtls13.advancePost now
  | .provideCIDs count immediate now => Socat.Dtls13.provideCIDs count immediate now
  | .discardHandshakeRead => modifySession Session.discardHandshakeRead
  | .receiveFrom datagram sender now => do
    let _ ← Socat.Dtls13.receiveFrom datagram sender now
    pure ()

/-- Give the session the answers its surroundings will make to the next event. -/
def World.withEnv (w : World) (env : Env) : World := { w with env }

/-- An operation, in any surroundings and with any outcome. -/
inductive Step (w : World) : World → Prop
  | operation (operation : Operation) (env : Env) :
      Step w (Machine.final (operate operation) (w.withEnv env))

/-- An event after which the association still runs. -/
inductive Continues (w : World) : World → Prop
  | returned (event : Event) (env : Env) {w' : World}
      (outcome : drive event (w.withEnv env) = .ok () w') : Continues w w'
  | refused (event : Event) (env : Env) {e : Err} {w' : World} (command : event.fatal = false)
      (outcome : drive event (w.withEnv env) = .error e w') : Continues w w'

/-- Every sequence of operations, whatever their outcomes. -/
abbrev Steps : World → World → Prop := Relation.ReflTransGen Step

/-- Every sequence of events of a running association. -/
abbrev Runs : World → World → Prop := Relation.ReflTransGen Continues

/-- A script of operations, one after the other. -/
def perform (script : List (Operation × Env)) (w : World) : World :=
  script.foldl (fun w entry => Machine.final (operate entry.1) (w.withEnv entry.2)) w

theorem steps_perform (script : List (Operation × Env)) (w : World) : Steps w (perform script w) := by
  induction script generalizing w with
  | nil => exact .refl
  | cons entry rest ih => exact .head (.operation entry.1 entry.2) (ih _)

end Socat.Dtls13
