import Socat.Dtls13.Negotiation.State

/-! # The handshake of a server

A server starts from a ClientHello that came with a valid cookie, answers it with its whole flight, and
then waits for what is left of the client's: a certificate if it asked for one, and the Finished.
-/

namespace Socat.Dtls13.Negotiation

open HandshakeState

open Machine (throwIf lift)

structure ServerHandshake extends HandshakeState where
  phase : Phase
  verifiedHello : HandshakeMessage
  offer : ClientOffer
  firstHelloHash : Bytes
  retryHello : Bytes := []
  selectedSuite : U16
  selectedGroup : U16
deriving DecidableEq

abbrev ServerM := EStateM Err ServerHandshake

/-- The two bytes of `version13` as `supported_versions` carries them. -/
def selectedVersion : Bytes := [0xfe, 0xfc]

/-- The extensions of a HelloRetryRequest. -/
def retryExtensions (selectedGroup : U16) (groupRequested : Bool) (value : Bytes) : Extensions :=
  let ext := ((∅ : Extensions).insert extSupportedVersions selectedVersion).insert extCookie
    (({} : WireWriter).vector16 value).data
  if groupRequested then ext.insert extKeyShare (({} : WireWriter).writeUint16 selectedGroup).data else ext

def retryHelloBody (suite selectedGroup : U16) (groupRequested : Bool) (value : Bytes) : Except Err Bytes :=
  ServerHello.marshal ⟨retryRandom, [], suite, retryExtensions selectedGroup groupRequested value⟩

namespace ServerHandshake

variable [Digests] [CertificateService] [KeyExchange]

/-- A step of both sides. -/
def shared {α : Type} (x : HandshakeM α) : ServerM α := fun h =>
  match x h.toHandshakeState with
  | .ok a state => .ok a { h with toHandshakeState := state }
  | .error e state => .error e { h with toHandshakeState := state }

/-- The ServerHello up to its encoding: a server with a connection ID takes up the client's offer. -/
def answerOffer (offer : ClientOffer) (ext : Extensions) : ServerM Extensions := do
  let h ← get
  if offer.cidOffered ∧ h.localCID ≠ [] then
    let ext := ext.insert extConnectionID (({} : WireWriter).vector8 h.localCID).data
    set { h with peerCID := offer.cid, cidNegotiated := true, rrc := if offer.rrc then true else h.rrc }
    return if offer.rrc then ext.insert extRRC [] else ext
  else return ext

/-- What is hashed up to and including the ServerHello. -/
def helloTranscript (h : ServerHandshake) (clientMessage serverMessage : HandshakeMessage) : Except Err Bytes := do
  let second ← clientMessage.transcript
  let transcript ← retryTranscriptHash h.selectedSuite h.firstHelloHash h.retryHello second
  let server ← serverMessage.transcript
  return transcript ++ server

/-- A failed schedule leaves none. -/
def startSchedule (sharedSecret transcript : Bytes) : ServerM Unit := do
  let h ← get
  match newKeySchedule h.selectedSuite sharedSecret transcript with
  | .error e => do
    set { h with schedule := none }
    throw e
  | .ok schedule => set { h with schedule := some schedule }

/-- The protocol for EncryptedExtensions. -/
def chooseProtocol (offer : ClientOffer) (ext : Extensions) : ServerM Extensions := do
  let h ← get
  if offer.protocols ≠ [] ∧ h.config.nextProtos ≠ [] then
    let protocol := (h.config.nextProtos.find? fun protocol => offer.protocols.contains protocol).getD
      h.state.negotiatedProtocol
    set { h with state.negotiatedProtocol := protocol }
    throwIf (protocol = []) .noApplicationProtocol
    let alpn ← lift (encodeALPN [protocol])
    return ext.insert extALPN alpn
  else return ext

def encryptedExtensions (offer : ClientOffer) : ServerM HandshakeMessage := do
  let ext ← chooseProtocol offer (if offer.serverName ≠ [] then (∅ : Extensions).insert extServerName [] else ∅)
  let encoded ← lift (Extensions.marshal ext)
  shared (message msgEncryptedExtensions 2 (({} : WireWriter).vector16 encoded).data)

def certificateRequest : ServerM (List HandshakeMessage) := do
  let h ← get
  if h.config.clientAuth ≠ ClientAuth.noClientCert then
    let request ← lift (encodeCertificateRequest (h.config.clientCAs.getD []))
    let m ← shared (message msgCertificateRequest 2 request)
    return [m]
  else return []

/-- The end of the flight: the Finished and the application secrets. -/
def serverFinished : ServerM HandshakeMessage := do
  let h ← get
  match h.schedule with
  | none => throw .nilDereference
  | some schedule => do
    let finished ← lift (schedule.finished schedule.serverHandshake)
    let m ← shared (message msgFinished 2 finished)
    let h ← get
    match h.schedule with
    | none => throw .nilDereference
    | some schedule => do
      set { h with
        clientApplication := schedule.applicationSecrets.1
        serverApplication := schedule.applicationSecrets.2
        phase := if h.config.clientAuth ≠ ClientAuth.noClientCert then .certificate else .finished }
      return m

def serverFlight (outside : Outside) (clientMessage : HandshakeMessage) (offer : ClientOffer) :
    ServerM (List HandshakeMessage) := do
  let h ← get
  let (sharePublic, sharedSecret) ←
    lift (serverShare h.selectedGroup ((offer.shares.lookup h.selectedGroup).getD []) (outside.seed h.selectedGroup))
  let share ← lift (encodeKeyShare h.selectedGroup sharePublic)
  let ext := ((∅ : Extensions).insert extSupportedVersions selectedVersion).insert extKeyShare share
  let random ← lift (outside.random.read 32)
  let ext ← answerOffer offer ext
  let chosen ← lift (chooseCertificate h.config outside offer.signatures offer.serverName [] false)
  modify fun h => { h with
    state.serverName := offer.serverName
    state.cipherSuite := h.selectedSuite
    state.curveID := h.selectedGroup }
  let body ← lift (ServerHello.marshal ⟨random, [], h.selectedSuite, ext⟩)
  let serverMessage ← shared (message msgServerHello 0 body)
  let transcript ← lift (h.helloTranscript clientMessage serverMessage)
  startSchedule sharedSecret transcript
  let encrypted ← encryptedExtensions offer
  let request ← certificateRequest
  let certificate ← shared
    (certificateFlight outside (chosen.map Prod.fst) ((chosen.map Prod.snd).getD 0))
  let finish ← serverFinished
  return [serverMessage, encrypted] ++ request ++ certificate ++ [finish]

def setPhase (phase : Phase) : ServerM Unit := modify fun h => { h with phase }

/-- Consume only the ClientHello authenticated by cookie verification. -/
def takeHello (outside : Outside) (m : HandshakeMessage) : ServerM (List HandshakeMessage) := do
  let h ← get
  throwIf (m.typ ≠ msgClientHello ∨ m.epoch ≠ 0 ∨ m.sequence ≠ 1 ∨ m.body ≠ h.verifiedHello.body)
    .unexpectedMessage
  set { h with verifiedHello := ⟨0, 0, 0, []⟩, offer := {} }
  serverFlight outside h.verifiedHello h.offer

def takeCertificate (outside : Outside) (m : HandshakeMessage) : ServerM (List HandshakeMessage) := do
  throwIf (m.typ ≠ msgCertificate) .unexpectedMessage
  shared (peerCertificate outside m)
  let h ← get
  setPhase (if h.state.peerCertificates = [] then .finished else .certificateVerify)
  return []

def takeCertificateVerify (m : HandshakeMessage) : ServerM (List HandshakeMessage) := do
  throwIf (m.typ ≠ msgCertificateVerify) .unexpectedMessage
  shared (peerCertificateVerify m signatureSchemes)
  setPhase .finished
  return []

def takeFinished (outside : Outside) (m : HandshakeMessage) : ServerM (List HandshakeMessage) := do
  throwIf (m.typ ≠ msgFinished) .unexpectedMessage
  shared (peerFinished m)
  shared (finish outside)
  return []

def handle (outside : Outside) (m : HandshakeMessage) : ServerM (List HandshakeMessage) := do
  let h ← get
  throwIf h.complete .unexpectedMessage
  match h.phase with
  | .clientHello => takeHello outside m
  | phase => do
    throwIf (m.epoch ≠ 2) .unexpectedMessage
    match phase with
    | .certificate => takeCertificate outside m
    | .certificateVerify => takeCertificateVerify m
    | .finished => takeFinished outside m
    | _ => throw .unexpectedMessage

end ServerHandshake

end Socat.Dtls13.Negotiation
