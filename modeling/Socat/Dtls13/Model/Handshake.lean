import Socat.Dtls13.Model.Control
import Socat.Dtls13.Model.Fragment
import Socat.Machine.Fallible

/-! # The handshake handlers

A client and a server take the messages of the handshake one by one, each in its phase, answer with
flights, and end with the secrets of the handshake and of the application. The order of the steps and
what each leaves behind when a later one fails is the source's. Parsing of hellos and certificates,
signatures, random numbers and the key derivation are outside: `Answers` holds their outcomes for one
message.
-/

namespace Socat.Dtls13

def msgClientHello : UInt8 := 1
def msgServerHello : UInt8 := 2
def msgEncryptedExtensions : UInt8 := 8
def msgCertificate : UInt8 := 11
def msgCertificateRequest : UInt8 := 13
def msgCertificateVerify : UInt8 := 15
def msgFinished : UInt8 := 20

/-! ## State -/

/-- `clientAuth` is `ClientAuth != NoClientCert`. -/
structure Config where
  MTU : ℕ
  unfragmentedProbes : Bool := false
  clientAuth : Bool := false
deriving DecidableEq, Repr

/-- The secrets of the handshake epoch, as long as the hash of their suite. -/
structure KeySchedule where
  suite : CipherSuite
  clientHandshake : Bytes
  serverHandshake : Bytes
  supported : suite ∈ cipherSuites
  clientSize : clientHandshake.length = suite.hashSize
  serverSize : serverHandshake.length = suite.hashSize

/-- The message a handler waits for; the source uses the type of the message. -/
inductive Phase where
  | clientHello
  | serverHello
  | encryptedExtensions
  | certificateRequest
  | certificate
  | certificateVerify
  | finished
deriving DecidableEq, Repr

/-- What the listener verified of a client's second hello: the `cid` and `rrc` it offered. -/
structure Offer where
  cid : Option Bytes := none
  rrc : Bool := false
deriving DecidableEq, Repr

/-- `handshakeState` with the fields of `clientHandshake` and `serverHandshake` that decide what
happens next; `peerCertificates` counts them. -/
structure Handshake where
  config : Option Config
  client : Bool
  sequence : ℕ := 0
  schedule : Option KeySchedule := none
  cipherSuite : ℕ := 0
  peerCertificates : ℕ := 0
  localCID : Bytes := []
  peerCID : Bytes := []
  cidNegotiated : Bool := false
  rrc : Bool := false
  peerCIDUpdates : Bool := false
  clientApplication : Bytes := []
  serverApplication : Bytes := []
  complete : Bool := false
  phase : Phase := if client then .serverHello else .clientHello
  retried : Bool := false
  retrySuite : ℕ := 0
  requestedCertificate : Bool := false
  verifiedHello : Bytes := []
  offer : Offer := {}
  selectedSuite : ℕ := 0

/-- `message` gives out the next sequence number. Once the handshake is complete a message is not
added to the transcript. -/
def Handshake.message (h : Handshake) (typ : UInt8) (epoch : ℕ) (body : Bytes) :
    Except Err (HandshakeMessage × Handshake) :=
  if 65535 < h.sequence then .error .sequence
  else .ok (⟨typ, h.sequence, epoch, body⟩, { h with sequence := h.sequence + 1 })

/-! ## Answers from outside -/

/-- A parsed ServerHello: its suite, whether it asks for a retry, and the extensions it carries. -/
structure ServerHello where
  suite : ℕ
  retry : Bool := false
  cid : Option Bytes := none
  rrc : Bool := false
deriving DecidableEq, Repr

/-- Outcomes for one message, each list consumed from its head: of checks and encodings, of key
derivations, and the bodies of answers. An exhausted list of checks means success. -/
structure Answers where
  checks : List (Option Err) := []
  secrets : List Bytes := []
  bodies : List Bytes := []
  hello : ServerHello := { suite := 0 }
  certificates : ℕ := 0
  certified : Bool := false

structure HandshakeWorld where
  handshake : Handshake
  answers : Answers := {}

abbrev HandshakeM := EStateM Err HandshakeWorld

namespace HandshakeM

open Machine (throwIf runIf attempt)

def getHandshake : HandshakeM Handshake := do
  let w ← get
  return w.handshake

def getAnswers : HandshakeM Answers := do
  let w ← get
  return w.answers

def modifyHandshake (change : Handshake → Handshake) : HandshakeM Unit :=
  modify fun w => { w with handshake := change w.handshake }

/-- A parser, a verification or an encoder that may fail. -/
def check : HandshakeM Unit := do
  let w ← get
  set { w with answers := { w.answers with checks := w.answers.checks.tail } }
  match w.answers.checks with
  | some e :: _ => throw e
  | _ => pure ()

/-- The next encoded body. -/
def encoded : HandshakeM Bytes := do
  check
  let w ← get
  set { w with answers := { w.answers with bodies := w.answers.bodies.tail } }
  return w.answers.bodies.headD []

/-- One derivation of the key schedule, which gives as many bytes as the hash has. -/
def derive (size : ℕ) : HandshakeM { secret : Bytes // secret.length = size } := do
  check
  let w ← get
  set { w with answers := { w.answers with secrets := w.answers.secrets.tail } }
  if exact : (w.answers.secrets.headD []).length = size then return ⟨_, exact⟩
  else throw .keyMaterial

/-! ## Steps of both sides -/

/-- `message` while the handshake runs: the message also goes into the transcript. -/
def message (typ : UInt8) (epoch : ℕ) (body : Bytes) : HandshakeM HandshakeMessage := do
  let h ← getHandshake
  match h.message typ epoch body with
  | .error e => throw e
  | .ok (m, h') => do
    runIf (h.schedule.isSome ∧ h.complete = false) check
    modifyHandshake fun _ => h'
    return m

/-- A message whose body is encoded first. -/
def encodedMessage (typ : UInt8) (epoch : ℕ) : HandshakeM HandshakeMessage := do
  let body ← encoded
  message typ epoch body

def newKeySchedule (id : ℕ) : HandshakeM KeySchedule :=
  match found : cipherSuites.find? (fun suite => suite.id == id) with
  | none => throw .cipherSuite
  | some suite => do
    let client ← derive suite.hashSize
    let server ← derive suite.hashSize
    check
    return ⟨suite, client, server, mem_of_suite found, client.2, server.2⟩

/-- A failed schedule leaves none. -/
def startSchedule (id : ℕ) : HandshakeM Unit := do
  match ← attempt (newKeySchedule id) with
  | .ok schedule => modifyHandshake fun h => { h with schedule := some schedule }
  | .error e => do
    modifyHandshake fun h => { h with schedule := none }
    throw e

/-- `applicationSecrets`; what was derived is assigned also when a later derivation fails. The source
dereferences the schedule. -/
def applicationSecrets : HandshakeM Unit := do
  let h ← getHandshake
  match h.schedule with
  | none => throw .nilDereference
  | some schedule => do
    modifyHandshake fun h => { h with clientApplication := [], serverApplication := [] }
    let client ← derive schedule.suite.hashSize
    modifyHandshake fun h => { h with clientApplication := client }
    let server ← derive schedule.suite.hashSize
    modifyHandshake fun h => { h with serverApplication := server }

/-- Parse and verify the peer's certificates, and note them in the transcript. -/
def peerCertificate : HandshakeM Unit := do
  check
  let answers ← getAnswers
  modifyHandshake fun h => { h with peerCertificates := 0 }
  check
  modifyHandshake fun h => { h with peerCertificates := answers.certificates }
  check

def peerCertificateVerify : HandshakeM Unit := do
  let h ← getHandshake
  throwIf (h.peerCertificates = 0) .unexpectedMessage
  check
  check

/-- Compare the peer's Finished with the transcript. -/
def peerFinished : HandshakeM Unit := do
  check
  check
  check

def finish : HandshakeM Unit := do
  check
  modifyHandshake fun h => { h with
    complete := true
    peerCIDUpdates := h.cidNegotiated && !h.peerCID.isEmpty }

/-- Certificate and, with a certificate to prove, CertificateVerify. -/
def certificateFlight (certified : Bool) : HandshakeM (List HandshakeMessage) := do
  let certificate ← encodedMessage msgCertificate 2
  if certified then do
    let verify ← encodedMessage msgCertificateVerify 2
    return [certificate, verify]
  else return [certificate]

/-! ## The client -/

def retryRequest (hello : ServerHello) : HandshakeM (List HandshakeMessage) := do
  let h ← getHandshake
  throwIf h.retried .unexpectedMessage
  check
  modifyHandshake fun h => { h with retried := true, retrySuite := hello.suite }
  check
  let response ← encodedMessage msgClientHello 0
  return [response]

/-- The connection ID of a ServerHello; one that does not parse leaves none. -/
def takeConnectionID : Option Bytes → HandshakeM Unit
  | none => pure ()
  | some cid => do
    modifyHandshake fun h => { h with peerCID := [] }
    check
    modifyHandshake fun h => { h with peerCID := cid, cidNegotiated := true }

def takeRRC : HandshakeM Unit := do
  check
  let h ← getHandshake
  throwIf (h.cidNegotiated = false) .illegalParameter
  modifyHandshake fun h => { h with rrc := true }

/-- A ServerHello that is not a retry. The checks are those of the extensions and the key share, and of
the transcript. -/
def acceptHello (hello : ServerHello) : HandshakeM Unit := do
  check
  takeConnectionID hello.cid
  runIf hello.rrc takeRRC
  check
  startSchedule hello.suite
  modifyHandshake fun h => { h with cipherSuite := hello.suite, phase := .encryptedExtensions }

/-- The checks are those of the parser and the suites, and of the version. -/
def serverHello : HandshakeM (List HandshakeMessage) := do
  check
  let answers ← getAnswers
  let hello := answers.hello
  let h ← getHandshake
  throwIf (h.retried ∧ hello.suite ≠ h.retrySuite) .illegalParameter
  check
  if hello.retry then retryRequest hello
  else do
    acceptHello hello
    return []

/-- The certificates of a client that was asked for some. -/
def requestedFlight (requested : Bool) : HandshakeM (List HandshakeMessage) := do
  let answers ← getAnswers
  if requested then do
    check
    certificateFlight answers.certified
  else return []

def finalFlight : HandshakeM (List HandshakeMessage) := do
  applicationSecrets
  let h ← getHandshake
  let certificates ← requestedFlight h.requestedCertificate
  let finished ← encodedMessage msgFinished 2
  finish
  return certificates ++ [finished]

/-- What the client does with a message of its phase after the ServerHello. -/
def clientPhase (phase : Phase) (m : HandshakeMessage) : HandshakeM (List HandshakeMessage) :=
  match phase with
  | .encryptedExtensions => do
    throwIf (m.typ ≠ msgEncryptedExtensions) .unexpectedMessage
    check
    modifyHandshake fun h => { h with phase := .certificateRequest }
    return []
  | .certificateRequest =>
    if m.typ = msgCertificateRequest then do
      check
      modifyHandshake fun h => { h with requestedCertificate := true }
      check
      modifyHandshake fun h => { h with phase := .certificate }
      return []
    else do
      throwIf (m.typ ≠ msgCertificate) .unexpectedMessage
      peerCertificate
      modifyHandshake fun h => { h with phase := .certificateVerify }
      return []
  | .certificate => do
    throwIf (m.typ ≠ msgCertificate) .unexpectedMessage
    peerCertificate
    modifyHandshake fun h => { h with phase := .certificateVerify }
    return []
  | .certificateVerify => do
    throwIf (m.typ ≠ msgCertificateVerify) .unexpectedMessage
    peerCertificateVerify
    modifyHandshake fun h => { h with phase := .finished }
    return []
  | .finished => do
    throwIf (m.typ ≠ msgFinished) .unexpectedMessage
    peerFinished
    finalFlight
  | .clientHello | .serverHello => throw .unexpectedMessage

def clientHandle (m : HandshakeMessage) : HandshakeM (List HandshakeMessage) := do
  let h ← getHandshake
  throwIf h.complete .unexpectedMessage
  if h.phase = .serverHello then do
    throwIf (m.typ ≠ msgServerHello ∨ m.epoch ≠ 0) .unexpectedMessage
    serverHello
  else do
    throwIf (m.epoch ≠ 2) .unexpectedMessage
    clientPhase h.phase m

/-! ## The server -/

/-- The server takes up connection IDs when both sides offer them. -/
def acceptOffer (offer : Offer) (h : Handshake) : Handshake :=
  match offer.cid with
  | none => h
  | some cid =>
    if h.localCID = [] then h
    else { h with peerCID := cid, cidNegotiated := true, rrc := h.rrc || offer.rrc }

/-- The server's request for certificates. -/
def certificateRequest (clientAuth : Bool) : HandshakeM (List HandshakeMessage) :=
  if clientAuth then do
    let request ← encodedMessage msgCertificateRequest 2
    return [request]
  else return []

/-- The checks before the ServerHello are those of the key share and its encoding, of the random
number, and of the choice of a certificate. -/
def serverFlight (offer : Offer) : HandshakeM (List HandshakeMessage) := do
  check
  check
  check
  modifyHandshake (acceptOffer offer)
  check
  modifyHandshake fun h => { h with cipherSuite := h.selectedSuite }
  let h ← getHandshake
  let hello ← encodedMessage msgServerHello 0
  check
  startSchedule h.selectedSuite
  check
  let extensions ← encodedMessage msgEncryptedExtensions 2
  let clientAuth := (h.config.map Config.clientAuth).getD false
  let request ← certificateRequest clientAuth
  let certificates ← certificateFlight true
  let finished ← encodedMessage msgFinished 2
  applicationSecrets
  modifyHandshake fun h => { h with phase := if clientAuth then .certificate else .finished }
  return [hello, extensions] ++ request ++ certificates ++ [finished]

/-- What the server does with a message of its phase after the ClientHello. -/
def serverPhase (phase : Phase) (m : HandshakeMessage) : HandshakeM (List HandshakeMessage) :=
  match phase with
  | .certificate => do
    throwIf (m.typ ≠ msgCertificate) .unexpectedMessage
    peerCertificate
    modifyHandshake fun h => { h with
      phase := if h.peerCertificates = 0 then .finished else .certificateVerify }
    return []
  | .certificateVerify => do
    throwIf (m.typ ≠ msgCertificateVerify) .unexpectedMessage
    peerCertificateVerify
    modifyHandshake fun h => { h with phase := .finished }
    return []
  | .finished => do
    throwIf (m.typ ≠ msgFinished) .unexpectedMessage
    peerFinished
    finish
    return []
  | .clientHello | .serverHello | .encryptedExtensions | .certificateRequest => throw .unexpectedMessage

/-- Only the ClientHello that the cookie authenticated is consumed. -/
def serverHandle (m : HandshakeMessage) : HandshakeM (List HandshakeMessage) := do
  let h ← getHandshake
  throwIf h.complete .unexpectedMessage
  if h.phase = .clientHello then do
    throwIf (m.typ ≠ msgClientHello ∨ m.epoch ≠ 0 ∨ m.sequence ≠ 1 ∨ m.body ≠ h.verifiedHello) .unexpectedMessage
    modifyHandshake fun h => { h with verifiedHello := [], offer := {} }
    serverFlight h.offer
  else do
    throwIf (m.epoch ≠ 2) .unexpectedMessage
    serverPhase h.phase m

/-- `handleHandshake` is the handler of the session's side. -/
def handle (m : HandshakeMessage) : HandshakeM (List HandshakeMessage) := do
  let h ← getHandshake
  if h.client then clientHandle m else serverHandle m

end HandshakeM

/-! ## What the phases guarantee -/

namespace Handshake

/-- `installKeys` finds secrets for the handshake epoch. -/
def handshakeKeys (h : Handshake) : Bool := h.schedule.any fun s => !s.clientHandshake.isEmpty

/-- `installKeys` finds secrets for the application epoch. -/
def applicationKeys (h : Handshake) : Bool := h.schedule.isSome && !h.clientApplication.isEmpty

/-- A client past the ServerHello has a schedule; a server past the ClientHello also has application
secrets. -/
structure Phased (h : Handshake) : Prop where
  client : h.client = true → h.phase ≠ .serverHello → h.schedule.isSome
  server : h.client = false → h.phase ≠ .clientHello → h.applicationKeys = true

theorem phased_peerCID {h : Handshake} {peerCID : Bytes} : ({ h with peerCID } : Handshake).Phased ↔ h.Phased :=
  ⟨fun phased => ⟨phased.client, phased.server⟩, fun phased => ⟨phased.client, phased.server⟩⟩

/-- The schedule's secrets are there: application keys come with those of the handshake. -/
theorem handshakeKeys_of_schedule {h : Handshake} (scheduled : h.schedule.isSome) : h.handshakeKeys = true := by
  obtain ⟨schedule, found⟩ := Option.isSome_iff_exists.mp scheduled
  have sizes : ∀ suite ∈ cipherSuites, 0 < suite.hashSize := by decide
  have nonempty := sizes _ schedule.supported
  rw [← schedule.clientSize] at nonempty
  simp [handshakeKeys, found, List.ne_nil_of_length_pos nonempty]

theorem handshakeKeys_of_applicationKeys {h : Handshake} (keys : h.applicationKeys = true) :
    h.handshakeKeys = true := by
  refine handshakeKeys_of_schedule ?_
  simp only [applicationKeys, Bool.and_eq_true] at keys
  exact keys.1

end Handshake

end Socat.Dtls13
