import Socat.Dtls13.Negotiation.Config
import Socat.Dtls13.Negotiation.Schedule

/-! # The state of a handshake

What both sides keep, and the steps they share: numbering their messages, taking the peer's Certificate,
CertificateVerify and Finished, and ending the handshake. A step that fails keeps what it changed before.
Random numbers, signatures, chain building and the user's callbacks are answered from outside, once for
each message.
-/

namespace Socat.Dtls13.Negotiation

/-! ## Answers from outside -/

/-- A source of random bytes; `none` fails. -/
abbrev Draw := Option (ℕ → UInt8)

/-- `rand.Read` into `n` bytes. -/
def Draw.read (draw : Draw) (n : ℕ) : Except Err { bytes : Bytes // bytes.length = n } :=
  match draw with
  | none => .error .random
  | some stream => .ok ⟨(List.range n).map stream, by simp⟩

/-- Why the X.509 library refuses a chain. -/
inductive ChainFailure where
  | unknownAuthority
  | expired
  | other
deriving DecidableEq, Repr

def ChainFailure.alert : ChainFailure → Err
  | .unknownAuthority => .unknownCA
  | .expired => .certificateExpired
  | .other => .badCertificate

/-- The answers to one message: random numbers, the seed of a key in each group, the outcome of building a
chain to a trusted root and of the callbacks, a signature, and what the library says about own
certificates. -/
structure Outside where
  random : Draw := none
  seed : U16 → Option Bytes := fun _ => none
  chain : Option ChainFailure := none
  peerRefused : Bool := false
  connectionRefused : Option Err := none
  signature : Option Bytes := none
  supports : (signatures : List U16) → (authorities : List Bytes) → OwnCertificate → Bool := fun _ _ _ => true
  named : (serverName : Bytes) → OwnCertificate → Bool := fun _ _ => true

/-! ## State -/

/-- `tls.ConnectionState`. -/
structure ConnectionState where
  serverName : Bytes := []
  cipherSuite : U16 := 0
  curveID : U16 := 0
  negotiatedProtocol : Bytes := []
  peerCertificates : List X509 := []
  handshakeComplete : Bool := false
deriving DecidableEq, Repr

structure HandshakeState where
  config : Config
  client : Bool
  sequence : ℕ := 0
  schedule : Option KeySchedule := none
  state : ConnectionState := {}
  localCID : Bytes := []
  peerCID : Bytes := []
  cidNegotiated : Bool := false
  rrc : Bool := false
  peerCIDUpdates : Bool := false
  clientApplication : Bytes := []
  serverApplication : Bytes := []
  complete : Bool := false
deriving DecidableEq, Repr

def preparedHandshakeState (prepared : Config) (client : Bool) (draw : Draw) : Except Err HandshakeState :=
  let h : HandshakeState := { config := prepared, client, state := { serverName := prepared.serverName } }
  if prepared.connectionIDLength = 0 then .ok h
  else
    match draw.read prepared.connectionIDLength.toNat with
    | .error e => .error e
    | .ok cid => .ok { h with localCID := cid }

def newHandshakeState [CertificateService] (config : Config) (client aes : Bool) (draw : Draw) :
    Except Err HandshakeState :=
  match prepareConfig config (!client) aes with
  | .error e => .error e
  | .ok prepared => preparedHandshakeState prepared client draw

/-! ## Verifying the peer -/

/-- `certificates[0].Verify` is only asked when the configuration wants a chain. -/
def Config.verifies (config : Config) (client : Bool) : Bool :=
  if client then !config.insecureSkipVerify
  else decide (config.clientAuth = .verifyClientCertIfGiven ∨ config.clientAuth = .requireAndVerifyClientCert)

def verifyPeer [CertificateService] (config : Config) (raw : List Bytes) (client : Bool) (outside : Outside) :
    Except Err (List X509) :=
  match parseCertificateChain raw with
  | .error _ => .error .badCertificate
  | .ok certificates =>
    if certificates = [] ∧ (client ∨ config.clientAuth = .requireAnyClientCert ∨
        config.clientAuth = .requireAndVerifyClientCert) then .error .certificateRequired
    else if certificates.any fun cert =>
        match cert.key.kind with
        | .rsa bits => decide (maxRSAKeyBits < bits)
        | _ => false then .error .badCertificate
    else if certificates.head?.any fun leaf => leaf.keyUsage ≠ 0 && leaf.keyUsage % 2 == 0 then
      .error .badCertificate
    else
      match if config.verifies client ∧ certificates ≠ [] then outside.chain else none with
      | some failure => .error failure.alert
      | none =>
        if config.verifyPeerCertificate ∧ outside.peerRefused then .error .badCertificate
        else .ok certificates

/-! ## Steps of both sides -/

abbrev HandshakeM := EStateM Err HandshakeState

namespace HandshakeState

open Machine (throwIf runIf)

variable [Digests]

/-- Write a message to the transcript; a missing schedule is dereferenced. -/
def writeTranscript (m : HandshakeMessage) : HandshakeM Unit := do
  let h ← get
  match h.schedule with
  | none => throw .nilDereference
  | some schedule =>
    match schedule.write m with
    | .error e => throw e
    | .ok schedule => set { h with schedule := some schedule }

def message (typ : UInt8) (epoch : ℕ) (body : Bytes) : HandshakeM HandshakeMessage := do
  let h ← get
  throwIf (65535 < h.sequence) .sequence
  let m : HandshakeMessage := ⟨typ, h.sequence, epoch, body⟩
  runIf (h.schedule.isSome ∧ h.complete = false) (writeTranscript m)
  modify fun h => { h with sequence := h.sequence + 1 }
  return m

variable [CertificateService]

def peerCertificate (outside : Outside) (m : HandshakeMessage) : HandshakeM Unit := do
  let h ← get
  match parseCertificate m.body [] with
  | .error e => throw e
  | .ok raw =>
    match verifyPeer h.config raw h.client outside with
    | .error e => do
      set { h with state.peerCertificates := [] }
      throw e
    | .ok certificates => do
      set { h with state.peerCertificates := certificates }
      writeTranscript m

def peerCertificateVerify (m : HandshakeMessage) (offered : List U16) : HandshakeM Unit := do
  let h ← get
  match h.state.peerCertificates, h.schedule with
  | [], _ => throw .unexpectedMessage
  | _ :: _, none => throw .nilDereference
  | leaf :: _, some schedule =>
    match verifyCertificateVerify leaf.key offered m.body schedule.transcriptSum h.client with
    | .error e => throw e
    | .ok () => writeTranscript m

/-- The secret the peer's Finished is made with. -/
def peerSecret (h : HandshakeState) (schedule : KeySchedule) : Bytes :=
  if h.client then schedule.serverHandshake else schedule.clientHandshake

def peerFinished (m : HandshakeMessage) : HandshakeM Unit := do
  let h ← get
  match h.schedule with
  | none => throw .nilDereference
  | some schedule =>
    match schedule.finished (h.peerSecret schedule) with
    | .error e => throw e
    | .ok want => do
      throwIf (want ≠ m.body) .decrypt
      writeTranscript m

def finish (outside : Outside) : HandshakeM Unit := do
  let h ← get
  match if h.config.verifyConnection then outside.connectionRefused else none with
  | some e => throw e
  | none => set { h with
      state.handshakeComplete := true
      complete := true
      peerCIDUpdates := h.cidNegotiated && !h.peerCID.isEmpty }

/-- `signCertificateVerify` with the signature from outside. -/
def signCertificateVerify (signer : PublicKey) (scheme : U16) (transcript : Bytes) (server : Bool)
    (signature : Option Bytes) : Except Err Bytes :=
  if keySupportsSignature signer scheme = false then .error .signature
  else
    match signatureInput scheme transcript server, signature with
    | .error e, _ => .error e
    | .ok _, none => .error .signature
    | .ok _, some signature => ((({} : WireWriter).writeUint16 scheme).vector16 signature).result

def certificateFlight (outside : Outside) (cert : Option OwnCertificate) (scheme : U16) :
    HandshakeM (List HandshakeMessage) := do
  match encodeCertificate ((cert.map OwnCertificate.chain).getD []) [] with
  | .error e => throw e
  | .ok body => do
    let certificate ← message msgCertificate 2 body
    let h ← get
    match cert, h.schedule with
    | none, _ => return [certificate]
    | some _, none => throw .nilDereference
    | some cert, some schedule =>
      match cert.signer with
      | none => throw .signature
      | some signer =>
        match signCertificateVerify signer scheme schedule.transcriptSum (!h.client) outside.signature with
        | .error e => throw e
        | .ok body => do
          let verify ← message msgCertificateVerify 2 body
          return [certificate, verify]

/-- The certificate to use: a client takes the first the request supports, a server the first for the
name asked for, or else the first that can sign. -/
def chooseCertificate (config : Config) (outside : Outside) (signatures : List U16) (serverName : Bytes)
    (authorities : List Bytes) (client : Bool) : Except Err (Option (OwnCertificate × U16)) :=
  let usable := config.certificates.filterMap fun cert =>
    match cert.signer with
    | none => none
    | some signer =>
      match selectSignature signer signatures with
      | .error _ => none
      | .ok scheme => some (cert, scheme)
  if client then .ok (usable.find? fun choice => outside.supports signatures authorities choice.1)
  else
    let named := usable.find? fun choice =>
      (choice.1.chain.head?.bind CertificateService.parseX509).isSome &&
        (serverName.isEmpty || outside.named serverName choice.1)
    match named.or usable.head? with
    | some choice => .ok (some choice)
    | none => .error .handshakeFailure

end HandshakeState

end Socat.Dtls13.Negotiation
