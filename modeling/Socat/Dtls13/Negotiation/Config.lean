import Socat.Dtls13.Negotiation.Certificate

/-! # Configuration and key exchange groups

`prepareConfig` fills in defaults and refuses what a handshake cannot work with; preparing a prepared
configuration changes nothing. A key share of a hybrid group is an elliptic-curve key next to an ML-KEM
key or ciphertext, so its size depends on the side it comes from.
-/

namespace Socat.Dtls13.Negotiation

/-! ## Groups -/

inductive Kem where
  | none
  | mlkem768
  | mlkem1024
deriving DecidableEq, Repr

inductive ExchangeCurve where
  | x25519
  | p256
  | p384
  | p521
deriving DecidableEq, Repr

inductive ShareOrigin where
  | fromClient
  | fromServer
deriving DecidableEq, Repr

structure KeyExchangeGroup where
  id : U16
  curve : ExchangeCurve
  kem : Kem := .none
  kemFirst : Bool := false
deriving DecidableEq, Repr

def groupX25519 : U16 := 29

def keyExchangeGroups : List KeyExchangeGroup :=
  [{ id := 4588, curve := .x25519, kem := .mlkem768, kemFirst := true },
   { id := 4587, curve := .p256, kem := .mlkem768 },
   { id := 4589, curve := .p384, kem := .mlkem1024 },
   { id := groupX25519, curve := .x25519 },
   { id := 23, curve := .p256 },
   { id := 24, curve := .p384 },
   { id := 25, curve := .p521 }]

def groupFor (id : U16) : Except Err KeyExchangeGroup :=
  match keyExchangeGroups.find? fun group => group.id = id with
  | some group => .ok group
  | none => .error .illegalParameter

def defaultGroups : List U16 := keyExchangeGroups.map KeyExchangeGroup.id

namespace KeyExchangeGroup

/-- The sizes of the elliptic-curve and the ML-KEM part of a share. -/
def componentSizes (g : KeyExchangeGroup) (origin : ShareOrigin) : ℕ × ℕ :=
  (match g.curve with
    | .x25519 => 32
    | .p256 => 65
    | .p384 => 97
    | .p521 => 133,
   match g.kem, origin with
    | .none, _ => 0
    | .mlkem768, .fromClient => 1184
    | .mlkem768, .fromServer => 1088
    | .mlkem1024, _ => 1568)

def shareSize (g : KeyExchangeGroup) (origin : ShareOrigin) : ℕ :=
  (g.componentSizes origin).1 + (g.componentSizes origin).2

end KeyExchangeGroup

def clientShareEntryLen (id : U16) : Except Err ℕ :=
  match groupFor id with
  | .error e => .error e
  | .ok g => .ok (4 + g.shareSize .fromClient)

/-- Key exchange with everything random in it named by a seed: the share a client generates, what it
computes from the server's share, and the server's share with the secret it computes from the client's. -/
class KeyExchange where
  generate : KeyExchangeGroup → (seed : Bytes) → Bytes
  agree : KeyExchangeGroup → (seed peer : Bytes) → Except Err Bytes
  respond : KeyExchangeGroup → (seed peer : Bytes) → Except Err (Bytes × Bytes)
  generate_length : ∀ group seed, (generate group seed).length = group.shareSize .fromClient

/-- A private key; its share is `public` in the source. -/
structure KeyShare where
  group : KeyExchangeGroup
  seed : Bytes
deriving DecidableEq, Repr

def KeyShare.share [KeyExchange] (k : KeyShare) : Bytes := KeyExchange.generate k.group k.seed

def KeyShare.shared [KeyExchange] (k : KeyShare) (peer : Bytes) : Except Err Bytes :=
  if peer.length ≠ k.group.shareSize .fromServer then .error .illegalParameter
  else KeyExchange.agree k.group k.seed peer

/-- A fresh key; `none` is a failing source of random numbers. -/
def generateShare (id : U16) (seed : Option Bytes) : Except Err KeyShare :=
  match groupFor id, seed with
  | .error e, _ => .error e
  | .ok _, none => .error .random
  | .ok group, some seed => .ok ⟨group, seed⟩

/-- The server's share and the shared secret. -/
def serverShare [KeyExchange] (id : U16) (peer : Bytes) (seed : Option Bytes) : Except Err (Bytes × Bytes) :=
  match groupFor id with
  | .error e => .error e
  | .ok group =>
    if peer.length ≠ group.shareSize .fromClient then .error .illegalParameter
    else
      match seed with
      | none => .error .random
      | some seed => KeyExchange.respond group seed peer

/-! ## Configuration -/

inductive ClientAuth where
  | noClientCert
  | requestClientCert
  | requireAnyClientCert
  | verifyClientCertIfGiven
  | requireAndVerifyClientCert
deriving DecidableEq, Repr

/-- `tls.Certificate`: a chain and the public half of its private key, if that can sign. -/
structure OwnCertificate where
  chain : List Bytes
  signer : Option PublicKey
deriving DecidableEq, Repr

/-- `clientCAs` holds the subjects of the pool; the callbacks appear as whether they are set. -/
structure Config where
  certificates : List OwnCertificate := []
  clientCAs : Option (List Bytes) := none
  serverName : Bytes := []
  nextProtos : List Bytes := []
  clientAuth : ClientAuth := .noClientCert
  insecureSkipVerify : Bool := false
  verifyPeerCertificate : Bool := false
  verifyConnection : Bool := false
  cipherSuites : List U16 := []
  curvePreferences : List U16 := []
  MTU : ℤ := 0
  unfragmentedProbes : Bool := false
  connectionIDLength : ℤ := 0
  disableMigration : Bool := false
  handshakeTimeout : ℤ := 0
  handshakeReadTimeout : ℤ := 0
  maxConnections : ℤ := 0
deriving DecidableEq, Repr

/-- Preference order; AES first when the hardware has it. -/
def defaultCipherSuites (aes : Bool) : List U16 :=
  if aes then [0x1301, 0x1302, 0x1303] else [0x1303, 0x1301, 0x1302]

/-- A list of known codes without repetition. -/
def checkCodes {α : Type} (known : U16 → Except Err α) : List U16 → List U16 → Except Err Unit
  | _, [] => .ok ()
  | before, id :: rest =>
    match known id with
    | .error e => .error e
    | .ok _ => if id ∈ before then .error .config else checkCodes known (before ++ [id]) rest

section

variable [CertificateService]

/-- The checks of one certificate of the configuration. -/
def checkCertificate (cert : OwnCertificate) : Except Err Unit :=
  match cert.chain with
  | [] => .error .certificate
  | leaf :: _ =>
    match encodeCertificate cert.chain [], cert.signer with
    | .error e, _ => .error e
    | .ok _, none => .error .config
    | .ok _, some key =>
      match selectSignature key signatureSchemes, CertificateService.parseX509 leaf with
      | .error e, _ => .error e
      | .ok _, none => .error .config
      | .ok _, some parsed => if key.encoded ≠ parsed.key.encoded then .error .config else .ok ()

def checkCertificates : List OwnCertificate → Except Err Unit
  | [] => .ok ()
  | cert :: rest =>
    match checkCertificate cert with
    | .error e => .error e
    | .ok () => checkCertificates rest

/-- The defaults of `prepareConfig`. -/
def Config.withDefaults (c : Config) (aes : Bool) : Config :=
  { c with
    MTU := if c.MTU = 0 then 1200 else c.MTU
    connectionIDLength :=
      if c.disableMigration then 0
      else if c.connectionIDLength = 0 then 8 else c.connectionIDLength
    handshakeTimeout := if c.handshakeTimeout = 0 then 30000000000 else c.handshakeTimeout
    maxConnections := if c.maxConnections = 0 then 256 else c.maxConnections
    cipherSuites := if c.cipherSuites = [] then defaultCipherSuites aes else c.cipherSuites
    curvePreferences := if c.curvePreferences = [] then defaultGroups else c.curvePreferences }

def checkProtocols (protocols : List Bytes) : Except Err Unit :=
  if protocols = [] then .ok ()
  else
    match encodeALPN protocols with
    | .error e => .error e
    | .ok _ => .ok ()

/-- The length of a connection ID is checked before migration is considered. -/
def prepareConfig (config : Config) (server aes : Bool) : Except Err Config := do
  let c := config.withDefaults aes
  if c.MTU < 256 ∨ 65507 < c.MTU then throw .config
  if (config.connectionIDLength < 1 ∧ config.connectionIDLength ≠ 0) ∨ 32 < config.connectionIDLength then
    throw .config
  if c.handshakeTimeout < 0 then throw .config
  if c.handshakeReadTimeout < 0 then throw .config
  if c.maxConnections < 1 ∨ 65535 < c.maxConnections then throw .config
  checkCodes (fun id => suiteFor id) [] c.cipherSuites
  checkCodes groupFor [] c.curvePreferences
  checkProtocols c.nextProtos
  if server = false ∧ c.insecureSkipVerify = false ∧ c.serverName = [] then throw .config
  if server ∧ c.certificates = [] then throw .config
  checkCertificates c.certificates
  return c

end

end Socat.Dtls13.Negotiation
