import Socat.Dtls13.Negotiation.State

/-! # The handshake of a client

A client sends its hello, answers at most one HelloRetryRequest with a second hello that differs from the
first only in the cookie and the key share asked for, and then takes the server's flight message by
message. The transcript starts with both hellos and the retry between them, or with the one hello.
-/

namespace Socat.Dtls13.Negotiation

open HandshakeState

open Machine (throwIf lift)

structure ClientHandshake extends HandshakeState where
  hello : ClientHello
  firstHello : Bytes := []
  retryHello : Bytes := []
  shares : OrderedMap U16 KeyShare := ∅
  phase : Phase := .serverHello
  retried : Bool := false
  retrySuite : U16 := 0
  requestedCertificate : Bool := false
  certificateSignatures : List U16 := []
  authorities : List Bytes := []
deriving DecidableEq

abbrev ClientM := EStateM Err ClientHandshake

/-- The payload of a fragment at a path MTU and a length of connection ID. -/
def fragmentBudget (mtu : ℤ) (cid : ℕ) : ℤ :=
  let n := mtu - 12 - 5 - cid - 17
  min (if n < 1 then 1 else n) (16384 - 12)

/-- `strings.TrimSuffix(name, ".")`. -/
def trimDot (name : Bytes) : Bytes := if name.getLast? = some 0x2e then name.dropLast else name

namespace ClientHandshake

/-! ## The first hello -/

section

variable [NameService]

def addServerName (config : Config) (ext : Extensions) : Except Err Extensions :=
  let name := trimDot config.serverName
  if name ≠ [] ∧ NameService.isIP name = false then
    match encodeServerName name with
    | .error e => .error e
    | .ok encoded => .ok (ext.insert extServerName encoded)
  else .ok ext

def addProtocols (config : Config) (ext : Extensions) : Except Err Extensions :=
  if config.nextProtos ≠ [] then
    match encodeALPN config.nextProtos with
    | .error e => .error e
    | .ok encoded => .ok (ext.insert extALPN encoded)
  else .ok ext

def addConnectionID (localCID : Bytes) (ext : Extensions) : Extensions :=
  if localCID ≠ [] then (ext.insert extConnectionID (({} : WireWriter).vector8 localCID).data).insert extRRC []
  else ext

/-- The extensions of the first hello, with an empty list of key shares. -/
def initialExtensions (config : Config) (localCID : Bytes) : Except Err Extensions := do
  let groups ← encodeList16 config.curvePreferences
  let signatures ← encodeList16 signatureSchemes
  let ext := (((∅ : Extensions).insert extSupportedVersions [2, 0xfe, 0xfc]).insert extSupportedGroups groups).insert
    extKeyShare (({} : WireWriter).vector16 []).data |>.insert extSignatureAlgorithms signatures
  let ext ← addServerName config ext
  let ext ← addProtocols config ext
  return addConnectionID localCID ext

end

/-- Preferred share and a small X25519 fallback. Other groups use a retry. -/
def initialShareIDs (config : Config) : List U16 :=
  match config.curvePreferences with
  | [] => []
  | preferred :: rest => preferred :: rest.filter fun id => id = groupX25519

def initialShareBytes : List U16 → Except Err ℕ
  | [] => .ok 0
  | id :: rest =>
    match clientShareEntryLen id, initialShareBytes rest with
    | .error e, _ => .error e
    | .ok _, .error e => .error e
    | .ok size, .ok n => .ok (size + n)

variable [KeyExchange]

/-- The loop of `addInitialShares`. -/
def addShares (seed : U16 → Option Bytes) : List U16 → OrderedMap U16 KeyShare → Bytes →
    Except Err (OrderedMap U16 KeyShare × Bytes)
  | [], shares, entries => .ok (shares, entries)
  | id :: rest, shares, entries =>
    match generateShare id (seed id) with
    | .error e => .error e
    | .ok key =>
      match encodeKeyShare id key.share with
      | .error e => .error e
      | .ok share => addShares seed rest (shares.insert id key) (entries ++ share)

/-- The encoded list of key shares under which the first hello goes out, with their keys. -/
def addInitialShares (config : Config) (seed : U16 → Option Bytes) : Except Err (OrderedMap U16 KeyShare × Bytes) :=
  match addShares seed (initialShareIDs config) ∅ [] with
  | .error e => .error e
  | .ok (shares, entries) => .ok (shares, (({} : WireWriter).vector16 entries).data)

/-- Start from an empty list of key shares and generate the usual ones only when they fit one datagram,
or when even the empty hello cannot fit. -/
def fitInitialClientHello (config : Config) (hello : ClientHello) (seed : U16 → Option Bytes) :
    Except Err (ClientHello × OrderedMap U16 KeyShare × Bytes) := do
  let body ← hello.marshal
  let extra ← initialShareBytes (initialShareIDs config)
  let budget := fragmentBudget config.MTU 0
  if (body.length : ℤ) ≤ budget ∧ budget < body.length + extra then return (hello, ∅, body)
  else
    let (shares, list) ← addInitialShares config seed
    let hello := { hello with extensions := hello.extensions.insert extKeyShare list }
    let body ← hello.marshal
    return (hello, shares, body)

/-- The state of a fresh client and its first flight. `cid` and `outside` answer the random numbers of
the connection ID and of the hello. -/
def newClientHandshake [NameService] [CertificateService] (config : Config) (aes : Bool) (cid : Draw)
    (outside : Outside) : Except Err (ClientHandshake × HandshakeMessage) := do
  let state ← newHandshakeState config true aes cid
  let random ← outside.random.read 32
  let ext ← initialExtensions state.config state.localCID
  let (hello, shares, body) ←
    fitInitialClientHello state.config ⟨random, [], state.config.cipherSuites, ext⟩ outside.seed
  let m : HandshakeMessage := ⟨msgClientHello, state.sequence, 0, body⟩
  let firstHello ← m.transcript
  return ({ state with sequence := state.sequence + 1, hello, shares, firstHello }, m)

/-! ## The server's hellos -/

variable [Digests] [CertificateService]

/-- A step of both sides. -/
def shared {α : Type} (x : HandshakeM α) : ClientM α := fun h =>
  match x h.toHandshakeState with
  | .ok a state => .ok a { h with toHandshakeState := state }
  | .error e state => .error e { h with toHandshakeState := state }

/-- Every extension answers one that was sent, or is in `more`, and may stand in this message. The source
goes through a map in any order, which decides only which of two errors is reported. -/
def checkExtensions (sent : Extensions) (more permitted : List U16) : List U16 → Except Err Unit
  | [] => .ok ()
  | id :: rest =>
    if (sent.lookup id).isNone ∧ id ∉ more then .error .unsupportedExtension
    else if id ∉ permitted then .error .illegalParameter
    else checkExtensions sent more permitted rest

/-- The cookie of a HelloRetryRequest is echoed. -/
def takeCookie (retry : Extensions) : ClientM Bool := do
  match retry.lookup extCookie with
  | none => return false
  | some data => do
    let _ ← lift (parseCookie data)
    modify fun h => { h with hello.extensions := h.hello.extensions.insert extCookie data }
    return true

/-- A key share in the group the HelloRetryRequest asks for. -/
def takeGroup (outside : Outside) (retry : Extensions) : ClientM Bool := do
  match retry.lookup extKeyShare with
  | none => return false
  | some data => do
    throwIf (data.length ≠ 2) .decode
    let group : U16 := Fin.ofNat 65536 (readNat data)
    let h ← get
    throwIf (h.shares.lookup group).isSome .illegalParameter
    let groups ← lift (parseList16 ((h.hello.extensions.lookup extSupportedGroups).getD []))
    throwIf (group ∉ groups) .illegalParameter
    let key ← lift (generateShare group (outside.seed group))
    let share ← lift (encodeKeyShare group key.share)
    set { h with
      hello.extensions := h.hello.extensions.insert extKeyShare (({} : WireWriter).vector16 share).data
      shares := (∅ : OrderedMap U16 KeyShare).insert group key }
    return true

def retryRequest (outside : Outside) (m : HandshakeMessage) (hello : ServerHello) :
    ClientM (List HandshakeMessage) := do
  let h ← get
  throwIf h.retried .unexpectedMessage
  lift (checkExtensions h.hello.extensions [extCookie] [extSupportedVersions, extCookie, extKeyShare]
    (hello.extensions.entries.map Prod.fst))
  let echoed ← takeCookie hello.extensions
  let requested ← takeGroup outside hello.extensions
  throwIf (echoed = false ∧ requested = false) .illegalParameter
  modify fun h => { h with retried := true, retrySuite := hello.suite, retryHello := [] }
  let retryHello ← lift m.transcript
  modify fun h => { h with retryHello }
  let h ← get
  let body ← lift h.hello.marshal
  let response ← shared (message msgClientHello 0 body)
  return [response]

/-- What is hashed before the ServerHello. -/
def sentTranscript (h : ClientHandshake) (suite : U16) : Except Err Bytes :=
  if h.retried then do
    let body ← h.hello.marshal
    let second ← (⟨msgClientHello, 0, 0, body⟩ : HandshakeMessage).transcript
    retryTranscript suite h.firstHello h.retryHello second
  else .ok h.firstHello

/-- What is hashed up to and including the ServerHello. -/
def helloTranscript (h : ClientHandshake) (suite : U16) (m : HandshakeMessage) : Except Err Bytes := do
  let transcript ← h.sentTranscript suite
  let server ← m.transcript
  return transcript ++ server

/-- The connection ID the server wants to see. -/
def takeConnectionID (ext : Extensions) : ClientM Unit :=
  match ext.lookup extConnectionID with
  | none => pure ()
  | some data =>
    match parseConnectionID data with
    | .error e => do
      modify fun h => { h with peerCID := [] }
      throw e
    | .ok peerCID => modify fun h => { h with peerCID, cidNegotiated := true }

/-- Return routability checks need connection IDs. -/
def takeRRC (ext : Extensions) : ClientM Unit :=
  match ext.lookup extRRC with
  | none => pure ()
  | some data => do
    let h ← get
    throwIf (data ≠ [] ∨ h.cidNegotiated = false) .illegalParameter
    set { h with rrc := true }

/-- A failed schedule leaves none. -/
def startSchedule (suite : U16) (key : KeyShare) (sharedSecret transcript : Bytes) : ClientM Unit := do
  let h ← get
  match newKeySchedule suite sharedSecret transcript with
  | .error e => do
    set { h with schedule := none }
    throw e
  | .ok schedule => set { h with
      schedule := some schedule
      shares := ∅
      state.cipherSuite := suite
      state.curveID := key.group.id
      phase := .encryptedExtensions }

/-- A ServerHello that asks for nothing more. -/
def acceptHello (m : HandshakeMessage) (hello : ServerHello) : ClientM (List HandshakeMessage) := do
  let h ← get
  lift (checkExtensions h.hello.extensions [] [extSupportedVersions, extKeyShare, extConnectionID, extRRC]
    (hello.extensions.entries.map Prod.fst))
  let (group, peer) ← lift (parseServerShare ((hello.extensions.lookup extKeyShare).getD []))
  match h.shares.lookup group with
  | none => throw .illegalParameter
  | some key => do
    let sharedSecret ← lift (key.shared peer)
    takeConnectionID hello.extensions
    takeRRC hello.extensions
    let transcript ← lift (h.helloTranscript hello.suite m)
    startSchedule hello.suite key sharedSecret transcript
    return []

/-- The checks on a ServerHello that a HelloRetryRequest passes as well. -/
def checkHello (h : ClientHandshake) (hello : ServerHello) : Except Err Unit :=
  if hello.sessionID ≠ [] ∨ hello.suite ∉ h.hello.suites then .error .illegalParameter
  else if h.retried ∧ hello.suite ≠ h.retrySuite then .error .illegalParameter
  else
    match hello.extensions.lookup extSupportedVersions with
    | none => .error .protocolVersion
    | some version =>
      if version.length ≠ 2 then .error .decode
      else if Fin.ofNat 65536 (readNat version) ≠ version13 then .error .illegalParameter
      else .ok ()

def serverHello (outside : Outside) (m : HandshakeMessage) : ClientM (List HandshakeMessage) := do
  let hello ← lift (parseServerHello m.body)
  let h ← get
  lift (h.checkHello hello)
  if hello.retry then retryRequest outside m hello else acceptHello m hello

/-! ## The rest of the server's flight -/

/-- One extension of EncryptedExtensions. -/
def takeExtension (entry : U16 × Bytes) : ClientM Unit := do
  let h ← get
  throwIf (h.hello.extensions.lookup entry.1).isNone .unsupportedExtension
  if entry.1 = extServerName then throwIf (entry.2 ≠ []) .decode
  else if entry.1 = extALPN then
    let protocols ← lift (parseALPN entry.2)
    match protocols with
    | [protocol] => do
      throwIf (protocol ∉ h.config.nextProtos) .illegalParameter
      set { h with state.negotiatedProtocol := protocol }
    | _ => throw .illegalParameter
  else if entry.1 = extSupportedGroups then
    let _ ← lift (parseList16 entry.2)
  else throw .illegalParameter

def takeExtensions : List (U16 × Bytes) → ClientM Unit
  | [] => pure ()
  | entry :: rest => do
    takeExtension entry
    takeExtensions rest

def encryptedExtensions (m : HandshakeMessage) : ClientM Unit := do
  let (data, r) := (WireReader.mk m.body false).vector16
  throwIf (r.done = false) .decode
  let ext ← lift (parseExtensions data msgEncryptedExtensions)
  takeExtensions ext.entries
  shared (writeTranscript m)

def setPhase (phase : Phase) : ClientM Unit := modify fun h => { h with phase }

/-- The client's own certificate, if the server asked for one. -/
def ownCertificate (outside : Outside) : ClientM (List HandshakeMessage) := do
  let h ← get
  if h.requestedCertificate then
    let chosen ← lift
      (chooseCertificate h.config outside h.certificateSignatures [] h.authorities true)
    shared (certificateFlight outside (chosen.map Prod.fst) ((chosen.map Prod.snd).getD 0))
  else return []

def applicationSecrets : ClientM Unit := do
  let h ← get
  match h.schedule with
  | none => throw .nilDereference
  | some schedule => set { h with
      clientApplication := schedule.applicationSecrets.1
      serverApplication := schedule.applicationSecrets.2 }

def clientFinished : ClientM HandshakeMessage := do
  let h ← get
  match h.schedule with
  | none => throw .nilDereference
  | some schedule => do
    let body ← lift (schedule.finished schedule.clientHandshake)
    shared (message msgFinished 2 body)

def finalFlight (outside : Outside) : ClientM (List HandshakeMessage) := do
  applicationSecrets
  let certificate ← ownCertificate outside
  let finished ← clientFinished
  shared (finish outside)
  return certificate ++ [finished]

/-! ## The handler -/

def takeServerHello (outside : Outside) (m : HandshakeMessage) : ClientM (List HandshakeMessage) := do
  throwIf (m.typ ≠ msgServerHello ∨ m.epoch ≠ 0) .unexpectedMessage
  serverHello outside m

def takeEncryptedExtensions (m : HandshakeMessage) : ClientM (List HandshakeMessage) := do
  throwIf (m.typ ≠ msgEncryptedExtensions) .unexpectedMessage
  encryptedExtensions m
  setPhase .certificateRequest
  return []

/-- The error of the parser is looked at after its results are assigned. -/
def takeCertificateRequest (m : HandshakeMessage) : ClientM (List HandshakeMessage) := do
  match parseCertificateRequest m.body with
  | .error e => do
    modify fun h => { h with certificateSignatures := [], authorities := [] }
    throw e
  | .ok (signatures, authorities) => do
    modify fun h => { h with certificateSignatures := signatures, authorities, requestedCertificate := true }
    shared (writeTranscript m)
    setPhase .certificate
    return []

def takeCertificate (outside : Outside) (m : HandshakeMessage) : ClientM (List HandshakeMessage) := do
  throwIf (m.typ ≠ msgCertificate) .unexpectedMessage
  shared (peerCertificate outside m)
  setPhase .certificateVerify
  return []

def takeCertificateVerify (m : HandshakeMessage) : ClientM (List HandshakeMessage) := do
  throwIf (m.typ ≠ msgCertificateVerify) .unexpectedMessage
  shared (peerCertificateVerify m signatureSchemes)
  setPhase .finished
  return []

def takeFinished (outside : Outside) (m : HandshakeMessage) : ClientM (List HandshakeMessage) := do
  throwIf (m.typ ≠ msgFinished) .unexpectedMessage
  shared (peerFinished m)
  finalFlight outside

def handle (outside : Outside) (m : HandshakeMessage) : ClientM (List HandshakeMessage) := do
  let h ← get
  throwIf h.complete .unexpectedMessage
  match h.phase with
  | .serverHello => takeServerHello outside m
  | phase => do
    throwIf (m.epoch ≠ 2) .unexpectedMessage
    match phase with
    | .encryptedExtensions => takeEncryptedExtensions m
    | .certificateRequest =>
      if m.typ = msgCertificateRequest then takeCertificateRequest m else takeCertificate outside m
    | .certificate => takeCertificate outside m
    | .certificateVerify => takeCertificateVerify m
    | .finished => takeFinished outside m
    | _ => throw .unexpectedMessage

end ClientHandshake

end Socat.Dtls13.Negotiation
