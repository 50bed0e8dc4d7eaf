import Socat.Dtls13.Model.State
import Socat.Dtls13.Negotiation.Server

/-! # Retry cookies

A server keeps nothing of a first ClientHello: what it chose goes into a cookie, under a MAC that binds it
to the client's address, and comes back in the second ClientHello. Two keys are valid at a time; the older
one is dropped a lifetime after it was replaced.
-/

namespace Socat.Dtls13.Negotiation

/-- A wall-clock time in nanoseconds of the Unix epoch, within the seconds a clock can show. -/
structure Instant where
  nanoseconds : ℤ
  representable : nanoseconds / 1000000000 < 2 ^ 63

namespace Instant

/-- `Time.Unix`. -/
def unix (t : Instant) : ℤ := t.nanoseconds / 1000000000

end Instant

/-- `cookieLifetime` in nanoseconds. -/
def cookieLifetime : ℤ := 60000000000

def maxClientHelloBody : ℕ := 2 * 65535 + 256

/-- Addresses are written into the MAC as text, which determines them. -/
class AddressText where
  text : AddrPort → Bytes
  text_injective : Function.Injective text

/-! ## Keys -/

/-- `lastRotate` is `none` for the zero time. -/
structure CookieSecrets where
  current : Bytes32
  previous : Bytes32
  lastRotate : Option Instant

namespace CookieSecrets

/-- The secrets after `init`. -/
def initial (key : Bytes32) (now : Instant) : CookieSecrets := ⟨key, key, some now⟩

def rotateTo (s : CookieSecrets) (next : Bytes32) (now : Instant) : CookieSecrets :=
  ⟨next, s.current, some now⟩

/-- `next` is the key drawn for a rotation; `none` fails. -/
def maybeRotate (s : CookieSecrets) (next : Option Bytes32) (now : Instant) : CookieSecrets :=
  match s.lastRotate with
  | none => { s with lastRotate := some now }
  | some last =>
    if now.nanoseconds - last.nanoseconds < cookieLifetime then s
    else
      match next with
      | none => s
      | some next => s.rotateTo next now

end CookieSecrets

variable [Digests]

/-- What the MAC of a cookie is computed over. -/
def cookieInput [AddressText] (peer : AddrPort) (data : Bytes) : Bytes :=
  ascii "dtls13 retry cookie" ++ [0] ++ AddressText.text peer ++ [0] ++ data

def cookieMAC [AddressText] (key : Bytes) (peer : AddrPort) (data : Bytes) : Bytes :=
  Digests.hmac .sha256 key (cookieInput peer data)

def CookieSecrets.validMAC [AddressText] (s : CookieSecrets) (peer : AddrPort) (data tag : Bytes) : Bool :=
  tag = cookieMAC s.current peer data || tag = cookieMAC s.previous peer data

/-! ## What must not change between the hellos -/

/-- The extensions that stay the same: all but the cookie, padding and pre-shared keys, early data, and
the key shares if others were asked for. -/
def fingerprinted (groupRequested : Bool) (id : U16) : Bool :=
  id ≠ extCookie && id ≠ extPadding && id ≠ extPreSharedKey && id ≠ extEarlyData &&
    (!groupRequested || id ≠ extKeyShare)

def retryFingerprint (hello : ClientHello) (groupRequested : Bool) : Except Err Bytes :=
  match ({ hello with extensions := hello.extensions.filter (fingerprinted groupRequested) }).marshal with
  | .error e => .error e
  | .ok wire => .ok (Digests.sum .sha256 wire)

/-- The loop of `pskIdentityHashes`. -/
def identityHashesLoop : ℕ → WireReader → Bytes → Bytes
  | 0, _, hashes => hashes
  | fuel + 1, r, hashes =>
    if r.data = [] ∨ r.failed then hashes
    else
      let (identity, r) := r.vector16
      let (_, r) := r.take 4
      identityHashesLoop fuel r (hashes ++ Digests.sum .sha256 identity)

def pskIdentityHashes (data : Option Bytes) : Bytes :=
  match data with
  | none => []
  | some data =>
    let (identities, _) := (WireReader.mk data false).vector16
    identityHashesLoop identities.length ⟨identities, false⟩ []

/-- The inner loop of `retryIdentitySubset`: what follows the first occurrence of a hash. -/
def skipIdentity (hash : Bytes) : ℕ → Bytes → Option Bytes
  | 0, _ => none
  | fuel + 1, first =>
    if first = [] then none
    else if first.take 32 = hash then some (first.drop 32)
    else skipIdentity hash fuel (first.drop 32)

def identitySubset : ℕ → Bytes → Bytes → Bool
  | 0, _, second => second.isEmpty
  | fuel + 1, first, second =>
    if second = [] then true
    else
      match skipIdentity (second.take 32) first.length first with
      | none => false
      | some first => identitySubset fuel first (second.drop 32)

/-- The hashes of the second hello are among those of the first, in order. -/
def retryIdentitySubset (first second : Bytes) : Bool := identitySubset second.length first second

/-! ## Issuing -/

/-- What a cookie records of a first hello. -/
structure CookieFields where
  issued : ℕ
  suite : U16
  group : U16
  requested : Bool
  firstHash : Bytes
  fingerprint : Bytes
  identities : Bytes
deriving DecidableEq

def CookieFields.encode (f : CookieFields) : Except Err Bytes :=
  let w := ({} : WireWriter).writeUint8 1
  let w := { w with data := w.data ++ bigEndian f.issued 8 }
  let w := ((w.writeUint16 f.suite).writeUint16 f.group).writeUint8 (if f.requested then 1 else 0)
  let w := w.vector8 f.firstHash
  let w := { w with data := w.data ++ f.fingerprint }
  (w.vector16 f.identities).result

/-- The choices for a first hello. -/
def chooseFields (config : Config) (m : HandshakeMessage) (hello : ClientHello) (offer : ClientOffer)
    (now : Instant) : Except Err CookieFields := do
  if now.unix < 0 then throw .illegalParameter
  let suiteID := (config.cipherSuites.find? fun id => hello.suites.contains id).getD 0
  let group := (config.curvePreferences.find? fun id => offer.groups.contains id).getD 0
  if suiteID = 0 ∨ group = 0 then throw .handshakeFailure
  let suite ← suiteFor suiteID
  let first ← m.transcript
  let requested := (offer.shares.lookup group).isNone
  let fingerprint ← retryFingerprint hello requested
  return { issued := now.unix.toNat, suite := suiteID, group, requested,
           firstHash := Digests.sum (CipherSuite.hash suite) first, fingerprint,
           identities := pskIdentityHashes (hello.extensions.lookup extPreSharedKey) }

namespace CookieSecrets

variable [AddressText]

/-- The cookie for recorded choices. -/
def sealCookie (s : CookieSecrets) (peer : AddrPort) (fields : CookieFields) : Except Err Bytes :=
  match fields.encode with
  | .error e => .error e
  | .ok data => .ok (data ++ cookieMAC s.current peer data)

def issue (s : CookieSecrets) (config : Config) (peer : AddrPort) (m : HandshakeMessage)
    (hello : ClientHello) (offer : ClientOffer) (now : Instant) : Except Err HandshakeMessage := do
  let fields ← chooseFields config m hello offer now
  let cookie ← s.sealCookie peer fields
  let body ← retryHelloBody fields.suite fields.group fields.requested cookie
  return ⟨msgServerHello, 0, 0, body⟩

end CookieSecrets

/-! ## Verifying -/

/-- The fields of a cookie that is well formed. -/
def CookieFields.decode (data : Bytes) : Except Err CookieFields :=
  let (version, r) := (WireReader.mk data false).readUint8
  let (timestamp, r) := r.take 8
  let (suite, r) := r.readCode
  let (group, r) := r.readCode
  let (flag, r) := r.readUint8
  let (firstHash, r) := r.vector8
  let (fingerprint, r) := r.take 32
  let (identities, r) := r.vector16
  if r.done = false ∨ version ≠ 1 ∨ 1 < flag ∨ identities.length % 32 ≠ 0 then .error .illegalParameter
  else .ok ⟨readNat timestamp, suite, group, flag = 1, firstHash, fingerprint, identities⟩

/-- The age test, in whole seconds. -/
def CookieFields.current (f : CookieFields) (now : Instant) : Bool :=
  decide ((f.issued : ℤ) ≤ now.unix) && decide (now.unix - f.issued < cookieLifetime / 1000000000)

/-- The second hello keeps to what the cookie records. -/
def CookieFields.matched (f : CookieFields) (config : Config) (hello : ClientHello) (offer : ClientOffer) : Bool :=
  match suiteFor f.suite, retryFingerprint hello f.requested with
  | .ok suite, .ok fingerprint =>
    decide (f.firstHash.length = (CipherSuite.hash suite).size) && config.cipherSuites.contains f.suite &&
      hello.suites.contains f.suite && (hello.extensions.lookup extEarlyData).isNone &&
      decide (fingerprint = f.fingerprint) &&
      retryIdentitySubset f.identities (pskIdentityHashes (hello.extensions.lookup extPreSharedKey)) &&
      offer.groups.contains f.group && (offer.shares.lookup f.group).isSome &&
      (!f.requested || decide (offer.shares.entries.length = 1))
  | _, _ => false

/-- A second hello with its offer. -/
def parseSecondHello [NameService] (message : HandshakeMessage) : Except Err (ClientHello × ClientOffer) :=
  if message.typ ≠ msgClientHello ∨ message.epoch ≠ 0 ∨ message.sequence ≠ 1 ∨
      maxClientHelloBody < message.body.length then .error .unexpectedMessage
  else
    match parseClientHello message.body with
    | .error e => .error e
    | .ok hello =>
      match parseClientOffer hello with
      | .error e => .error e
      | .ok offer => .ok (hello, offer)

namespace CookieSecrets

variable [AddressText]

/-- The fields of a cookie that carries a valid MAC and is not too old. -/
def openCookie (s : CookieSecrets) (peer : AddrPort) (cookie : Bytes) (now : Instant) : Except Err CookieFields :=
  if now.unix < 0 ∨ cookie.length < 32 then .error .illegalParameter
  else if s.validMAC peer (cookie.take (cookie.length - 32)) (cookie.drop (cookie.length - 32)) = false then
    .error .illegalParameter
  else
    match CookieFields.decode (cookie.take (cookie.length - 32)) with
    | .error e => .error e
    | .ok fields => if fields.current now then .ok fields else .error .illegalParameter

variable [CertificateService]

/-- The state of a server whose HelloRetryRequest carried the cookie. -/
def resume (config : Config) (aes : Bool) (draw : Draw) (message : HandshakeMessage) (offer : ClientOffer)
    (fields : CookieFields) : Except Err ServerHandshake := do
  let state ← newHandshakeState config false aes draw
  let h : ServerHandshake :=
    { state with
      phase := .clientHello, verifiedHello := message, offer, firstHelloHash := fields.firstHash,
      selectedSuite := fields.suite, selectedGroup := fields.group }
  let body ← retryHelloBody fields.suite fields.group fields.requested offer.cookie
  let m : HandshakeMessage := ⟨msgServerHello, h.sequence, 0, body⟩
  let retryHello ← m.transcript
  return { h with sequence := h.sequence + 1, retryHello }

def verify [NameService] (s : CookieSecrets) (config : Config) (aes : Bool) (peer : AddrPort)
    (message : HandshakeMessage) (now : Instant) (draw : Draw) : Except Err ServerHandshake := do
  let (hello, offer) ← parseSecondHello message
  let fields ← s.openCookie peer offer.cookie now
  if fields.matched config hello offer = false then throw .illegalParameter
  resume config aes draw message offer fields

end CookieSecrets

end Socat.Dtls13.Negotiation
