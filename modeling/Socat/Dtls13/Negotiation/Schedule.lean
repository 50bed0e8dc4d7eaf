import Socat.Dtls13.Negotiation.Hello

/-! # Transcript and key schedule

The transcript is the concatenation of the handshake messages, each without the fields DTLS adds to it.
After a retry the first ClientHello is represented by its hash. Every secret is derived from the shared
secret and the hash of the transcript so far. The hash functions are outside.
-/

namespace Socat.Dtls13

/-- The message as it enters the transcript. -/
def HandshakeMessage.transcript (m : HandshakeMessage) : Except Err Bytes :=
  if maxHandshakeBody < m.body.length then .error .handshakeLimit
  else ((({} : WireWriter).writeUint8 m.typ).vector24 m.body).result

namespace Negotiation

def msgMessageHash : UInt8 := 254

inductive HashFunction where
  | sha256
  | sha384
deriving DecidableEq, Repr

def HashFunction.size : HashFunction → ℕ
  | .sha256 => 32
  | .sha384 => 48

/-- SHA-2 with HMAC and HKDF over it. -/
class Digests where
  sum : HashFunction → Bytes → Bytes
  hmac : HashFunction → (key data : Bytes) → Bytes
  extract : HashFunction → (secret salt : Bytes) → Bytes
  expand : HashFunction → (secret info : Bytes) → (length : ℕ) → Bytes
  sum_length : ∀ hash data, (sum hash data).length = hash.size
  hmac_length : ∀ hash key data, (hmac hash key data).length = hash.size
  expand_length : ∀ hash secret info length, (expand hash secret info length).length = length

/-- The hash function of a suite. -/
def CipherSuite.hash (suite : CipherSuite) : HashFunction :=
  if suite.hashSize = 48 then .sha384 else .sha256

def ascii (text : String) : Bytes := text.toUTF8.toList

variable [Digests]

/-- `expandLabel`, whose bounds hold for the labels and contexts below. -/
def expandLabel (hash : HashFunction) (secret : Bytes) (label : String) (context : Bytes) (length : ℕ) : Bytes :=
  let name := ascii "dtls13" ++ ascii label
  Digests.expand hash secret
    (be16 length ++ UInt8.ofNat name.length :: name ++ UInt8.ofNat context.length :: context) length

/-- `transcript` holds the bytes written to the running hash. -/
structure KeySchedule where
  suite : CipherSuite
  transcript : Bytes
  master : Bytes
  clientHandshake : Bytes
  serverHandshake : Bytes
deriving DecidableEq, Repr

namespace KeySchedule

def hash (s : KeySchedule) : HashFunction := CipherSuite.hash s.suite

/-- `transcript.Sum(nil)`. -/
def transcriptSum (s : KeySchedule) : Bytes := Digests.sum s.hash s.transcript

def derive (s : KeySchedule) (secret : Bytes) (label : String) : Bytes :=
  expandLabel s.hash secret label s.transcriptSum s.hash.size

def write (s : KeySchedule) (m : HandshakeMessage) : Except Err KeySchedule :=
  match m.transcript with
  | .error e => .error e
  | .ok wire => .ok { s with transcript := s.transcript ++ wire }

def finished (s : KeySchedule) (secret : Bytes) : Except Err Bytes :=
  if secret.length ≠ s.hash.size then .error .keyMaterial
  else .ok (Digests.hmac s.hash (expandLabel s.hash secret "finished" [] s.hash.size) s.transcriptSum)

def applicationSecrets (s : KeySchedule) : Bytes × Bytes :=
  (s.derive s.master "c ap traffic", s.derive s.master "s ap traffic")

end KeySchedule

def newKeySchedule (id : U16) (shared helloTranscript : Bytes) : Except Err KeySchedule :=
  match suiteFor id with
  | .error e => .error e
  | .ok suite =>
    if shared = [] then .error .keyMaterial
    else
      let hash := CipherSuite.hash suite
      let zeros := List.replicate hash.size 0
      let early := Digests.extract hash zeros zeros
      let handshake := Digests.extract hash shared
        (expandLabel hash early "derived" (Digests.sum hash []) hash.size)
      let s : KeySchedule := ⟨suite, helloTranscript, [], [], []⟩
      .ok { s with
        clientHandshake := s.derive handshake "c hs traffic"
        serverHandshake := s.derive handshake "s hs traffic"
        master := Digests.extract hash zeros
          (expandLabel hash handshake "derived" (Digests.sum hash []) hash.size) }

/-! ## The transcript of a retry -/

def retryTranscriptHash (id : U16) (firstHash retry secondClientHello : Bytes) : Except Err Bytes :=
  match suiteFor id with
  | .error e => .error e
  | .ok suite =>
    if firstHash.length ≠ (CipherSuite.hash suite).size then .error .keyMaterial
    else
      let w := (({} : WireWriter).writeUint8 msgMessageHash).vector24 firstHash
      ({ w with data := w.data ++ retry ++ secondClientHello } : WireWriter).result

def retryTranscript (id : U16) (firstClientHello retry secondClientHello : Bytes) : Except Err Bytes :=
  match suiteFor id with
  | .error e => .error e
  | .ok suite =>
    retryTranscriptHash id (Digests.sum (CipherSuite.hash suite) firstClientHello) retry secondClientHello

end Negotiation

end Socat.Dtls13
