import Socat.Dtls13.Negotiation.Hello

/-! # Certificates and signatures

The Certificate and CertificateVerify messages. A chain is parsed and checked before its leaf key is
used; a signature covers a context string and the hash of the transcript. The X.509 library is outside:
`CertificateService` parses a certificate and checks a signature.
-/

namespace Socat.Dtls13.Negotiation

def maxCertificates : ℕ := 64
def maxRSAKeyBits : ℕ := 8192

/-! ## Keys and signature schemes -/

inductive Curve where
  | p224
  | p256
  | p384
  | p521
deriving DecidableEq, Repr

inductive KeyKind where
  | rsa (bits : ℕ)
  | ecdsa (curve : Curve)
  | ed25519 (size : ℕ)
  | mldsa (parameters : ℕ)
  | other
deriving DecidableEq, Repr

/-- A public key with its PKIX encoding. -/
structure PublicKey where
  kind : KeyKind
  encoded : Bytes
deriving DecidableEq, Repr

/-- `pss` is the hash size of an RSA-PSS scheme. -/
structure SignatureAlgorithm where
  id : U16
  pss : Option ℕ := none
  curve : Option Curve := none
  mldsa : Option ℕ := none
deriving DecidableEq, Repr

def schemeEd25519 : U16 := 0x0807

def signatureAlgorithms : List SignatureAlgorithm :=
  [{ id := 0x0904, mldsa := some 44 },
   { id := 0x0905, mldsa := some 65 },
   { id := 0x0906, mldsa := some 87 },
   { id := 0x0804, pss := some 32 },
   { id := 0x0403, curve := some .p256 },
   { id := schemeEd25519 },
   { id := 0x0805, pss := some 48 },
   { id := 0x0806, pss := some 64 },
   { id := 0x0503, curve := some .p384 },
   { id := 0x0603, curve := some .p521 }]

def signatureSchemes : List U16 := signatureAlgorithms.map SignatureAlgorithm.id

def signatureFor (id : U16) : Except Err SignatureAlgorithm :=
  match signatureAlgorithms.find? fun algorithm => algorithm.id = id with
  | some algorithm => .ok algorithm
  | none => .error .signature

def keySupportsSignature (key : PublicKey) (scheme : U16) : Bool :=
  match signatureFor scheme with
  | .error _ => false
  | .ok a =>
    match key.kind with
    | .rsa bits => a.pss.any fun size => decide (bits ≤ maxRSAKeyBits) && decide (2 * size + 2 ≤ (bits + 6) / 8)
    | .ecdsa curve => a.curve = some curve
    | .ed25519 size => decide (size = 32) && decide (a.id = schemeEd25519)
    | .mldsa parameters => a.mldsa = some parameters
    | .other => false

def selectSignature (key : PublicKey) (offered : List U16) : Except Err U16 :=
  match signatureSchemes.find? fun scheme => offered.contains scheme && keySupportsSignature key scheme with
  | some scheme => .ok scheme
  | none => .error .signature

/-! ## The X.509 library -/

structure X509 where
  version : ℕ
  key : PublicKey
  keyUsage : ℕ
deriving DecidableEq, Repr

class CertificateService where
  parseX509 : Bytes → Option X509
  checkSignature : PublicKey → (scheme : U16) → (input signature : Bytes) → Bool

/-! ## Certificate -/

/-- The loop of `encodeCertificate`. -/
def encodeChain : List Bytes → WireWriter → Except Err WireWriter
  | [], list => .ok list
  | der :: rest, list =>
    if der = [] then .error .certificate
    else if (maxHandshakeBody : ℤ) - list.data.length - 5 < der.length then .error .handshakeLimit
    else encodeChain rest ((list.vector24 der).vector16 [])

def encodeCertificate (chain : List Bytes) (context : Bytes) : Except Err Bytes :=
  if maxCertificates < chain.length then .error .handshakeLimit
  else
    match encodeChain chain {} with
    | .error e => .error e
    | .ok list =>
      let w := (({} : WireWriter).vector8 context).vector24 list.data
      if maxHandshakeBody < w.data.length then .error .handshakeLimit else w.result

/-- The loop of `parseCertificate`. -/
def parseChainLoop : ℕ → WireReader → List Bytes → Except Err (List Bytes)
  | 0, r, chain => finished r chain
  | fuel + 1, r, chain =>
    if r.data = [] ∨ r.failed then finished r chain
    else if chain.length = maxCertificates then .error .handshakeLimit
    else
      let (der, r) := r.vector24
      let (ext, r) := r.vector16
      if r.failed ∨ der = [] then .error .decode
      else if ext ≠ [] then .error .unsupportedExtension
      else parseChainLoop fuel r (chain ++ [der])

def parseCertificate (data expectedContext : Bytes) : Except Err (List Bytes) :=
  if maxHandshakeBody < data.length then .error .handshakeLimit
  else
    let (context, r) := (WireReader.mk data false).vector8
    let (list, r) := r.vector24
    if r.done = false then .error .decode
    else if context ≠ expectedContext then .error .illegalParameter
    else parseChainLoop list.length ⟨list, false⟩ []

def parseCertificateChain [CertificateService] (raw : List Bytes) : Except Err (List X509) :=
  if maxCertificates < raw.length then .error .handshakeLimit
  else raw.mapM fun der =>
    match CertificateService.parseX509 der with
    | none => .error .certificate
    | some cert => if cert.version ≠ 3 then .error .certificate else .ok cert

/-! ## CertificateRequest -/

/-- The loop over the names of authorities. -/
def parseNamesLoop : ℕ → WireReader → List Bytes → Except Err (List Bytes)
  | 0, _, names => .ok names
  | fuel + 1, r, names =>
    if r.data = [] ∨ r.failed then .ok names
    else
      let (name, r) := r.vector16
      if name = [] ∨ r.failed then .error .decode else parseNamesLoop fuel r (names ++ [name])

def parseAuthorities (data : Bytes) : Except Err (List Bytes) :=
  let (list, r) := (WireReader.mk data false).vector16
  if r.done = false ∨ list = [] then .error .decode else parseNamesLoop list.length ⟨list, false⟩ []

/-- The signature schemes and the authorities a server asks for. -/
def parseCertificateRequest (data : Bytes) : Except Err (List U16 × List Bytes) := do
  let (context, r) := (WireReader.mk data false).vector8
  let (extData, r) := r.vector16
  if r.done = false then throw .decode
  if context ≠ [] then throw .illegalParameter
  let ext ← parseExtensions extData msgCertificateRequest
  match ext.lookup extSignatureAlgorithms with
  | none => throw .missingExtension
  | some signatures =>
    let schemes ← parseList16 signatures
    let authorities ← optional (ext.lookup extCertificateAuthorities) [] parseAuthorities
    return (schemes, authorities)

/-- The loop of `encodeCertificateRequest`. -/
def encodeNames : List Bytes → WireWriter → Except Err WireWriter
  | [], list => .ok list
  | name :: rest, list =>
    if name = [] then .error .decode
    else
      let list := list.vector16 name
      if list.failed ∨ 65533 < list.data.length then .error .handshakeLimit else encodeNames rest list

def encodeCertificateRequest (authorities : List Bytes) : Except Err Bytes := do
  let signatures ← encodeList16 signatureSchemes
  let ext := (∅ : Extensions).insert extSignatureAlgorithms signatures
  let ext ← if authorities = [] then pure ext else do
    let list ← encodeNames authorities {}
    pure (ext.insert extCertificateAuthorities (({} : WireWriter).vector16 list.data).data)
  let encoded ← Extensions.marshal ext
  ((({} : WireWriter).vector8 []).vector16 encoded).result

/-! ## CertificateVerify -/

def certificateVerifyInput (transcript : Bytes) (server : Bool) : Bytes :=
  let context := if server then "TLS 1.3, server CertificateVerify" else "TLS 1.3, client CertificateVerify"
  List.replicate 64 0x20 ++ context.toUTF8.toList ++ [0] ++ transcript

def signatureInput (scheme : U16) (transcript : Bytes) (server : Bool) : Except Err (Bytes × SignatureAlgorithm) :=
  if transcript.length ≠ 32 ∧ transcript.length ≠ 48 then .error .signature
  else
    match signatureFor scheme with
    | .error e => .error e
    | .ok algorithm => .ok (certificateVerifyInput transcript server, algorithm)

def verifyCertificateVerify [CertificateService] (key : PublicKey) (offered : List U16)
    (data transcript : Bytes) (server : Bool) : Except Err Unit :=
  let (scheme, r) := (WireReader.mk data false).readCode
  let (signature, r) := r.vector16
  if r.done = false ∨ signature = [] then .error .decode
  else if scheme ∉ offered ∨ keySupportsSignature key scheme = false then .error .illegalParameter
  else
    match signatureInput scheme transcript server with
    | .error e => .error e
    | .ok (input, algorithm) =>
      if CertificateService.checkSignature key algorithm.id input signature then .ok () else .error .signature

end Socat.Dtls13.Negotiation
