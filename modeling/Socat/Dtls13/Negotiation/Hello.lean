import Socat.Dtls13.Model.Handshake
import Socat.ToMathlib.OrderedMap

/-! # Hellos and their extensions

The codec of ClientHello and ServerHello. Extensions are a map from 16-bit codes; they are written in
ascending order of codes except for `pre_shared_key`, which a ClientHello must end with. What a client
offers is spread over its extensions; `parseClientOffer` collects and checks it.
-/

namespace Socat.Dtls13

/-- `uint16`. -/
abbrev U16 := Fin 65536

instance U16.neZero : NeZero 65536 := ⟨by decide⟩

instance : LawfulBEq U16 := inferInstance

namespace WireReader

/-- `readUint16`, as a code. -/
def readCode (r : WireReader) : U16 × WireReader :=
  let (n, r) := r.readUint16
  (Fin.ofNat 65536 n, r)

end WireReader

namespace Err

abbrev handshakeFailure : Err := .alert 40
abbrev badCertificate : Err := .alert 42
abbrev certificateExpired : Err := .alert 45
abbrev unknownCA : Err := .alert 48
abbrev decrypt : Err := .alert 51
abbrev protocolVersion : Err := .alert 70
abbrev missingExtension : Err := .alert 109
abbrev unsupportedExtension : Err := .alert 110
abbrev certificateRequired : Err := .alert 116
abbrev noApplicationProtocol : Err := .alert 120

end Err

namespace Negotiation

def version13 : U16 := 0xfefc
def legacyVersion : U16 := 0xfefd

def extServerName : U16 := 0
def extSupportedGroups : U16 := 10
def extSignatureAlgorithms : U16 := 13
def extALPN : U16 := 16
def extPadding : U16 := 21
def extPreSharedKey : U16 := 41
def extEarlyData : U16 := 42
def extSupportedVersions : U16 := 43
def extCookie : U16 := 44
def extPSKModes : U16 := 45
def extCertificateAuthorities : U16 := 47
def extKeyShare : U16 := 51
def extConnectionID : U16 := 54
def extRRC : U16 := 61

/-! ## Extensions -/

abbrev Extensions := OrderedMap U16 Bytes

/-- The end of a list: whatever is left over is an error. -/
def finished {α : Type} (r : WireReader) (value : α) : Except Err α :=
  if r.done then .ok value else .error .decode

/-- The loop of `parseExtensions`. A round takes at least the two lengths from the input. -/
def parseExtensionsLoop (messageType : UInt8) : ℕ → WireReader → Extensions → Except Err Extensions
  | 0, r, out => finished r out
  | fuel + 1, r, out =>
    if r.data = [] ∨ r.failed then finished r out
    else
      let (id, r) := r.readCode
      let (body, r) := r.vector16
      if (out.lookup id).isSome then .error .decode
      else if messageType = msgClientHello ∧ id = extPreSharedKey ∧ r.data ≠ [] then .error .decode
      else parseExtensionsLoop messageType fuel r (out.insert id body)

def parseExtensions (data : Bytes) (messageType : UInt8) : Except Err Extensions :=
  parseExtensionsLoop messageType data.length ⟨data, false⟩ ∅

/-- The entries in the order they are written. -/
def Extensions.written (e : Extensions) : List (U16 × Bytes) :=
  e.entries.filter (fun entry => entry.1 ≠ extPreSharedKey) ++
    e.entries.filter (fun entry => entry.1 = extPreSharedKey)

def writeExtension (w : WireWriter) (entry : U16 × Bytes) : WireWriter :=
  (w.writeUint16 entry.1).vector16 entry.2

def Extensions.marshal (e : Extensions) : Except Err Bytes :=
  let w := (Extensions.written e).foldl writeExtension {}
  if w.failed ∨ 65535 < w.data.length then .error .decode else w.result

/-! ## Hellos -/

/-- `[32]byte`. -/
abbrev Bytes32 := { bytes : Bytes // bytes.length = 32 }

/-- `copy` into 32 zero bytes. -/
def Bytes32.ofBytes (bytes : Bytes) : Bytes32 :=
  ⟨(bytes ++ List.replicate 32 0).take 32, by simp⟩

/-- The random number of a HelloRetryRequest. -/
def retryRandom : Bytes32 :=
  ⟨[0xcf, 0x21, 0xad, 0x74, 0xe5, 0x9a, 0x61, 0x11, 0xbe, 0x1d, 0x8c, 0x02, 0x1e, 0x65, 0xb8, 0x91,
    0xc2, 0xa2, 0x11, 0x16, 0x7a, 0xbb, 0x8c, 0x5e, 0x07, 0x9e, 0x09, 0xe2, 0xc8, 0xa8, 0x33, 0x9c], rfl⟩

/-- The 16-bit numbers of a byte string; a last single byte is not looked at. -/
def codes : Bytes → List U16
  | high :: low :: rest => Fin.ofNat 65536 (readNat [high, low]) :: codes rest
  | _ => []

def uint16List (data : Bytes) : Except Err (List U16) :=
  if data = [] ∨ data.length % 2 ≠ 0 then .error .decode else .ok (codes data)

structure ClientHello where
  random : Bytes32
  sessionID : Bytes := []
  suites : List U16
  extensions : Extensions
deriving DecidableEq

def parseClientHello (data : Bytes) : Except Err ClientHello :=
  let (version, r) := (WireReader.mk data false).readCode
  let (random, r) := r.take 32
  let (sessionID, r) := r.vector8
  let (cookie, r) := r.vector8
  let (suites, r) := r.vector16
  let (compression, r) := r.vector8
  let (ext, r) := r.vector16
  if r.done = false ∨ 32 < sessionID.length ∨ suites.length < 2 ∨ suites.length % 2 ≠ 0 ∨ ext.length < 8 then
    .error .decode
  else if version ≠ legacyVersion then .error .protocolVersion
  else if cookie ≠ [] ∨ compression ≠ [0] then .error .illegalParameter
  else
    match parseExtensions ext msgClientHello with
    | .error e => .error e
    | .ok extensions => .ok ⟨Bytes32.ofBytes random, sessionID, codes suites, extensions⟩

def ClientHello.marshal (h : ClientHello) : Except Err Bytes :=
  if 32 < h.sessionID.length ∨ h.suites = [] ∨ 32767 < h.suites.length then .error .decode
  else
    match Extensions.marshal h.extensions with
    | .error e => .error e
    | .ok ext =>
      if ext.length < 8 then .error .decode
      else
        let suites := h.suites.foldl (fun w suite => w.writeUint16 suite) ({} : WireWriter)
        let w := ({} : WireWriter).writeUint16 legacyVersion
        let w := { w with data := w.data ++ h.random.1 }
        ((((w.vector8 h.sessionID).vector8 []).vector16 suites.data).vector8 [0] |>.vector16 ext).result

structure ServerHello where
  random : Bytes32
  sessionID : Bytes := []
  suite : U16
  extensions : Extensions
deriving DecidableEq

def parseServerHello (data : Bytes) : Except Err ServerHello :=
  let (version, r) := (WireReader.mk data false).readCode
  let (random, r) := r.take 32
  let (sessionID, r) := r.vector8
  let (suite, r) := r.readCode
  let (compression, r) := r.readUint8
  let (ext, r) := r.vector16
  if r.done = false ∨ 32 < sessionID.length then .error .decode
  else if version ≠ legacyVersion then .error .protocolVersion
  else if compression ≠ 0 then .error .illegalParameter
  else
    match parseExtensions ext msgServerHello with
    | .error e => .error e
    | .ok extensions => .ok ⟨Bytes32.ofBytes random, sessionID, suite, extensions⟩

def ServerHello.marshal (h : ServerHello) : Except Err Bytes :=
  if 32 < h.sessionID.length then .error .decode
  else
    match Extensions.marshal h.extensions with
    | .error e => .error e
    | .ok ext =>
      let w := ({} : WireWriter).writeUint16 legacyVersion
      let w := { w with data := w.data ++ h.random.1 }
      (((w.vector8 h.sessionID).writeUint16 h.suite).writeUint8 0 |>.vector16 ext).result

def ServerHello.retry (h : ServerHello) : Bool := h.random = retryRandom

/-! ## Bodies of extensions -/

def encodeList16 (values : List U16) : Except Err Bytes :=
  if values = [] ∨ 32767 < values.length then .error .decode
  else
    let list := values.foldl (fun w value => w.writeUint16 value) ({} : WireWriter)
    (({} : WireWriter).vector16 list.data).result

def parseList16 (data : Bytes) : Except Err (List U16) :=
  let (list, r) := (WireReader.mk data false).vector16
  if r.done then uint16List list else .error .decode

def parseVersions (data : Bytes) : Except Err (List U16) :=
  let (list, r) := (WireReader.mk data false).vector8
  if r.done then uint16List list else .error .decode

def encodeKeyShare (group : U16) (share : Bytes) : Except Err Bytes :=
  if share = [] then .error .illegalParameter
  else ((({} : WireWriter).writeUint16 group).vector16 share).result

/-- The loop of `parseClientShares`. -/
def parseSharesLoop (groups : List U16) : ℕ → WireReader → Extensions → Except Err Extensions
  | 0, r, out => finished r out
  | fuel + 1, r, out =>
    if r.data = [] ∨ r.failed then finished r out
    else
      let (group, r) := r.readCode
      let (share, r) := r.vector16
      if r.failed ∨ share = [] then .error .decode
      else if (out.lookup group).isSome then .error .illegalParameter
      else if group ∉ groups then .error .illegalParameter
      else parseSharesLoop groups fuel r (out.insert group share)

/-- The key shares of a client, under their groups. -/
def parseClientShares (data : Bytes) (groups : List U16) : Except Err (OrderedMap U16 Bytes) :=
  let (list, r) := (WireReader.mk data false).vector16
  if r.done then parseSharesLoop groups list.length ⟨list, false⟩ ∅ else .error .decode

def parseServerShare (data : Bytes) : Except Err (U16 × Bytes) :=
  let (group, r) := (WireReader.mk data false).readCode
  let (share, r) := r.vector16
  if r.done = false ∨ share = [] then .error .decode else .ok (group, share)

def parseCookie (data : Bytes) : Except Err Bytes :=
  let (cookie, r) := (WireReader.mk data false).vector16
  if r.done = false ∨ cookie = [] then .error .decode else .ok cookie

def parseConnectionID (data : Bytes) : Except Err Bytes :=
  let (cid, r) := (WireReader.mk data false).vector8
  finished r cid

/-- What the names of a server are checked with: `net.ParseIP` recognises an address. -/
class NameService where
  isIP : Bytes → Bool

def encodeServerName [NameService] (name : Bytes) : Except Err Bytes :=
  if name = [] ∨ (name.any fun byte => byte = 0 ∨ byte = 0x5b ∨ byte = 0x5d ∨ byte = 0x3a) ∨
      name.getLast? = some 0x2e ∨ NameService.isIP name then .error .illegalParameter
  else
    let entry := (({} : WireWriter).writeUint8 0).vector16 name
    if entry.failed then .error .decode else (({} : WireWriter).vector16 entry.data).result

/-- The loop of `parseServerName`. -/
def parseNameLoop [NameService] : ℕ → WireReader → Bytes → Except Err Bytes
  | 0, r, name => finished r name
  | fuel + 1, r, name =>
    if r.data = [] ∨ r.failed then finished r name
    else
      let (kind, r) := r.readUint8
      let (value, r) := r.vector16
      if r.failed ∨ value = [] then .error .decode
      else if kind ≠ 0 ∨ name ≠ [] then .error .illegalParameter
      else
        match encodeServerName value with
        | .error e => .error e
        | .ok _ => parseNameLoop fuel r value

def parseServerName [NameService] (data : Bytes) : Except Err Bytes :=
  let (list, r) := (WireReader.mk data false).vector16
  if r.done = false ∨ list = [] then .error .decode else parseNameLoop list.length ⟨list, false⟩ []

/-- The loop of `encodeALPN`. -/
def encodeProtocols : List Bytes → WireWriter → Except Err WireWriter
  | [], list => .ok list
  | protocol :: rest, list =>
    if protocol = [] then .error .illegalParameter
    else
      let list := list.vector8 protocol
      if 65535 < list.data.length ∨ list.failed then .error .decode else encodeProtocols rest list

def encodeALPN (protocols : List Bytes) : Except Err Bytes :=
  if protocols = [] then .error .illegalParameter
  else
    match encodeProtocols protocols {} with
    | .error e => .error e
    | .ok list => (({} : WireWriter).vector16 list.data).result

/-- The loop of `parseALPN`. -/
def parseProtocolsLoop : ℕ → WireReader → List Bytes → Except Err (List Bytes)
  | 0, r, protocols => finished r protocols
  | fuel + 1, r, protocols =>
    if r.data = [] ∨ r.failed then finished r protocols
    else
      let (protocol, r) := r.vector8
      if protocol = [] then .error .decode else parseProtocolsLoop fuel r (protocols ++ [protocol])

def parseALPN (data : Bytes) : Except Err (List Bytes) :=
  let (list, r) := (WireReader.mk data false).vector16
  if r.done = false ∨ list = [] then .error .decode else parseProtocolsLoop list.length ⟨list, false⟩ []

/-! ## Offers -/

/-- The identities of a `pre_shared_key` extension and how many there are. -/
def countIdentities : ℕ → WireReader → ℕ → Option (ℕ × WireReader)
  | 0, r, count => some (count, r)
  | fuel + 1, r, count =>
    if r.data = [] ∨ r.failed then some (count, r)
    else
      let (identity, r) := r.vector16
      let (_, r) := r.take 4
      if identity = [] ∨ r.failed then none else countIdentities fuel r (count + 1)

/-- The binders take the count of the identities back to zero. -/
def countBinders : ℕ → WireReader → ℤ → Option (ℤ × WireReader)
  | 0, r, count => some (count, r)
  | fuel + 1, r, count =>
    if r.data = [] ∨ r.failed then some (count, r)
    else
      let (binder, r) := r.vector8
      if binder.length < 32 ∨ r.failed then none else countBinders fuel r (count - 1)

def validatePSKOffer (data modes : Bytes) : Except Err Unit :=
  let (modeList, modeReader) := (WireReader.mk modes false).vector8
  if modeReader.done = false ∨ modeList = [] then .error .decode
  else
    let (identities, r) := (WireReader.mk data false).vector16
    let (binders, r) := r.vector16
    if r.done = false ∨ identities = [] then .error .decode
    else
      match countIdentities identities.length ⟨identities, false⟩ 0 with
      | none => .error .decode
      | some (count, identities) =>
        match countBinders binders.length ⟨binders, false⟩ count with
        | none => .error .decode
        | some (left, binders) =>
          if identities.done = false ∨ binders.done = false ∨ left ≠ 0 then .error .decode else .ok ()

structure ClientOffer where
  groups : List U16 := []
  signatures : List U16 := []
  shares : OrderedMap U16 Bytes := ∅
  serverName : Bytes := []
  protocols : List Bytes := []
  cid : Bytes := []
  cidOffered : Bool := false
  rrc : Bool := false
  cookie : Bytes := []
deriving DecidableEq

/-- The value of an extension that may be absent. -/
def optional {α : Type} (data : Option Bytes) (absent : α) (parse : Bytes → Except Err α) : Except Err α :=
  match data with
  | none => .ok absent
  | some data => parse data

def parseClientOffer [NameService] (hello : ClientHello) : Except Err ClientOffer := do
  let ext := hello.extensions
  if [extSupportedVersions, extSupportedGroups, extKeyShare, extSignatureAlgorithms].any
      fun required => (ext.lookup required).isNone then throw .missingExtension
  let versions ← parseVersions ((ext.lookup extSupportedVersions).getD [])
  if version13 ∉ versions then throw .protocolVersion
  let groups ← parseList16 ((ext.lookup extSupportedGroups).getD [])
  let signatures ← parseList16 ((ext.lookup extSignatureAlgorithms).getD [])
  let shares ← parseClientShares ((ext.lookup extKeyShare).getD []) groups
  let serverName ← optional (ext.lookup extServerName) [] parseServerName
  let protocols ← optional (ext.lookup extALPN) [] parseALPN
  let cid ← optional (ext.lookup extConnectionID) [] parseConnectionID
  let cidOffered := (ext.lookup extConnectionID).isSome
  let rrc ← optional (ext.lookup extRRC) false fun data =>
    if data ≠ [] then .error .decode else .ok cidOffered
  let cookie ← optional (ext.lookup extCookie) [] parseCookie
  optional (ext.lookup extPreSharedKey) () fun data =>
    match ext.lookup extPSKModes with
    | none => .error .missingExtension
    | some modes => validatePSKOffer data modes
  optional (ext.lookup extEarlyData) () fun data =>
    if data ≠ [] then .error .decode
    else if (ext.lookup extPreSharedKey).isNone then .error .illegalParameter
    else .ok ()
  return { groups, signatures, shares, serverName, protocols, cid, cidOffered, rrc, cookie }

end Negotiation

end Socat.Dtls13
