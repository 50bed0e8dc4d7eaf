import Socat.Dtls13.Model.Wire

/-! # Records, traffic keys and the replay window

A plaintext record carries its full number; a protected record carries two epoch bits and one or
two masked sequence bytes, so that decoding has to choose keys and reconstruct the number before
it can authenticate. The cipher is not part of the repository: `Crypto` names the operations the
code takes from it, and the traffic keys of an epoch are the suite and the secret they are expanded
from. Replay state is returned only by a decoding that authenticated.
-/

namespace Socat.Dtls13

def contentAlert : UInt8 := 21
def contentHandshake : UInt8 := 22
def contentData : UInt8 := 23
def contentACK : UInt8 := 26
def contentRRC : UInt8 := 27

def maxContent : ℕ := 16384
def maxCiphertext : ℕ := maxContent + 256
def plainHeader : ℕ := 13
def maxCIDLen : ℕ := 255
def unifiedSeqLen : ℕ := 2
def unifiedLengthLen : ℕ := 2
def maxUnifiedHeader : ℕ := 1 + maxCIDLen + unifiedSeqLen + unifiedLengthLen
def seqNumMaskLen : ℕ := 16

/-- `aead.Overhead()` is 16 for AES-GCM and for ChaCha20-Poly1305. -/
def aeadOverhead : ℕ := 16

/-- `math.MaxUint64`. -/
def maxUint64 : ℕ := 2 ^ 64 - 1

structure RecordNumber where
  epoch : ℕ
  sequence : ℕ
deriving DecidableEq, Repr, Inhabited

/-- `recordAfter`, the lexicographic order on record numbers. -/
def RecordNumber.after (a b : RecordNumber) : Bool :=
  decide (b.epoch < a.epoch) || (a.epoch == b.epoch && decide (b.sequence < a.sequence))

/-! ## Cipher suites and traffic keys -/

structure CipherSuite where
  id : ℕ
  hashSize : ℕ
  recordLimit : ℕ
deriving DecidableEq, Repr

def cipherSuites : List CipherSuite :=
  [⟨0x1301, 32, 2 ^ 24⟩, ⟨0x1302, 48, 2 ^ 24⟩, ⟨0x1303, 32, 2 ^ 48⟩]

def suiteFor (id : ℕ) : Except Err CipherSuite :=
  match cipherSuites.find? (fun suite => suite.id == id) with
  | some suite => .ok suite
  | none => .error .cipherSuite

theorem mem_of_suite {id : ℕ} {suite : CipherSuite}
    (found : cipherSuites.find? (fun suite => suite.id == id) = some suite) :
    suite ∈ cipherSuites := List.mem_of_find?_eq_some found

/-- The keys of one epoch and direction, identified with what they are expanded from. -/
structure TrafficKeys where
  suite : CipherSuite
  secret : Bytes
  supported : suite ∈ cipherSuites
  secretLength : secret.length = suite.hashSize
deriving DecidableEq

def TrafficKeys.recordLimit (keys : TrafficKeys) : ℕ := keys.suite.recordLimit

/-- What the records take from the cipher: authenticated encryption under an epoch's keys, the
sequence-number mask, and the key-update expansion. The laws are those every AEAD provides. -/
class Crypto where
  aeadSeal : TrafficKeys → (header : Bytes) → (sequence : ℕ) → (plaintext : Bytes) → Bytes
  aeadOpen : TrafficKeys → (header : Bytes) → (sequence : ℕ) → (ciphertext : Bytes) → Option Bytes
  mask : TrafficKeys → (sample : Bytes) → Vector UInt8 16
  trafficUpdate : CipherSuite → (secret : Bytes) → Bytes
  aeadSeal_length : ∀ keys header sequence plaintext,
    (aeadSeal keys header sequence plaintext).length = plaintext.length + aeadOverhead
  aeadOpen_seal : ∀ keys header sequence plaintext,
    aeadOpen keys header sequence (aeadSeal keys header sequence plaintext) = some plaintext
  trafficUpdate_length : ∀ suite secret, (trafficUpdate suite secret).length = suite.hashSize

def newTrafficKeys (id : ℕ) (secret : Bytes) : Except Err TrafficKeys :=
  match found : cipherSuites.find? (fun suite => suite.id == id) with
  | none => .error .cipherSuite
  | some suite =>
    if length : secret.length = suite.hashSize then
      .ok ⟨suite, secret, mem_of_suite found, length⟩
    else .error .keyMaterial

def nextTrafficSecret [Crypto] (id : ℕ) (secret : Bytes) : Except Err Bytes := do
  let suite ← suiteFor id
  if secret.length ≠ suite.hashSize then throw .keyMaterial
  return Crypto.trafficUpdate suite secret

/-! ## The replay window -/

/-- The highest authenticated sequence and a bit for each of the 64 ending there. A zero bit set
means that nothing was authenticated yet. -/
structure ReplayWindow where
  highest : ℕ := 0
  bits : BitVec 64 := 0
deriving DecidableEq, Repr

namespace ReplayWindow

/-- The sequence the next record is expected to carry. -/
def next (w : ReplayWindow) : ℕ :=
  if w.bits = 0 then 0
  else if w.highest = maxUint64 then maxUint64
  else w.highest + 1

/-- `accept`: the updated window, or `none` for a replayed or too old sequence. -/
def accept (w : ReplayWindow) (sequence : ℕ) : Option ReplayWindow :=
  if w.bits = 0 then some ⟨sequence, 1⟩
  else if w.highest < sequence then some ⟨sequence, w.bits <<< (sequence - w.highest) ||| 1⟩
  else
    let distance := w.highest - sequence
    if 64 ≤ distance ∨ w.bits &&& (1#64 <<< distance) ≠ 0 then none
    else some { w with bits := w.bits ||| (1#64 <<< distance) }

end ReplayWindow

/-- Choose the number congruent to the truncated bytes that lies nearest to the expected one. -/
def reconstructSequence (truncated size expected : ℕ) : ℕ :=
  let window := 2 ^ (8 * size)
  let half := window / 2
  -- `expected &^ (window-1) | truncated`
  let candidate := expected - expected % window + truncated
  if candidate ≤ expected ∧ half ≤ expected - candidate ∧ candidate ≤ maxUint64 - window then
    candidate + window
  else if expected < candidate ∧ half < candidate - expected ∧ window ≤ candidate then
    candidate - window
  else candidate

/-- The same choice in the arithmetic of `uint64`. -/
def reconstructSequence64 (truncated : UInt64) (size : ℕ) (expected : UInt64) : UInt64 :=
  let window := (1 : UInt64) <<< UInt64.ofNat (8 * size)
  let half := window / 2
  let candidate := expected &&& ~~~(window - 1) ||| truncated
  if candidate ≤ expected ∧ half ≤ expected - candidate ∧ candidate ≤ 0xffffffffffffffff - window then
    candidate + window
  else if expected < candidate ∧ half < candidate - expected ∧ window ≤ candidate then
    candidate - window
  else candidate

/-! ## Parsing -/

structure Record where
  header : Bytes
  body : Bytes
  cid : Bytes := []
  number : RecordNumber
  typ : UInt8
  encrypted : Bool
  seqOffset : ℕ := 0
  seqLen : ℕ := 0
deriving DecidableEq, Repr

/-- The unified header of a protected record: its lengths follow from the first byte. -/
def parseUnified (datagram : Bytes) (first : UInt8) (cidLen : ℕ) : Except Err (Record × Bytes) :=
  let hasCID := first &&& 0x10 != 0
  let hasLength := first &&& 0x04 != 0
  if hasCID && (cidLen == 0 || decide (datagram.length < 1 + cidLen)) then .error .record
  else
    let cid := if hasCID then (datagram.drop 1).take cidLen else []
    let seqOffset := if hasCID then 1 + cidLen else 1
    let seqLen := if first &&& 0x08 != 0 then unifiedSeqLen else 1
    let headerLen := seqOffset + seqLen + (if hasLength then unifiedLengthLen else 0)
    if datagram.length < headerLen then .error .record
    else
      let available := datagram.length - headerLen
      let bodyLen :=
        if hasLength then
          readNat ((datagram.drop (headerLen - unifiedLengthLen)).take unifiedLengthLen)
        else available
      if bodyLen < seqNumMaskLen ∨ available < bodyLen then .error .record
      else if maxCiphertext < bodyLen then .error .recordOverflow
      else .ok
        ({ header := datagram.take headerLen
           body := (datagram.drop headerLen).take bodyLen
           cid
           number := ⟨(first &&& 3).toNat, 0⟩
           typ := first
           encrypted := true
           seqOffset
           seqLen }, datagram.drop (headerLen + bodyLen))

def parsePlain (datagram : Bytes) (first : UInt8) : Except Err (Record × Bytes) :=
  if first ≠ contentAlert ∧ first ≠ contentHandshake ∧ first ≠ contentACK then .error .record
  else if datagram.length < plainHeader then .error .record
  else if readNat ((datagram.drop 3).take 2) ≠ 0 then .error .record
  else
    let length := readNat ((datagram.drop 11).take 2)
    if datagram.length - plainHeader < length then .error .record
    else if maxContent < length then .error .recordOverflow
    else .ok
      ({ header := datagram.take plainHeader
         body := (datagram.drop plainHeader).take length
         number := ⟨0, readNat ((datagram.drop 5).take 6)⟩
         typ := first
         encrypted := false }, datagram.drop (plainHeader + length))

def parseRecord (datagram : Bytes) (cidLen : ℕ) : Except Err (Record × Bytes) :=
  match datagram with
  | [] => .error .record
  | first :: _ =>
    if maxCIDLen < cidLen then .error .record
    else if first &&& 0xe0 == 0x20 then parseUnified datagram first cidLen
    else parsePlain datagram first

/-! ## Encoding -/

def encodePlainRecord (typ : UInt8) (sequence : ℕ) (content : Bytes) : Except Err Bytes :=
  if 2 ^ 48 ≤ sequence then .error .sequence
  else if typ ≠ contentHandshake ∧ typ ≠ contentAlert ∧ typ ≠ contentACK then .error .record
  else if maxContent < content.length then .error .recordOverflow
  else .ok ([typ, 0xfe, 0xfd, 0, 0] ++ bigEndian sequence 6 ++ be16 content.length ++ content)

def validContentType (typ : UInt8) : Bool :=
  typ == contentAlert || typ == contentHandshake || typ == contentData || typ == contentACK ||
    typ == contentRRC

/-- Mask or unmask sequence bytes with the leading mask bytes. -/
def xorMask (bytes : Bytes) (mask : Vector UInt8 16) : Bytes :=
  List.zipWith (· ^^^ ·) bytes mask.toList

variable [Crypto]

def TrafficKeys.encodeRecord (keys : TrafficKeys) (number : RecordNumber) (cid : Bytes)
    (typ : UInt8) (content : Bytes) (padding : ℕ) : Except Err Bytes :=
  if number.epoch < 2 ∨ maxCIDLen < cid.length ∨ validContentType typ = false then .error .record
  else if maxContent < content.length ∨ maxContent - content.length < padding then
    .error .recordOverflow
  else
    let first : UInt8 :=
      0x2c ||| UInt8.ofNat (number.epoch % 4) ||| (if cid.isEmpty then 0 else 0x10)
    let inner := content ++ typ :: List.replicate padding 0
    let protectedLen := inner.length + aeadOverhead
    if maxCiphertext < protectedLen then .error .recordOverflow
    else
      let sequence := be16 number.sequence
      -- The additional data is the header before its sequence bytes are masked.
      let ciphertext := Crypto.aeadSeal keys (first :: cid ++ sequence ++ be16 protectedLen)
        number.sequence inner
      let masked := xorMask sequence (Crypto.mask keys (ciphertext.take seqNumMaskLen))
      .ok (first :: cid ++ masked ++ be16 protectedLen ++ ciphertext)

/-! ## Decoding -/

/-- Split the inner plaintext at its last non-zero byte, the content type. -/
def splitInner (inner : Bytes) : Option (UInt8 × Bytes) :=
  match inner.reverse.dropWhile (· == 0) with
  | [] => none
  | typ :: rest => some (typ, rest.reverse)

/-- The unmasked header and its truncated sequence number. -/
def unmaskHeader (r : Record) (mask : Vector UInt8 16) : Bytes × ℕ :=
  let sequence := xorMask ((r.header.drop r.seqOffset).take r.seqLen) mask
  (r.header.take r.seqOffset ++ sequence ++ r.header.drop (r.seqOffset + r.seqLen), readNat sequence)

/-- Authenticate one record under the keys of `epoch`. The window comes back updated, and only on
success: neither a forgery nor a replay changes it. -/
def TrafficKeys.decodeRecord (keys : TrafficKeys) (r : Record) (epoch : ℕ) (cid : Bytes)
    (window : ReplayWindow) : Except Err ((RecordNumber × UInt8 × Bytes) × ReplayWindow) :=
  if r.encrypted = false ∨ r.number.epoch ≠ epoch % 4 ∨ (r.cid ≠ [] ∧ cid ≠ r.cid) then
    .error .authentication
  else if r.body.length < seqNumMaskLen then .error .authentication
  else if maxUnifiedHeader < r.header.length then .error .record
  else
    let (header, truncated) := unmaskHeader r (Crypto.mask keys (r.body.take seqNumMaskLen))
    let sequence := reconstructSequence truncated r.seqLen window.next
    if r.body.length < aeadOverhead then .error .authentication
    else
      match Crypto.aeadOpen keys header sequence r.body with
      | none => .error .authentication
      | some inner =>
        if maxContent + 1 < inner.length then .error .recordOverflow
        else
          match splitInner inner with
          | none => .error .record
          | some (typ, content) =>
            if validContentType typ = false then .error .record
            else
              match window.accept sequence with
              | none => .error .replay
              | some window => .ok ((⟨epoch, sequence⟩, typ, content), window)

/-- The steps of a decoding that authenticated. -/
structure Decoded (keys : TrafficKeys) (r : Record) (epoch : ℕ) (window : ReplayWindow)
    (number : RecordNumber) (typ : UInt8) (body inner : Bytes) (window' : ReplayWindow) : Prop where
  encrypted : r.encrypted = true
  bits : r.number.epoch = epoch % 4
  epoch : number.epoch = epoch
  sequence : number.sequence = reconstructSequence
    (unmaskHeader r (Crypto.mask keys (r.body.take seqNumMaskLen))).2 r.seqLen window.next
  opened : Crypto.aeadOpen keys (unmaskHeader r (Crypto.mask keys (r.body.take seqNumMaskLen))).1
    number.sequence r.body = some inner
  content : splitInner inner = some (typ, body)
  accepted : window.accept number.sequence = some window'

theorem TrafficKeys.decodeRecord_ok {keys : TrafficKeys} {r : Record} {epoch : ℕ} {cid : Bytes}
    {window window' : ReplayWindow} {number : RecordNumber} {typ : UInt8} {body : Bytes}
    (decoded : keys.decodeRecord r epoch cid window = .ok ((number, typ, body), window')) :
    ∃ inner, Decoded keys r epoch window number typ body inner window' := by
  unfold decodeRecord at decoded
  split at decoded
  · contradiction
  rename_i addressed
  simp only [not_or, Bool.not_eq_false, not_not] at addressed
  iterate 2 (split at decoded; · contradiction)
  dsimp only at decoded
  split at decoded
  · contradiction
  split at decoded
  · contradiction
  rename_i inner opened
  split at decoded
  · contradiction
  split at decoded
  · contradiction
  rename_i content
  split at decoded
  · contradiction
  split at decoded
  · contradiction
  rename_i accepted
  cases decoded
  exact ⟨inner, addressed.1, addressed.2.1, rfl, rfl, opened, content, accepted⟩

end Socat.Dtls13
