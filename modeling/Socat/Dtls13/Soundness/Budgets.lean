import Socat.Dtls13.Model.Conn
import Socat.Dtls13.Soundness.RoundTrip

/-! # Sizes of records

What fits into a datagram is computed in several places: for handshake fragments, for acknowledgements, for user data
and for padded probes. All of them agree with the layout of a record.
-/

namespace Socat.Dtls13

open Machine List

/-! ## The layout -/

/-- The size of a record. -/
def recordSize (epoch cid content padding : ℕ) : ℕ :=
  if epoch = 0 then plainHeader + content else datagramOverhead cid aeadOverhead + content + padding

/-- Keys and counter of an epoch allow another record of this kind. -/
inductive WriteEpoch.Ready (e : WriteEpoch) : ℕ → UInt8 → Bytes → ℕ → Prop
  | plain {typ : UInt8} {cid : Bytes} : e.sequence < 2 ^ 48 →
      typ = contentHandshake ∨ typ = contentAlert ∨ typ = contentACK →
      Ready e 0 typ cid 0
  | sealed {epoch : ℕ} {typ : UInt8} {cid : Bytes} {padding : ℕ} {keys : TrafficKeys} : 2 ≤ epoch → e.keys = some keys →
      e.sequence < keys.recordLimit → validContentType typ = true → cid.length ≤ maxCIDLen →
        Ready e epoch typ cid padding

section Layout

variable {e : WriteEpoch} {epoch : ℕ} {typ : UInt8} {body cid bytes : Bytes} {padding : ℕ}

private theorem encodePlainRecord_size {sequence : ℕ} (encoded : encodePlainRecord typ sequence body = .ok bytes) :
    bytes.length = plainHeader + body.length := by
  unfold encodePlainRecord at encoded
  split_ifs at encoded
  cases encoded
  simp only [length_append, length_cons, length_nil, bigEndian_length, be16_length, plainHeader]

variable [Crypto]

private theorem encodeRecord_size {keys : TrafficKeys} {number : RecordNumber}
    (encoded : keys.encodeRecord number cid typ body padding = .ok bytes) :
    bytes.length = datagramOverhead cid.length aeadOverhead + body.length + padding := by
  unfold TrafficKeys.encodeRecord at encoded
  split at encoded
  · cases encoded
  split at encoded
  · cases encoded
  dsimp only at encoded
  split at encoded
  · cases encoded
  cases encoded
  simp only [length_append, length_cons, xorMask_length, be16_length, Crypto.aeadSeal_length,
    length_replicate, datagramOverhead, unifiedSeqLen, unifiedLengthLen]
  omega

theorem WriteEpoch.encode_size (encoded : e.encode epoch typ body cid padding = .ok bytes) :
    bytes.length = recordSize epoch cid.length body.length padding := by
  unfold WriteEpoch.encode at encoded
  unfold recordSize
  split at encoded
  · rename_i zero
    rw [if_pos zero]
    split_ifs at encoded
    exact encodePlainRecord_size encoded
  · rename_i other
    rw [if_neg other]
    split at encoded
    · cases encoded
    · split at encoded
      · cases encoded
      · exact encodeRecord_size encoded

/-- A record that is not too long is encoded. -/
theorem WriteEpoch.Ready.encodes (ready : e.Ready epoch typ cid padding) (body : Bytes)
    (content : body.length + padding ≤ maxContent) : ∃ bytes, e.encode epoch typ body cid padding = .ok bytes := by
  cases ready with
  | plain counter kind =>
    unfold WriteEpoch.encode encodePlainRecord
    rw [if_pos rfl, if_neg (not_le.mpr counter), if_neg (by simp), if_neg (not_le.mpr counter), if_neg (by tauto),
      if_neg (by omega)]
    exact ⟨_, rfl⟩
  | sealed epoch keys counter kind short =>
    unfold WriteEpoch.encode
    rw [if_neg (by omega), keys]
    dsimp only
    rw [if_neg (not_le.mpr counter)]
    exact ⟨_, encodeRecord_eq epoch short kind content⟩

/-- Only content that is too long makes the encoding too long. -/
theorem WriteEpoch.encode_overflow (failed : e.encode epoch typ body cid padding = .error .recordOverflow) :
    maxContent < body.length + padding := by
  unfold WriteEpoch.encode at failed
  split at failed
  · split at failed
    · cases failed
    split at failed
    · cases failed
    unfold encodePlainRecord at failed
    split at failed
    · cases failed
    split at failed
    · cases failed
    split at failed
    · omega
    · cases failed
  · split at failed
    · cases failed
    · split at failed
      · cases failed
      unfold TrafficKeys.encodeRecord at failed
      split at failed
      · cases failed
      split at failed
      · omega
      · rename_i fits
        dsimp only at failed
        split at failed
        · rename_i long
          have room : maxContent + 1 + aeadOverhead ≤ maxCiphertext := by decide
          rw [length_append, length_cons, length_replicate] at long
          omega
        · cases failed

end Layout

theorem HandshakeMessage.fragment_size {m : HandshakeMessage} {offset length : ℕ} {body : Bytes}
    (cut : m.fragment offset length = .ok body) : body.length = handshakeHeader + length := by
  obtain ⟨-, inside, rfl⟩ := fragment_eq_ok.mp cut
  simp only [length_cons, length_append, be24_length, be16_length, part_length inside, handshakeHeader]
  omega

/-! ## Records that fit -/

/-- In every epoch that allows it the record is encoded and within the limit, and whatever the state of the epoch is,
the record is not refused for its length. -/
structure Session.Fits [Crypto] (s : Session) (typ : UInt8) (body : Bytes) (padding limit : ℕ) : Prop where
  encodes : ∀ (e : WriteEpoch) (epoch : ℕ), e.Ready epoch typ s.probeCID padding →
    ∃ bytes, e.encode epoch typ body s.probeCID padding = .ok bytes ∧ bytes.length ≤ limit
  passes : ∀ (w : World) (epoch : ℕ), w.session = s →
    Ends (sendRecordLimited epoch typ body s.probeCID padding limit transport) w (fun _ _ => True)
      fun e _ => e ≠ .recordOverflow

/-- A record fails before it has a number, for another reason than its length, or is handed to the callback. -/
theorem sendRecordLimited_within [Crypto] {w : World} {epoch : ℕ} {typ : UInt8} {body cid : Bytes} {padding limit : ℕ}
    {send : Packet → SessionM Unit} {Q : RecordNumber → World → Prop} (content : body.length + padding ≤ maxContent)
    (size : recordSize epoch cid.length body.length padding ≤ limit)
    (handed : ∀ p e, Ends (send p) (w.hand p e) (fun _ => Q p.number) fun e _ => e ≠ .recordOverflow) :
    Ends (sendRecordLimited epoch typ body cid padding limit send) w Q fun e _ => e ≠ .recordOverflow := by
  unfold sendRecordLimited
  rw [ends_session]
  split
  · exact ends_throw.mpr (by simp)
  · rename_i e found
    split
    · rename_i cause failed
      apply ends_throw.mpr
      rintro rfl
      exact absurd (WriteEpoch.encode_overflow failed) (not_lt.mpr content)
    · rename_i bytes encoded
      rw [if_neg (not_lt.mpr (WriteEpoch.encode_size encoded ▸ size))]
      simp only [ends_bind, ends_modify, ends_pure]
      exact handed _ e

theorem transport_within {w : World} {p : Packet} {Q : Unit → World → Prop}
    (sent : ∀ env, Q () { w.deliver p with env }) :
    Ends (transport p) w Q fun e _ => e ≠ .recordOverflow :=
  transport_ends sent fun _ _ => by simp

theorem Session.fits_of_size [Crypto] {s : Session} {typ : UInt8} {body : Bytes} {padding limit : ℕ}
    (content : body.length + padding ≤ maxContent)
    (size : ∀ epoch, recordSize epoch s.probeCID.length body.length padding ≤ limit) :
    s.Fits typ body padding limit where
  encodes e epoch ready := by
    obtain ⟨bytes, encoded⟩ := ready.encodes body content
    exact ⟨bytes, encoded, WriteEpoch.encode_size encoded ▸ size epoch⟩
  passes w epoch same :=
    sendRecordLimited_within content (size epoch) fun _ _ => transport_within fun _ => trivial

/-- A record of a protected epoch is never shorter than one in the clear. -/
theorem recordSize_le {cid content padding limit : ℕ}
    (fits : datagramOverhead cid aeadOverhead + content + padding ≤ limit)
    (epoch : ℕ) : recordSize epoch cid content padding ≤ limit := by
  unfold recordSize
  unfold datagramOverhead unifiedSeqLen unifiedLengthLen aeadOverhead at *
  unfold plainHeader
  split_ifs <;> omega

theorem datagramOverhead_eq (cid : ℕ) : datagramOverhead cid aeadOverhead = cid + 22 := by
  unfold datagramOverhead unifiedSeqLen unifiedLengthLen aeadOverhead
  omega

/-! ## The budgets of a session -/

section Budgets

variable {s : Session}

/-- A fragment of this many bytes fills a datagram, unless a record holds no more. -/
theorem fragmentCapacity_eq (room : s.probeCID.length + 51 ≤ s.effectiveMTU) :
    s.fragmentCapacity = min (s.effectiveMTU - s.probeCID.length - 34) 16372 := by
  unfold Session.fragmentCapacity fragmentBudget handshakeHeader maxContent
  omega

theorem fragment_fits [Crypto] (room : s.probeCID.length + 51 ≤ s.effectiveMTU) {m : HandshakeMessage}
    {offset length : ℕ}
    {body : Bytes} (short : length ≤ s.fragmentCapacity) (cut : m.fragment offset length = .ok body) :
    s.Fits contentHandshake body 0 s.effectiveMTU := by
  have size := HandshakeMessage.fragment_size cut
  have capacity := fragmentCapacity_eq room
  unfold handshakeHeader at size
  apply Session.fits_of_size
  · unfold maxContent
    omega
  · apply recordSize_le
    rw [datagramOverhead_eq]
    omega

private theorem encodeACK_within (numbers : List RecordNumber) (few : numbers.length ≤ 1023) :
    ∃ body, encodeACK numbers = .ok body ∧ body.length ≤ 2 + 16 * numbers.length := by
  have shorter : (compactNumbers (numbers.insertionSort RecordNumber.notAfter)).length ≤ numbers.length :=
    (compactNumbers_length_le _).trans (length_insertionSort _ _).le
  unfold encodeACK maxContent
  rw [if_neg (by omega)]
  refine ⟨_, rfl, ?_⟩
  rw [length_append, flatMap_encodeNumber_length, be16_length]
  omega

/-- The numbers of one acknowledgement. -/
def ackLimit (s : Session) : ℕ := (s.fragmentCapacity + handshakeHeader - 2) / 16

theorem ack_fits (room : s.probeCID.length + 51 ≤ s.effectiveMTU) (numbers : List RecordNumber)
    (few : numbers.length ≤ ackLimit s) :
    ∃ body, encodeACK numbers = .ok body ∧ body.length ≤ maxContent ∧
      ∀ epoch, recordSize epoch s.probeCID.length body.length 0 ≤ s.effectiveMTU := by
  have capacity := fragmentCapacity_eq room
  unfold ackLimit handshakeHeader at few
  obtain ⟨body, encoded, size⟩ := encodeACK_within numbers (by omega)
  refine ⟨body, encoded, ?_, ?_⟩
  · unfold maxContent
    omega
  · apply recordSize_le
    rw [datagramOverhead_eq]
    omega

/-- Sending leaves the budgets as they are. -/
structure SameBudget (s s' : Session) : Prop where
  mtu : s'.effectiveMTU = s.effectiveMTU
  cid : s'.probeCID = s.probeCID

theorem writeAckLoop_within [Crypto] {w : World} (same : SameBudget s w.session)
    (room : s.probeCID.length + 51 ≤ s.effectiveMTU) (fuel : ℕ) :
    Ends (writeAckLoop (ackLimit s) fuel) w (fun _ _ => True) fun e _ => e ≠ .recordOverflow := by
  induction fuel generalizing w with
  | zero => exact trivial
  | succ fuel ih =>
    unfold writeAckLoop
    rw [ends_session, ends_ite]
    split_ifs
    · exact trivial
    obtain ⟨body, encoded, content, size⟩ :=
      ack_fits room (w.session.ack.pending.take (ackLimit s)) (length_take_le _ _)
    rw [encoded]
    dsimp only
    rw [ends_bind]
    unfold sendRecord sendRecordWith
    simp only [ends_bind, ends_getSession]
    apply sendRecordLimited_within content
    · rw [same.mtu, same.cid]
      exact size _
    · intro p e
      apply transport_within
      intro env
      rw [ends_modifySession]
      exact ih ⟨same.mtu, same.cid⟩

private theorem writeAcknowledgements_within [Crypto] {w : World}
    (room : w.session.probeCID.length + 51 ≤ w.session.effectiveMTU)
    (ready : Bool) : Ends (writeAcknowledgements ready) w (fun _ _ => True) fun e _ => e ≠ .recordOverflow := by
  have capacity := fragmentCapacity_eq room
  have some : 1 ≤ ackLimit w.session := by
    unfold ackLimit handshakeHeader
    omega
  unfold writeAcknowledgements
  rw [ends_session, ends_ite, ends_ite]
  split_ifs
  · exact trivial
  · exact trivial
  · show Ends (if ackLimit w.session < 1 then throw .recordOverflow else writeAckLoop (ackLimit w.session) _) w _ _
    rw [if_neg (not_lt.mpr some)]
    exact writeAckLoop_within ⟨rfl, rfl⟩ room _

theorem datagramBudget_eq (s : Session) :
    datagramBudget s = min 16384 (s.effectiveMTU - (s.probeCID.length + 22)) := by
  unfold datagramBudget
  rw [show defaultAEADTag = aeadOverhead from rfl, datagramOverhead_eq]
  rfl

/-- The padding of a probe makes up the size. -/
theorem probe_size {size pad : ℕ} (padded : rrcProbePadding size s.probeCID.length s.recordTagLen = .ok pad) :
    datagramOverhead s.probeCID.length aeadOverhead + rrcMessageLen + pad = size ∧
      rrcMessageLen + pad ≤ maxContent := by
  have tag : s.recordTagLen = aeadOverhead := by
    unfold Session.recordTagLen
    split <;> rfl
  unfold rrcProbePadding rrcProbeOverhead at padded
  dsimp only at padded
  rw [tag] at padded
  split at padded
  · cases padded
  split at padded
  · cases padded
  split at padded
  · cases padded
  cases padded
  omega

end Budgets

/-- For every working MTU and every connection ID that leaves room: full fragments, acknowledgements,
the largest user data and padded probes are all encoded within the limit they are sent with, a probe to exactly its
size, and one more byte of a fragment or of user data would be too much. -/
theorem budgets_fit [Crypto] (s : Session) (room : s.probeCID.length + 51 ≤ s.effectiveMTU) :
    (∀ m offset body, HandshakeMessage.fragment m offset s.fragmentCapacity = .ok body →
      s.Fits contentHandshake body 0 s.effectiveMTU) ∧
    (∀ m offset body, HandshakeMessage.fragment m offset (s.fragmentCapacity + 1) = .ok body →
      s.fragmentCapacity + handshakeHeader < maxContent →
      ∀ (e : WriteEpoch) epoch, e.Ready epoch contentHandshake s.probeCID 0 → epoch ≠ 0 →
        ∃ bytes, e.encode epoch contentHandshake body s.probeCID 0 = .ok bytes ∧ s.effectiveMTU < bytes.length) ∧
    (∀ numbers : List RecordNumber, numbers.length ≤ (s.fragmentCapacity + handshakeHeader - 2) / 16 →
      ∃ body, encodeACK numbers = .ok body ∧ s.Fits contentACK body 0 s.effectiveMTU) ∧
    (∀ (w : World) ready, w.session = s →
      Ends (writeAcknowledgements ready) w (fun _ _ => True) fun e _ => e ≠ .recordOverflow) ∧
    (∀ data : Bytes, data.length = datagramBudget s → s.Fits contentData data 0 s.effectiveMTU) ∧
    (∀ data : Bytes, data.length = datagramBudget s + 1 → datagramBudget s < maxContent →
      ∀ (e : WriteEpoch) epoch, e.Ready epoch contentData s.probeCID 0 →
        ∃ bytes, e.encode epoch contentData data s.probeCID 0 = .ok bytes ∧ s.effectiveMTU < bytes.length) ∧
    ∀ size pad (body : Bytes), rrcProbePadding size s.probeCID.length s.recordTagLen = .ok pad →
      body.length = rrcMessageLen →
      (∀ limit, size ≤ limit → s.Fits contentRRC body pad limit) ∧
      ∀ (e : WriteEpoch) epoch, e.Ready epoch contentRRC s.probeCID pad →
        ∃ bytes, e.encode epoch contentRRC body s.probeCID pad = .ok bytes ∧ bytes.length = size := by
  have capacity := fragmentCapacity_eq room
  have budget := datagramBudget_eq s
  refine ⟨?_, ?_, ?_, ?_, ?_, ?_, ?_⟩
  · exact fun m offset body cut => fragment_fits room (le_refl _) cut
  · intro m offset body cut free e epoch ready protect
    have size := HandshakeMessage.fragment_size cut
    unfold handshakeHeader maxContent at *
    obtain ⟨bytes, encoded⟩ := ready.encodes body (by unfold maxContent; omega)
    refine ⟨bytes, encoded, ?_⟩
    rw [WriteEpoch.encode_size encoded, recordSize, if_neg protect, datagramOverhead_eq]
    omega
  · intro numbers few
    obtain ⟨body, encoded, content, size⟩ := ack_fits room numbers few
    exact ⟨body, encoded, Session.fits_of_size content size⟩
  · rintro w ready rfl
    exact writeAcknowledgements_within room ready
  · intro data size
    apply Session.fits_of_size
    · unfold maxContent
      omega
    · apply recordSize_le
      rw [datagramOverhead_eq]
      omega
  · intro data size free e epoch ready
    unfold maxContent at free
    obtain ⟨bytes, encoded⟩ := ready.encodes data (by unfold maxContent; omega)
    refine ⟨bytes, encoded, ?_⟩
    have protect : epoch ≠ 0 := by
      rintro rfl
      cases ready with
      | plain _ kind => exact absurd kind (by decide)
      | sealed old => omega
    rw [WriteEpoch.encode_size encoded, recordSize, if_neg protect, datagramOverhead_eq]
    omega
  · intro size pad body padded message
    obtain ⟨filled, content⟩ := probe_size padded
    rw [← message] at filled content
    refine ⟨fun limit small => Session.fits_of_size content (recordSize_le (filled.le.trans small)), ?_⟩
    intro e epoch ready
    obtain ⟨bytes, encoded⟩ := ready.encodes body content
    refine ⟨bytes, encoded, ?_⟩
    have protect : epoch ≠ 0 := by
      rintro rfl
      cases ready with
      | plain _ kind => exact absurd kind (by decide)
      | sealed old => omega
    rw [WriteEpoch.encode_size encoded, recordSize, if_neg protect, filled]

/-- The smallest MTU with the longest connection ID that leaves room. -/
def tightSession : Session :=
  { handshake := { (newWorld true).session.handshake with
      config := some { MTU := 256 }
      peerCID := List.replicate 205 7
      cidNegotiated := true } }

theorem tightSession_fits :
    tightSession.effectiveMTU = 256 ∧ datagramBudget tightSession = 29 ∧
      @Session.Fits transparent tightSession contentData (List.replicate 29 0) 0 256 := by
  have mtu : tightSession.effectiveMTU = 256 := by decide
  have cid : tightSession.probeCID.length = 205 := length_replicate
  have budget : datagramBudget tightSession = 29 := by rw [datagramBudget_eq, mtu, cid]; rfl
  obtain ⟨-, -, -, -, data, -⟩ := @budgets_fit transparent tightSession (by rw [mtu, cid])
  exact ⟨mtu, budget, mtu ▸ data (List.replicate 29 0) (length_replicate.trans budget.symm)⟩

end Socat.Dtls13
