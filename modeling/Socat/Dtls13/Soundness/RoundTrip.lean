import Socat.Dtls13.Soundness.Sequences

/-! # Protected records come back as they were sent

The layout of a packet determines where its parts are found again: the unified header says whether there is
a connection ID, masking is an involution, the nearest number is the one that was truncated, and the last
byte of the plaintext that is not zero is the content type, whatever the content ends in.
-/

namespace Socat.Dtls13

open List hiding Vector

/-! ## Parts of a record -/

private theorem xorMask_xorMask {bytes : Bytes} (mask : Vector UInt8 16) (short : bytes.length ≤ 16) :
    xorMask (xorMask bytes mask) mask = bytes := by
  unfold xorMask
  refine ext_getElem (by simp; omega) fun i below _ => ?_
  simp

@[simp] theorem xorMask_length (bytes : Bytes) (mask : Vector UInt8 16) :
    (xorMask bytes mask).length = min bytes.length 16 := by
  simp [xorMask]

private theorem validContentType_ne_zero {typ : UInt8} (valid : validContentType typ = true) : typ ≠ 0 := by
  rintro rfl
  exact absurd valid (by decide)

/-- The padding is stripped and nothing else. -/
theorem splitInner_padded {typ : UInt8} (nonzero : typ ≠ 0) (content : Bytes) (padding : ℕ) :
    splitInner (content ++ typ :: List.replicate padding 0) = some (typ, content) := by
  have stripped : (content ++ typ :: List.replicate padding 0).reverse.dropWhile (· == 0) = typ :: content.reverse := by
    rw [reverse_append, reverse_cons, reverse_replicate, append_assoc,
      dropWhile_append_of_pos (by simp)]
    simp [nonzero]
  unfold splitInner
  rw [stripped]
  simp

/-! ## Layout -/

/-- The first byte of a protected record. -/
def unifiedFirst (epoch : ℕ) (cid : Bytes) : UInt8 :=
  0x2c ||| UInt8.ofNat (epoch % 4) ||| (if cid.isEmpty then 0 else 0x10)

/-- What the first byte tells the receiver. -/
theorem unifiedFirst_flags (epoch : ℕ) (cid : Bytes) :
    (unifiedFirst epoch cid &&& 0xe0 == 0x20) = true ∧ (unifiedFirst epoch cid &&& 0x10 != 0) = !cid.isEmpty ∧
      (unifiedFirst epoch cid &&& 0x08 != 0) = true ∧ (unifiedFirst epoch cid &&& 0x04 != 0) = true ∧
      (unifiedFirst epoch cid &&& 3).toNat = epoch % 4 := by
  unfold unifiedFirst
  have cases : epoch % 4 = 0 ∨ epoch % 4 = 1 ∨ epoch % 4 = 2 ∨ epoch % 4 = 3 := by omega
  cases cid.isEmpty <;> rcases cases with bits | bits | bits | bits <;> rw [bits] <;> decide

/-- The record a packet of this layout is parsed to. -/
def unifiedRecord (epoch : ℕ) (cid masked ciphertext : Bytes) : Record where
  header := unifiedFirst epoch cid :: cid ++ masked ++ be16 ciphertext.length
  body := ciphertext
  cid := cid
  number := ⟨epoch % 4, 0⟩
  typ := unifiedFirst epoch cid
  encrypted := true
  seqOffset := 1 + cid.length
  seqLen := unifiedSeqLen

private theorem parseRecord_unified {epoch : ℕ} {cid masked ciphertext : Bytes} (rest : Bytes)
    (short : cid.length ≤ maxCIDLen)
    (two : masked.length = 2) (sample : seqNumMaskLen ≤ ciphertext.length) (most : ciphertext.length ≤ maxCiphertext) :
    parseRecord (unifiedFirst epoch cid :: cid ++ masked ++ be16 ciphertext.length ++ ciphertext ++ rest) cid.length =
      .ok (unifiedRecord epoch cid masked ciphertext, rest) := by
  obtain ⟨kind, hasCID, hasSeq, hasLength, bits⟩ := unifiedFirst_flags epoch cid
  have word : ciphertext.length < 65536 := most.trans_lt (by decide)
  generalize named : unifiedFirst epoch cid = first at *
  have offset : (if (!cid.isEmpty) = true then 1 + cid.length else 1) = 1 + cid.length := by
    cases cid <;> simp
  have found : (if (!cid.isEmpty) = true then (cid ++ (masked ++ (be16 ciphertext.length ++ (ciphertext ++ rest)))).take
      cid.length else []) = cid := by
    cases cid <;> simp
  simp only [cons_append, append_assoc, parseRecord, if_neg (not_lt.mpr short), kind, if_true]
  unfold parseUnified
  simp only [hasCID, hasSeq, hasLength, drop_succ_cons, drop_zero, offset, found, if_true]
  -- The datagram is its header, the ciphertext and the rest.
  have front : (first :: (cid ++ masked)).length =
      1 + cid.length + unifiedSeqLen + unifiedLengthLen - unifiedLengthLen := by
    simp only [length_cons, length_append, two, unifiedSeqLen, unifiedLengthLen]
    omega
  have header : (first :: (cid ++ (masked ++ be16 ciphertext.length))).length =
      1 + cid.length + unifiedSeqLen + unifiedLengthLen := by
    simp only [length_cons, length_append, two, be16_length, unifiedSeqLen, unifiedLengthLen]
    omega
  have atLength : first :: (cid ++ (masked ++ (be16 ciphertext.length ++ (ciphertext ++ rest)))) =
      first :: (cid ++ masked) ++ (be16 ciphertext.length ++ (ciphertext ++ rest)) := by simp
  have atBody : first :: (cid ++ (masked ++ (be16 ciphertext.length ++ (ciphertext ++ rest)))) =
      first :: (cid ++ (masked ++ be16 ciphertext.length)) ++ (ciphertext ++ rest) := by simp
  have length : readNat (((first :: (cid ++ (masked ++ (be16 ciphertext.length ++ (ciphertext ++ rest))))).drop
      (1 + cid.length + unifiedSeqLen + unifiedLengthLen - unifiedLengthLen)).take unifiedLengthLen) =
      ciphertext.length := by
    have two : (be16 ciphertext.length).length = unifiedLengthLen := rfl
    rw [atLength, drop_left' front, take_left' two, readNat_be16 word]
  have whole : (first :: (cid ++ (masked ++ (be16 ciphertext.length ++ (ciphertext ++ rest))))).length =
      1 + cid.length + unifiedSeqLen + unifiedLengthLen + (ciphertext.length + rest.length) := by
    rw [atBody, length_append, header, length_append]
  simp only [length, whole]
  rw [if_neg, if_neg (by omega), if_neg (by omega), if_neg (not_lt.mpr most)]
  · rw [atBody, take_left' header, drop_left' header, ← drop_drop, drop_left' header, take_left,
      drop_left]
    simp [unifiedRecord, bits, named]
  · cases cid with
    | nil => simp
    | cons byte more =>
      simp only [length_cons, isEmpty_cons, Bool.not_false, Bool.true_and, Bool.or_eq_true, beq_iff_eq,
        decide_eq_true_eq]
      omega

/-- The header the receiver authenticates is the one the sender did. -/
private theorem unmaskHeader_unified (epoch : ℕ) (cid : Bytes) (sequence : ℕ) (ciphertext : Bytes)
    (mask : Vector UInt8 16) :
    unmaskHeader (unifiedRecord epoch cid (xorMask (be16 sequence) mask) ciphertext) mask =
      (unifiedFirst epoch cid :: cid ++ be16 sequence ++ be16 ciphertext.length, sequence % 65536) := by
  have two : (xorMask (be16 sequence) mask).length = unifiedSeqLen := by simp [unifiedSeqLen]
  have front : (unifiedFirst epoch cid :: cid).length = 1 + cid.length := by
    rw [length_cons, Nat.add_comm]
  have sequenceBytes : readNat (be16 sequence) = sequence % 65536 := by
    rw [be16_eq_bigEndian, readNat_bigEndian]
    rfl
  have after : (unifiedFirst epoch cid :: cid ++ (xorMask (be16 sequence) mask ++ be16 ciphertext.length)).drop
      (1 + cid.length + unifiedSeqLen) = be16 ciphertext.length := by
    rw [← drop_drop, drop_left' front, drop_left' two]
  unfold unmaskHeader unifiedRecord
  dsimp only
  rw [append_assoc _ _ (be16 ciphertext.length), after, drop_left' front, take_left' front,
    take_left' two, xorMask_xorMask mask (by simp), sequenceBytes]

/-! ## The round trip -/

section

variable [Crypto] (keys : TrafficKeys) (number : RecordNumber) (cid : Bytes) (typ : UInt8) (content : Bytes)
  (padding : ℕ)

def innerPlaintext : Bytes := content ++ typ :: List.replicate padding 0

/-- The body of a protected record. -/
def sealedBody : Bytes :=
  Crypto.aeadSeal keys (unifiedFirst number.epoch cid :: cid ++ be16 number.sequence ++
      be16 ((innerPlaintext typ content padding).length + aeadOverhead))
    number.sequence (innerPlaintext typ content padding)

/-- The record that is sent. -/
def sealedRecord : Record :=
  unifiedRecord number.epoch cid
    (xorMask (be16 number.sequence)
    (Crypto.mask keys ((sealedBody keys number cid typ content padding).take seqNumMaskLen)))
    (sealedBody keys number cid typ content padding)

omit [Crypto] in
theorem innerPlaintext_length : (innerPlaintext typ content padding).length = content.length + padding + 1 := by
  simp only [innerPlaintext, length_append, length_cons, length_replicate]
  omega

theorem sealedBody_length :
    (sealedBody keys number cid typ content padding).length =
    (innerPlaintext typ content padding).length + aeadOverhead :=
  Crypto.aeadSeal_length _ _ _ _

end

variable [Crypto] {keys : TrafficKeys} {number : RecordNumber} {cid : Bytes} {typ : UInt8} {content : Bytes}
  {padding : ℕ}

theorem sealedBody_le (size : content.length + padding ≤ maxContent) :
    (sealedBody keys number cid typ content padding).length ≤ maxCiphertext := by
  rw [sealedBody_length, innerPlaintext_length]
  exact (Nat.add_le_add_right (Nat.succ_le_succ size) _).trans (by decide)

theorem encodeRecord_eq (epoch : 2 ≤ number.epoch) (short : cid.length ≤ maxCIDLen)
    (valid : validContentType typ = true)
    (size : content.length + padding ≤ maxContent) :
    keys.encodeRecord number cid typ content padding =
      .ok ((sealedRecord keys number cid typ content padding).header ++
        sealedBody keys number cid typ content padding) := by
  have fits : (sealedBody keys number cid typ content padding).length ≤ maxCiphertext := sealedBody_le size
  rw [sealedBody_length, innerPlaintext] at fits
  unfold TrafficKeys.encodeRecord
  rw [if_neg, if_neg (by omega)]
  · dsimp only
    rw [if_neg (not_lt.mpr fits)]
    simp only [sealedRecord, unifiedRecord, sealedBody_length]
    rfl
  · rw [valid]
    simp only [Bool.true_eq_false, not_lt.mpr epoch, not_lt.mpr short, or_self, not_false_eq_true]

theorem parseRecord_sealed (short : cid.length ≤ maxCIDLen) (size : content.length + padding ≤ maxContent)
    (rest : Bytes) :
    parseRecord ((sealedRecord keys number cid typ content padding).header ++
        sealedBody keys number cid typ content padding ++ rest) cid.length =
      .ok (sealedRecord keys number cid typ content padding, rest) := by
  refine parseRecord_unified rest short (by simp) ?_ (sealedBody_le size)
  rw [sealedBody_length]
  exact Nat.le_add_left _ _

/-- The receiver opens what was sealed. -/
theorem aeadOpen_sealedBody : Crypto.aeadOpen keys
    (unifiedFirst number.epoch cid :: cid ++ be16 number.sequence ++
      be16 (sealedBody keys number cid typ content padding).length) number.sequence
    (sealedBody keys number cid typ content padding) = some (innerPlaintext typ content padding) := by
  rw [sealedBody_length]
  exact Crypto.aeadOpen_seal _ _ _ _

/-- Once the number is found again, only the window can refuse the record. -/
theorem decodeRecord_sealed {window : ReplayWindow} (short : cid.length ≤ maxCIDLen)
    (valid : validContentType typ = true)
    (size : content.length + padding ≤ maxContent)
    (near : reconstructSequence (number.sequence % 65536) 2 window.next = number.sequence) :
    keys.decodeRecord (sealedRecord keys number cid typ content padding) number.epoch cid window =
      match window.accept number.sequence with
      | none => .error .replay
      | some window' => .ok ((number, typ, content), window') := by
  have length := sealedBody_length keys number cid typ content padding
  have sample : seqNumMaskLen ≤ (sealedBody keys number cid typ content padding).length := by
    rw [length]
    exact Nat.le_add_left _ _
  have inner : ¬maxContent + 1 < (innerPlaintext typ content padding).length := by
    rw [innerPlaintext_length]
    omega
  have header : (sealedRecord keys number cid typ content padding).header.length ≤ maxUnifiedHeader := by
    simp only [sealedRecord, unifiedRecord, length_append, length_cons, xorMask_length, be16_length]
    unfold maxCIDLen at short
    unfold maxUnifiedHeader maxCIDLen unifiedSeqLen unifiedLengthLen
    omega
  have unmasked :=
    unmaskHeader_unified number.epoch cid number.sequence (sealedBody keys number cid typ content padding)
    (Crypto.mask keys ((sealedBody keys number cid typ content padding).take seqNumMaskLen))
  have body : (sealedRecord keys number cid typ content padding).body =
      sealedBody keys number cid typ content padding := rfl
  have seqLen : (sealedRecord keys number cid typ content padding).seqLen = 2 := rfl
  have split := splitInner_padded (validContentType_ne_zero valid) content padding
  unfold TrafficKeys.decodeRecord
  rw [if_neg (by simp [sealedRecord, unifiedRecord]), body, if_neg (not_lt.mpr sample),
    if_neg (not_lt.mpr header), seqLen]
  rw [sealedRecord, unmasked]
  simp only [near, aeadOpen_sealedBody, if_neg inner]
  rw [if_neg (show ¬_ < aeadOverhead from not_lt.mpr sample), innerPlaintext, split]
  cases window.accept number.sequence <;> simp only [valid, Bool.true_eq_false, if_false]

omit [Crypto] in
/-- A number that the window takes and that is not too far ahead is found again. -/
private theorem reconstructSequence_taken {window window' : ReplayWindow} {sequence : ℕ} (word : sequence ≤ maxUint64)
    (filled : window.highest ≤ maxUint64) (near : window.next.dist sequence ≤ 2 ^ 15)
    (taken : window.accept sequence = some window') :
    reconstructSequence (sequence % 65536) 2 window.next = sequence := by
  have expected : window.next ≤ maxUint64 := by
    unfold ReplayWindow.next
    split_ifs <;> omega
  -- A number far below the expected one is too old for the window.
  have above : window.next < sequence + 2 ^ 15 := by
    by_contra far
    have filled : window.bits ≠ 0 := by
      intro empty
      rw [ReplayWindow.next, if_pos empty] at far
      omega
    have highest : window.next ≤ window.highest + 1 := by
      unfold ReplayWindow.next
      split_ifs <;> omega
    have seen : window.Seen sequence := ⟨filled, by omega, .inl (by omega)⟩
    rw [ReplayWindow.accept_eq_none.mpr seen] at taken
    cases taken
  have below : sequence ≤ window.next + 2 ^ 15 := by
    unfold Nat.dist at near
    omega
  exact (reconstructSequence_nearest (.inr rfl) (Nat.mod_lt _ (by decide)) expected).unique
    (Nat.nearest_of_near (by decide) word above below)

/-- Whatever is encrypted can be parsed off the front of a datagram and decrypted to what it was, by any window
that takes its number and expects one at most 2^15 away. -/
theorem encodeRecord_roundTrip {window window' : ReplayWindow} (epoch : 2 ≤ number.epoch)
    (word : number.sequence ≤ maxUint64) (short : cid.length ≤ maxCIDLen) (valid : validContentType typ = true)
    (size : content.length + padding ≤ maxContent) (filled : window.highest ≤ maxUint64)
    (near : window.next.dist number.sequence ≤ 2 ^ 15) (taken : window.accept number.sequence = some window') :
    ∃ packet, keys.encodeRecord number cid typ content padding = .ok packet ∧ ∀ rest, ∃ record,
      parseRecord (packet ++ rest) cid.length = .ok (record, rest) ∧
      keys.decodeRecord record number.epoch cid window = .ok ((number, typ, content), window') := by
  refine ⟨_, encodeRecord_eq epoch short valid size,
    fun rest => ⟨sealedRecord keys number cid typ content padding, ?_, ?_⟩⟩
  · exact parseRecord_sealed short size rest
  · rw [decodeRecord_sealed short valid size (reconstructSequence_taken word filled near taken), taken]

/-- A window that has accepted number 1000. -/
def laterWindow : ReplayWindow := (Machine.transduce ReplayWindow.step {} [1000]).2

omit [Crypto] in
/-- The transparent cipher, a connection ID, and content that ends in a zero. -/
theorem transparent_roundTrip :
    laterWindow.next = 1001 ∧ ∃ packet window',
      @TrafficKeys.encodeRecord transparent (transparentKeys 1) ⟨2, 1003⟩ [5] 23 [1, 0] 3 = .ok packet ∧
      ∀ rest, ∃ record, parseRecord (packet ++ rest) 1 = .ok (record, rest) ∧
        @TrafficKeys.decodeRecord transparent (transparentKeys 1) record 2 [5] laterWindow =
          .ok ((⟨2, 1003⟩, 23, [1, 0]), window') := by
  obtain ⟨packet, encoded, decoded⟩ := @encodeRecord_roundTrip transparent (transparentKeys 1) ⟨2, 1003⟩ [5] 23 [1, 0] 3
    laterWindow ⟨1003, 9⟩ (by decide) (by decide) (by decide) (by decide) (by decide) (by decide)
      (by decide) (by decide)
  exact ⟨by decide, packet, _, encoded, decoded⟩

omit [Crypto] in
/-- The window has accepted number 1000 and nothing else, and refuses number 100 as too old. -/
theorem laterWindow_refuses :
    (Machine.transduce AcceptedNumbers.step ∅ [1000]).2 = {1000} ∧ laterWindow.next.dist 100 ≤ 2 ^ 15 ∧
      ∃ packet record, @TrafficKeys.encodeRecord transparent (transparentKeys 1) ⟨2, 100⟩ [] 23 [1] 0 = .ok packet ∧
        parseRecord packet 0 = .ok (record, []) ∧
        @TrafficKeys.decodeRecord transparent (transparentKeys 1) record 2 [] laterWindow = .error .replay := by
  let _ := transparent
  refine ⟨by decide, by decide, _, sealedRecord (transparentKeys 1) ⟨2, 100⟩ [] 23 [1] 0,
    encodeRecord_eq (by decide) (by decide) (by decide) (by decide), ?_, ?_⟩
  · have parsed : parseRecord ((sealedRecord (transparentKeys 1) ⟨2, 100⟩ [] 23 [1] 0).header ++
        sealedBody (transparentKeys 1) ⟨2, 100⟩ [] 23 [1] 0 ++ []) 0 =
        .ok (sealedRecord (transparentKeys 1) ⟨2, 100⟩ [] 23 [1] 0, []) := parseRecord_sealed (by decide) (by decide) []
    rwa [append_nil] at parsed
  · exact decodeRecord_sealed (by decide) (by decide) (by decide) (by decide)

end Socat.Dtls13
