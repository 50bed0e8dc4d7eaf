import Socat.Dtls13.Negotiation.Codec

/-! # The codecs of control messages

ACK, NewConnectionId, Certificate and CertificateRequest are read back as they were written. An ACK carries
its numbers in ascending order, each once.
-/

namespace Socat.Dtls13

open List WireWriter WireReader

/-! ## Acknowledgements -/

namespace RecordNumber

theorem after_iff {a b : RecordNumber} :
    a.after b = true ↔ b.epoch < a.epoch ∨ a.epoch = b.epoch ∧ b.sequence < a.sequence := by
  simp [after]

theorem notAfter_iff {a b : RecordNumber} :
    a.notAfter b ↔ a.epoch < b.epoch ∨ a.epoch = b.epoch ∧ a.sequence ≤ b.sequence := by
  rw [notAfter, ← Bool.not_eq_true, after_iff]
  omega

instance : Std.Total notAfter := ⟨fun a b => by simp only [notAfter_iff]; omega⟩

instance : IsTrans RecordNumber notAfter := ⟨fun a b c first second => by simp only [notAfter_iff] at *; omega⟩

private theorem after_of_notAfter_of_ne {a b : RecordNumber} (ordered : a.notAfter b) (different : a ≠ b) :
    b.after a = true := by
  rw [notAfter_iff] at ordered
  rw [after_iff]
  have apart : ¬(a.epoch = b.epoch ∧ a.sequence = b.sequence) := fun same =>
    different (by cases a; cases b; simpa using same)
  omega

end RecordNumber

variable {records : List RecordNumber} {body : Bytes} {authorities : List Bytes}

/-- A sorted list without its repetitions is strictly ascending. -/
theorem ascending_compactNumbers (sorted : records.Pairwise RecordNumber.notAfter) :
    (compactNumbers records).Pairwise fun a b => b.after a = true := by
  induction records using compactNumbers.induct with
  | case1 a rest ih =>
    rw [compactNumbers, if_pos rfl]
    exact ih (pairwise_cons.mp sorted).2
  | case2 a b rest different ih =>
    obtain ⟨least, later⟩ := pairwise_cons.mp sorted
    obtain ⟨second, -⟩ := pairwise_cons.mp later
    have before : b.after a = true := RecordNumber.after_of_notAfter_of_ne (least b mem_cons_self) different
    rw [compactNumbers, if_neg different]
    refine pairwise_cons.mpr ⟨fun n listed => ?_, ih later⟩
    have member := mem_compactNumbers.mp listed
    refine RecordNumber.after_of_notAfter_of_ne (least n member) ?_
    rintro rfl
    -- The number would stand behind a greater one.
    rcases mem_cons.mp member with same | further
    · exact different same
    · rw [second a further] at before
      cases before
  | case3 short single =>
    rcases short with _ | ⟨a, _ | ⟨b, rest⟩⟩
    · exact .nil
    · exact pairwise_singleton _ a
    · exact (single a b rest rfl).elim

private theorem ascending_ackList (records : List RecordNumber) :
    (ackList records).Pairwise fun a b => b.after a = true :=
  ascending_compactNumbers (pairwise_insertionSort _ _)

private theorem encodeACK_ok (few : records.length ≤ 1023) : ∃ body, encodeACK records = .ok body := by
  unfold encodeACK
  rw [if_neg (not_lt.mpr (few.trans (by decide)))]
  exact ⟨_, rfl⟩

/-! ## Connection IDs -/

private theorem foldl_vector8_failed (ids : List Bytes) (w : WireWriter) (sound : w.failed = false)
    (short : ∀ id ∈ ids, id.length ≤ 255) : (ids.foldl WireWriter.vector8 w).failed = false := by
  induction ids generalizing w with
  | nil => exact sound
  | cons id rest ih =>
    obtain ⟨first, later⟩ := forall_mem_cons.mp short
    exact ih (w.vector8 id) (by simp [sound, first]) later

private theorem flatMap_encodeID_length_le {ids : List Bytes} (short : ∀ id ∈ ids, id.length ≤ 255) :
    (ids.flatMap encodeID).length ≤ 256 * ids.length := by
  induction ids with
  | nil => exact le_rfl
  | cons id rest ih =>
    obtain ⟨first, later⟩ := forall_mem_cons.mp short
    have bound := ih later
    simp only [flatMap_cons, length_append, encodeID, length_cons]
    omega

private theorem encodeCIDs_ok {ids : List Bytes} {immediate : Bool} (few : ids.length ≤ maxConnectionIDs)
    (short : ∀ id ∈ ids, id.length ≤ 255) (nonempty : immediate = true → ids ≠ []) :
    ∃ body, encodeCIDs ids immediate = .ok body := by
  have sound := foldl_vector8_failed ids {} rfl short
  obtain ⟨-, -, data⟩ := foldl_vector8 ids {} sound
  have bound : (ids.foldl WireWriter.vector8 {}).data.length ≤ 65535 := by
    have size := flatMap_encodeID_length_le short
    have count : ids.length ≤ 8 := few
    rw [data, nil_append]
    omega
  unfold encodeCIDs
  simp only [sound]
  rw [if_neg Bool.false_ne_true, if_neg (by rintro ⟨now, empty⟩; exact nonempty now empty)]
  exact ⟨_, result_of_not_failed (by simp [bound])⟩

namespace Negotiation

/-! ## Certificates -/

/-- A certificate with no extensions. -/
def certificateEntry (der : Bytes) : Bytes := be24 der.length ++ (der ++ be16 0)

private theorem encodeChain_eq_ok {chain : List Bytes} {list list' : WireWriter} (sound : list.failed = false)
    (encoded : encodeChain chain list = .ok list') :
    (∀ der ∈ chain, der ≠ [] ∧ der.length ≤ maxHandshakeBody) ∧ list'.failed = false ∧
      list'.data = list.data ++ chain.flatMap certificateEntry := by
  induction chain generalizing list with
  | nil =>
    cases encoded
    exact ⟨by simp, sound, by simp⟩
  | cons der rest ih =>
    rw [encodeChain] at encoded
    simp only [Except.ite_error_eq_ok, not_lt] at encoded
    obtain ⟨filled, room, encoded⟩ := encoded
    have short : der.length ≤ maxHandshakeBody := by omega
    have bound : der.length ≤ 0xffffff := short.trans (by decide)
    obtain ⟨others, written, data⟩ := ih (by simp [sound, bound]) encoded
    refine ⟨forall_mem_cons.mpr ⟨⟨filled, short⟩, others⟩, written, ?_⟩
    rw [data, flatMap_cons, vector16_data (by simp), vector24_data bound]
    simp [certificateEntry]

private theorem parseChainLoop_entries (chain known : List Bytes) (fuel : ℕ)
    (sound : ∀ der ∈ chain, der ≠ [] ∧ der.length ≤ maxHandshakeBody)
    (few : known.length + chain.length ≤ maxCertificates) (enough : (chain.flatMap certificateEntry).length ≤ fuel) :
    parseChainLoop fuel ⟨chain.flatMap certificateEntry, false⟩ known = .ok (known ++ chain) := by
  induction chain generalizing known fuel with
  | nil => cases fuel <;> simp [parseChainLoop, finished]
  | cons der rest ih =>
    obtain ⟨⟨filled, short⟩, others⟩ := forall_mem_cons.mp sound
    have bytes : (der :: rest).flatMap certificateEntry =
        be24 der.length ++ (der ++ (be16 0 ++ rest.flatMap certificateEntry)) := by
      simp [certificateEntry]
    rw [length_cons] at few
    rw [bytes] at enough ⊢
    cases fuel with
    | zero => simp [be24] at enough
    | succ fuel =>
      have empty := vector16_append [] (rest.flatMap certificateEntry) (by decide)
      rw [length_nil, append_nil] at empty
      rw [parseChainLoop, if_neg (by simp [be24]), if_neg (by omega)]
      simp only [vector24_append (short.trans (by decide : maxHandshakeBody ≤ 0xffffff)), empty]
      rw [if_neg (by simp [filled]), if_neg (by simp), ih (known ++ [der]) fuel others (by simp; omega)]
      · simp
      · simp only [length_append, be16_length] at enough
        omega

/-- A chain is read back as it was written, under its context. -/
theorem parseCertificate_encodeCertificate {chain : List Bytes} {context : Bytes}
    (encoded : encodeCertificate chain context = .ok body) : parseCertificate body context = .ok chain := by
  unfold encodeCertificate at encoded
  rw [Except.ite_error_eq_ok, not_lt] at encoded
  obtain ⟨few, encoded⟩ := encoded
  split at encoded
  · cases encoded
  · rename_i list written
    obtain ⟨sound, -, data⟩ := encodeChain_eq_ok rfl written
    rw [nil_append] at data
    rw [Except.ite_error_eq_ok, not_lt, result_eq_ok, data] at encoded
    obtain ⟨small, passed, rfl⟩ := encoded
    obtain ⟨fits, bound⟩ : context.length ≤ 255 ∧ (chain.flatMap certificateEntry).length ≤ 0xffffff := by
      simpa using passed
    have bytes : ((({} : WireWriter).vector8 context).vector24 (chain.flatMap certificateEntry)).data =
        UInt8.ofNat context.length :: (context ++ (be24 (chain.flatMap certificateEntry).length ++
          (chain.flatMap certificateEntry ++ []))) := by
      simp [vector8_data fits, vector24_data bound]
    unfold parseCertificate
    rw [if_neg (not_lt.mpr small), bytes]
    simp only [vector8_append fits, vector24_append bound, done_mk]
    rw [if_neg (by simp), if_neg (by simp),
      parseChainLoop_entries chain [] _ sound (by simpa using few) le_rfl, nil_append]

/-! ## CertificateRequest -/

private theorem parseList16_encodeList16 {values : List U16} (encoded : encodeList16 values = .ok body) :
    parseList16 body = .ok values := by
  unfold encodeList16 at encoded
  rw [Except.ite_error_eq_ok, not_or, not_lt, foldl_writeUint16, result_eq_ok] at encoded
  obtain ⟨⟨some, few⟩, -, rfl⟩ := encoded
  have size := length_flatMap_codeBytes values
  have bound : (values.flatMap codeBytes).length ≤ 65535 := by omega
  have count : 0 < values.length := length_pos_iff.mpr some
  have whole := vector16_append (values.flatMap codeBytes) [] bound
  have filled : values.flatMap codeBytes ≠ [] := by
    rw [← length_pos_iff]
    omega
  rw [append_nil] at whole
  unfold parseList16
  simp only [vector16_data bound, nil_append, whole, done_mk, isEmpty_nil, if_true,
    uint16List, codes_flatMap]
  rw [if_neg (by simp [filled, size])]

/-- A name behind its length. -/
def nameEntry (name : Bytes) : Bytes := be16 name.length ++ name

private theorem encodeNames_eq_ok {names : List Bytes} {list list' : WireWriter} (sound : list.failed = false)
    (small : list.data.length ≤ 65533) (encoded : encodeNames names list = .ok list') :
    (∀ name ∈ names, name ≠ [] ∧ name.length ≤ 65535) ∧ list'.data.length ≤ 65533 ∧
      list'.data = list.data ++ names.flatMap nameEntry := by
  induction names generalizing list with
  | nil =>
    cases encoded
    exact ⟨by simp, small, by simp⟩
  | cons name rest ih =>
    rw [encodeNames] at encoded
    simp only [Except.ite_error_eq_ok, not_or, not_lt, Bool.not_eq_true] at encoded
    obtain ⟨filled, ⟨passed, room⟩, encoded⟩ := encoded
    have bound : name.length ≤ 65535 := by simpa [sound] using passed
    obtain ⟨others, limit, data⟩ := ih passed room encoded
    refine ⟨forall_mem_cons.mpr ⟨⟨filled, bound⟩, others⟩, limit, ?_⟩
    rw [data, flatMap_cons, vector16_data bound, nameEntry, append_assoc]

private theorem parseNamesLoop_entries (names known : List Bytes) (fuel : ℕ)
    (sound : ∀ name ∈ names, name ≠ [] ∧ name.length ≤ 65535) (enough : (names.flatMap nameEntry).length ≤ fuel) :
    parseNamesLoop fuel ⟨names.flatMap nameEntry, false⟩ known = .ok (known ++ names) := by
  induction names generalizing known fuel with
  | nil => cases fuel <;> simp [parseNamesLoop]
  | cons name rest ih =>
    obtain ⟨⟨filled, bound⟩, others⟩ := forall_mem_cons.mp sound
    rw [flatMap_cons, nameEntry] at enough ⊢
    cases fuel with
    | zero => simp [be16] at enough
    | succ fuel =>
      rw [parseNamesLoop, if_neg (by simp [be16])]
      simp only [vector16_append name _ bound]
      rw [if_neg (by simp [filled]), ih (known ++ [name]) fuel others]
      · simp
      · simp only [length_append, be16_length] at enough
        omega

private theorem parseAuthorities_encodeNames {names : List Bytes} {list : WireWriter} (some : names ≠ [])
    (encoded : encodeNames names {} = .ok list) :
    parseAuthorities (({} : WireWriter).vector16 list.data).data = .ok names := by
  obtain ⟨sound, small, data⟩ := encodeNames_eq_ok rfl (by decide) encoded
  have bound : list.data.length ≤ 65535 := small.trans (by decide)
  have whole := vector16_append list.data [] bound
  rw [append_nil] at whole
  have filled : list.data ≠ [] := by
    obtain ⟨name, rest, rfl⟩ := exists_cons_of_ne_nil some
    simp [data, nameEntry, be16]
  unfold parseAuthorities
  simp only [vector16_data bound, nil_append, whole, done_mk]
  rw [if_neg (by simp [filled]), data, nil_append, parseNamesLoop_entries names [] _ sound le_rfl, nil_append]

/-- The extensions of a request. -/
theorem encodeCertificateRequest_eq_ok (encoded : encodeCertificateRequest authorities = .ok body) :
    ∃ signatures ext bytes, encodeList16 signatureSchemes = .ok signatures ∧ Extensions.marshal ext = .ok bytes ∧
      body = 0 :: (be16 bytes.length ++ bytes) ∧ ext.lookup extSignatureAlgorithms = some signatures ∧
      optional (ext.lookup extCertificateAuthorities) [] parseAuthorities = .ok authorities := by
  have finish : ∀ ext : Extensions,
      (Extensions.marshal ext >>= fun encoded => ((({} : WireWriter).vector8 []).vector16 encoded).result) = .ok body →
        ∃ bytes, Extensions.marshal ext = .ok bytes ∧ body = 0 :: (be16 bytes.length ++ bytes) := by
    intro ext done
    obtain ⟨bytes, marshalled, written⟩ := Except.bind_eq_ok.mp done
    obtain ⟨-, short, -⟩ := marshal_extensions_eq_ok.mp marshalled
    refine ⟨bytes, marshalled, ?_⟩
    rw [result_eq_ok, vector16_data short] at written
    exact written.2.symm
  unfold encodeCertificateRequest at encoded
  obtain ⟨signatures, listed, encoded⟩ := Except.bind_eq_ok.mp encoded
  split_ifs at encoded with none
  · obtain ⟨bytes, marshalled, layout⟩ := finish _ encoded
    refine ⟨signatures, _, bytes, listed, marshalled, layout, by simp, ?_⟩
    rw [OrderedMap.lookup_insert, if_neg (by decide), OrderedMap.lookup_empty, none]
    rfl
  · obtain ⟨list, names, encoded⟩ := Except.bind_eq_ok.mp encoded
    obtain ⟨bytes, marshalled, layout⟩ := finish _ encoded
    refine ⟨signatures, _, bytes, listed, marshalled, layout, ?_, ?_⟩
    · rw [OrderedMap.lookup_insert, if_neg (by decide), OrderedMap.lookup_insert, if_pos rfl]
    · rw [OrderedMap.lookup_insert, if_pos rfl]
      exact parseAuthorities_encodeNames none names

/-- A request is read back as it was written. -/
theorem parseCertificateRequest_encode (encoded : encodeCertificateRequest authorities = .ok body) :
    parseCertificateRequest body = .ok (signatureSchemes, authorities) := by
  obtain ⟨signatures, ext, bytes, listed, marshalled, rfl, schemes, names⟩ := encodeCertificateRequest_eq_ok encoded
  obtain ⟨-, short, -⟩ := marshal_extensions_eq_ok.mp marshalled
  have whole := vector16_append bytes [] short
  rw [append_nil] at whole
  unfold parseCertificateRequest
  simp only [vector8_zero, whole, done_mk, Except.ite_throw_bind_eq_ok, Except.bind_eq_ok]
  refine ⟨by simp, by simp, ext, parseExtensions_marshal marshalled _, ?_⟩
  simp only [schemes, Except.bind_eq_ok, Except.pure_eq_ok]
  exact ⟨_, parseList16_encodeList16 listed, _, names, rfl⟩

/-- Every control message is read back as it was written; of the numbers in an ACK each one comes once, in
ascending order. -/
theorem control_codecs :
    (∀ records : List RecordNumber, (∀ n ∈ records, n.Fits) → records.length ≤ 1023 →
      ∃ body parsed, encodeACK records = .ok body ∧ parseACK body = .ok parsed ∧
        parsed.Pairwise (fun a b => b.after a = true) ∧ ∀ n, n ∈ parsed ↔ n ∈ records) ∧
    (∀ (ids : List Bytes) (immediate : Bool), ids.length ≤ 8 → ids.Nodup → (∀ id ∈ ids, id.length ≤ 255) →
      (immediate = true → ids ≠ []) →
        ∃ body, encodeCIDs ids immediate = .ok body ∧ parseCIDs body = .ok (ids, immediate)) ∧
    (∀ chain context body, encodeCertificate chain context = .ok body → parseCertificate body context = .ok chain) ∧
    ∀ authorities body, encodeCertificateRequest authorities = .ok body →
      parseCertificateRequest body = .ok (signatureSchemes, authorities) := by
  refine ⟨fun records fits few => ?_, fun ids immediate few distinct short nonempty => ?_,
    fun _ _ _ => parseCertificate_encodeCertificate, fun _ _ => parseCertificateRequest_encode⟩
  · obtain ⟨body, encoded⟩ := encodeACK_ok few
    exact ⟨body, _, encoded, parseACK_ackList fits encoded, ascending_ackList records, fun _ => mem_ackList⟩
  · obtain ⟨body, encoded⟩ := encodeCIDs_ok few short nonempty
    exact ⟨body, encoded, parseCIDs_encodeCIDs encoded distinct few⟩

theorem control_codecs_chain :
    (∃ body, encodeCertificate [[1], [2, 3]] [7] = .ok body ∧ parseCertificate body [7] = .ok [[1], [2, 3]]) ∧
      ∃ body, encodeCertificateRequest [[65]] = .ok body ∧
        parseCertificateRequest body = .ok (signatureSchemes, [[65]]) := by
  obtain ⟨-, -, certificates, requests⟩ := control_codecs
  exact ⟨⟨_, rfl, certificates _ _ _ rfl⟩, ⟨_, rfl, requests _ _ rfl⟩⟩

end Negotiation

end Socat.Dtls13
