import Socat.Dtls13.Model.Layout
import Socat.Dtls13.Negotiation.Cookie
import Socat.ToMathlib.Except

/-! # Reading back what was written

A reader takes off the front of its input exactly what a writer appended, so every encoder of a hello, of
an extension or of a cookie is undone by its parser.
-/

namespace Socat.Dtls13

open List WireReader WireWriter

namespace WireReader

@[simp] theorem readCode_append (code : U16) (rest : Bytes) :
    (WireReader.mk (be16 code ++ rest) false).readCode = (code, ⟨rest, false⟩) := by
  simp only [readCode, readUint16_append code.isLt, Fin.ofNat_val_eq_self]

private theorem consumes_readCode (r : WireReader) : r.Consumes r.readCode.2 2 := r.consumes_take 2

theorem readCode_of_not_failed {r : WireReader} (ended : r.readCode.2.failed = false) :
    r.failed = false ∧ r.data = be16 r.readCode.1 ++ r.readCode.2.data := by
  obtain ⟨begun, front⟩ := readUint16_of_not_failed ended
  have code : (r.readCode.1 : ℕ) = r.readUint16.1 := Nat.mod_eq_of_lt r.readUint16_lt
  rw [code]
  exact ⟨begun, front⟩

end WireReader

variable {body cookie data : Bytes} {hello : ClientHello} {offer : ClientOffer} {f : CookieFields}
  {config : Config} {now : Instant} {s : CookieSecrets} {peer : AddrPort}

namespace Negotiation

/-! ## Extensions -/

/-- The bytes of one extension. -/
def extensionBytes (entry : U16 × Bytes) : Bytes := be16 entry.1 ++ (be16 entry.2.length ++ entry.2)

private theorem foldl_writeExtension (entries : List (U16 × Bytes)) (w : WireWriter) :
    ((entries.foldl writeExtension w).failed = false ↔
      w.failed = false ∧ ∀ entry ∈ entries, entry.2.length ≤ 65535) ∧
    ((∀ entry ∈ entries, entry.2.length ≤ 65535) →
      (entries.foldl writeExtension w).data = w.data ++ entries.flatMap extensionBytes) := by
  induction entries generalizing w with
  | nil => simp
  | cons entry rest ih =>
    obtain ⟨failed, data⟩ := ih (writeExtension w entry)
    refine ⟨?_, fun bounded => ?_⟩
    · rw [foldl_cons, failed]
      simp [writeExtension, and_assoc]
    · obtain ⟨first, later⟩ := forall_mem_cons.mp bounded
      rw [foldl_cons, data later]
      simp [writeExtension, vector16_data first, extensionBytes]

theorem written_perm (e : Extensions) : (Extensions.written e).Perm e.entries := by
  have opposite : (fun entry : U16 × Bytes => decide (entry.1 = extPreSharedKey)) =
      fun entry => !decide (entry.1 ≠ extPreSharedKey) := by
    funext entry
    simp
  unfold Extensions.written
  rw [opposite]
  exact filter_append_perm _ _

theorem marshal_extensions_eq_ok {e : Extensions} {bytes : Bytes} :
    Extensions.marshal e = .ok bytes ↔ (∀ entry ∈ e.entries, entry.2.length ≤ 65535) ∧ bytes.length ≤ 65535 ∧
      (Extensions.written e).flatMap extensionBytes = bytes := by
  obtain ⟨failed, data⟩ := foldl_writeExtension (Extensions.written e) {}
  have sameEntries : (∀ entry ∈ Extensions.written e, entry.2.length ≤ 65535) ↔
      ∀ entry ∈ e.entries, entry.2.length ≤ 65535 := by simp only [(written_perm e).mem_iff]
  rw [sameEntries] at failed data
  simp only [Extensions.marshal]
  rw [Except.ite_error_eq_ok, result_eq_ok, not_or, not_lt, Bool.not_eq_true]
  constructor
  · rintro ⟨⟨written, short⟩, -, rfl⟩
    have bounded := (failed.mp written).2
    exact ⟨bounded, short, by simpa using (data bounded).symm⟩
  · rintro ⟨bounded, short, rfl⟩
    have bytes := data bounded
    rw [nil_append] at bytes
    have written := failed.mpr ⟨rfl, bounded⟩
    exact ⟨⟨written, bytes ▸ short⟩, written, bytes⟩

/-- The parser gathers the entries it is given, as long as a `pre_shared_key` comes last. -/
theorem parseExtensionsLoop_entries (messageType : UInt8) (entries : List (U16 × Bytes))
    (bounded : ∀ entry ∈ entries, entry.2.length ≤ 65535) (distinct : entries.Pairwise fun a b => a.1 ≠ b.1)
    (last : entries.Pairwise fun a _ => a.1 ≠ extPreSharedKey) (fuel : ℕ) (out : Extensions)
    (absent : ∀ entry ∈ entries, out.lookup entry.1 = none)
    (enough : (entries.flatMap extensionBytes).length ≤ fuel) :
    parseExtensionsLoop messageType fuel ⟨entries.flatMap extensionBytes, false⟩ out =
      .ok (entries.foldl (fun m entry => m.insert entry.1 entry.2) out) := by
  induction entries generalizing fuel out with
  | nil => cases fuel <;> simp [parseExtensionsLoop, finished]
  | cons entry rest ih =>
    obtain ⟨short, bounded⟩ := forall_mem_cons.mp bounded
    obtain ⟨apart, distinct⟩ := pairwise_cons.mp distinct
    obtain ⟨before, last⟩ := pairwise_cons.mp last
    obtain ⟨new, absent⟩ := forall_mem_cons.mp absent
    have bytes : (entry :: rest).flatMap extensionBytes =
        be16 entry.1 ++ (be16 entry.2.length ++ entry.2 ++ rest.flatMap extensionBytes) := by
      simp [extensionBytes]
    rw [bytes] at enough ⊢
    cases fuel with
    | zero => simp at enough
    | succ fuel =>
      have key : ¬(messageType = msgClientHello ∧ entry.1 = extPreSharedKey ∧ rest.flatMap extensionBytes ≠ []) := by
        rintro ⟨-, chosen, more⟩
        cases rest with
        | nil => exact more rfl
        | cons other others => exact before other mem_cons_self chosen
      rw [parseExtensionsLoop, if_neg (by simp [be16])]
      simp only [readCode_append, vector16_append entry.2 _ short, new, Option.isSome_none,
        Bool.false_eq_true, if_false, if_neg key]
      refine ih bounded distinct last fuel (out.insert entry.1 entry.2) (fun other member => ?_) ?_
      · rw [OrderedMap.lookup_insert, if_neg (apart other member).symm]
        exact absent other member
      · simp only [length_append, be16_length] at enough
        omega

/-- Extensions are read back as they were written. -/
theorem parseExtensions_marshal {e : Extensions} {bytes : Bytes} (written : Extensions.marshal e = .ok bytes)
    (messageType : UInt8) : parseExtensions bytes messageType = .ok e := by
  obtain ⟨bounded, -, rfl⟩ := marshal_extensions_eq_ok.mp written
  have perm := written_perm e
  have distinct : (Extensions.written e).Pairwise fun a b => a.1 ≠ b.1 :=
    (perm.pairwise_iff fun different => Ne.symm different).mpr e.distinct
  have last : (Extensions.written e).Pairwise fun a _ => a.1 ≠ extPreSharedKey := by
    unfold Extensions.written
    refine pairwise_append.mpr ⟨?_, ?_, ?_⟩
    · refine List.Pairwise.imp_mem.mpr (pairwise_of_forall fun a b listed _ => ?_)
      simpa using (mem_filter.mp listed).2
    · -- At most one entry has the key.
      refine List.Pairwise.imp_of_mem ?_ (e.distinct.filter _)
      intro a b first second different
      have same : a.1 = extPreSharedKey := by simpa using (mem_filter.mp first).2
      have same' : b.1 = extPreSharedKey := by simpa using (mem_filter.mp second).2
      exact absurd (same.trans same'.symm) different
    · intro a listed b _
      simpa using (mem_filter.mp listed).2
  unfold parseExtensions
  rw [parseExtensionsLoop_entries messageType _ (fun entry listed => bounded entry (perm.mem_iff.mp listed)) distinct
    last _ ∅ (fun _ _ => rfl) le_rfl, OrderedMap.foldl_insert_perm perm]

/-! ## Hellos -/

/-- The two bytes of a code. -/
def codeBytes (code : U16) : Bytes := be16 code

theorem codes_flatMap (values : List U16) : codes (values.flatMap codeBytes) = values := by
  induction values with
  | nil => rfl
  | cons value rest ih =>
    have first : Fin.ofNat 65536 (readNat (be16 value)) = value := by
      rw [readNat_be16 value.isLt, Fin.ofNat_val_eq_self]
    calc codes ((value :: rest).flatMap codeBytes)
        = Fin.ofNat 65536 (readNat (be16 value)) :: codes (rest.flatMap codeBytes) := rfl
      _ = value :: rest := by rw [first, ih]

theorem foldl_writeUint16 (values : List U16) (w : WireWriter) :
    values.foldl (fun w value => w.writeUint16 value) w = ⟨w.data ++ values.flatMap codeBytes, w.failed⟩ := by
  induction values generalizing w with
  | nil => simp
  | cons value rest ih =>
    rw [foldl_cons, ih]
    simp [codeBytes]

theorem length_flatMap_codeBytes (values : List U16) : (values.flatMap codeBytes).length = 2 * values.length := by
  induction values with
  | nil => rfl
  | cons value rest ih =>
    rw [flatMap_cons, length_append, ih, codeBytes, be16_length, length_cons]
    omega

theorem Bytes32.ofBytes_val (random : Bytes32) : Bytes32.ofBytes random.1 = random := by
  refine Subtype.ext ?_
  show (random.1 ++ List.replicate 32 0).take 32 = random.1
  rw [take_append_of_le_length (by simp [random.2]), take_of_length_le (by simp [random.2])]

theorem ClientHello.marshal_eq_ok {h : ClientHello} :
    h.marshal = .ok body ↔ h.sessionID.length ≤ 32 ∧ h.suites ≠ [] ∧ h.suites.length ≤ 32767 ∧
      ∃ ext, Extensions.marshal h.extensions = .ok ext ∧ 8 ≤ ext.length ∧
        be16 legacyVersion ++ (h.random.1 ++ UInt8.ofNat h.sessionID.length :: (h.sessionID ++ 0 ::
          (be16 (2 * h.suites.length) ++ (h.suites.flatMap codeBytes ++
            1 :: 0 :: (be16 ext.length ++ ext))))) = body := by
  unfold ClientHello.marshal
  rw [Except.ite_error_eq_ok]
  simp only [not_or, not_lt, and_assoc]
  refine and_congr_right fun session => and_congr_right fun _ => and_congr_right fun few => ?_
  cases marshalled : Extensions.marshal h.extensions with
  | error e => simp
  | ok ext =>
    obtain ⟨-, short, -⟩ := marshal_extensions_eq_ok.mp marshalled
    have id : h.sessionID.length ≤ 255 := session.trans (by decide)
    have size := length_flatMap_codeBytes h.suites
    have count : 2 * h.suites.length ≤ 65535 := by omega
    simp only [Except.ite_error_eq_ok, not_lt, result_eq_ok, foldl_writeUint16]
    simp [vector8_data, vector16_data, short, id, size, count]

theorem ServerHello.marshal_eq_ok {h : ServerHello} :
    h.marshal = .ok body ↔ h.sessionID.length ≤ 32 ∧ ∃ ext, Extensions.marshal h.extensions = .ok ext ∧
      be16 legacyVersion ++ (h.random.1 ++ UInt8.ofNat h.sessionID.length :: (h.sessionID ++
        (be16 h.suite ++ 0 :: (be16 ext.length ++ ext)))) = body := by
  unfold ServerHello.marshal
  rw [Except.ite_error_eq_ok, not_lt]
  refine and_congr_right fun session => ?_
  cases marshalled : Extensions.marshal h.extensions with
  | error e => simp
  | ok ext =>
    obtain ⟨-, short, -⟩ := marshal_extensions_eq_ok.mp marshalled
    have id : h.sessionID.length ≤ 255 := session.trans (by decide)
    simp [result_eq_ok, vector8_data, vector16_data, short, id]

/-- A ServerHello is much shorter than a handshake message may be. -/
theorem parseServerHello_length {hello : ServerHello} (parsed : parseServerHello body = .ok hello) :
    body.length ≤ maxHandshakeBody := by
  unfold parseServerHello at parsed
  simp only [Except.ite_error_eq_ok, not_or] at parsed
  obtain ⟨⟨done, -⟩, -⟩ := parsed
  have taken := ((((((WireReader.mk body false).consumes_readCode.trans (consumes_take _ 32)).trans
    (consumes_vector8 _)).trans (consumes_readCode _)).trans
      (consumes_readUint8 _)).trans (consumes_vector16 _))
  simp only [WireReader.done, Bool.not_eq_false, Bool.and_eq_true, List.isEmpty_iff] at done
  obtain ⟨-, length⟩ := taken (by simpa using done.1)
  rw [done.2] at length
  refine length.trans ?_
  decide

/-- A ClientHello is read back as it was written. -/
theorem parseClientHello_marshal {h : ClientHello} (written : h.marshal = .ok body) :
    parseClientHello body = .ok h := by
  obtain ⟨session, some, few, ext, marshalled, long, rfl⟩ := ClientHello.marshal_eq_ok.mp written
  obtain ⟨-, short, -⟩ := marshal_extensions_eq_ok.mp marshalled
  have size := length_flatMap_codeBytes h.suites
  have count : 0 < h.suites.length := length_pos_iff.mpr some
  have id := vector8_append (session.trans (by decide : 32 ≤ 255))
    (0 :: (be16 (2 * h.suites.length) ++ (h.suites.flatMap codeBytes ++ 1 :: 0 :: (be16 ext.length ++ ext))))
  have suites := vector16_append (h.suites.flatMap codeBytes) (1 :: 0 :: (be16 ext.length ++ ext))
    (by omega)
  have last := vector16_append ext [] short
  rw [size, append_assoc] at suites
  rw [append_nil] at last
  unfold parseClientHello
  simp only [readCode_append, take_of_length h.random.2, id, vector8_zero, suites,
    vector8_one, last, done_mk, size, parseExtensions_marshal marshalled, codes_flatMap,
    Bytes32.ofBytes_val]
  rw [if_neg, if_neg, if_neg]
  · simp
  · simp
  · simp only [isEmpty_nil, Bool.true_eq_false, false_or, not_or, not_lt]
    omega

/-- A ServerHello is read back as it was written. -/
theorem parseServerHello_marshal {h : ServerHello} (written : h.marshal = .ok body) :
    parseServerHello body = .ok h := by
  obtain ⟨session, ext, marshalled, rfl⟩ := ServerHello.marshal_eq_ok.mp written
  obtain ⟨-, short, -⟩ := marshal_extensions_eq_ok.mp marshalled
  have id := vector8_append (session.trans (by decide : 32 ≤ 255))
    (be16 h.suite ++ 0 :: (be16 ext.length ++ ext))
  have last := vector16_append ext [] short
  rw [append_nil] at last
  unfold parseServerHello
  simp only [readCode_append, take_of_length h.random.2, id, readUint8_cons, last,
    done_mk, parseExtensions_marshal marshalled, Bytes32.ofBytes_val]
  rw [if_neg, if_neg, if_neg]
  · simp
  · simp
  · simpa using session

/-! ## Offers -/

/-- A cookie that can be read was not cut off. -/
theorem parseCookie_vector16 {value : Bytes}
    (parsed : parseCookie (({} : WireWriter).vector16 cookie).data = .ok value) : value = cookie := by
  by_cases bound : cookie.length ≤ 65535
  · have whole := vector16_append cookie [] bound
    rw [append_nil] at whole
    simp only [vector16_data bound, nil_append, parseCookie, whole, Except.ite_error_eq_ok,
      Except.ok.injEq] at parsed
    exact parsed.2.symm
  · have dropped : (({} : WireWriter).vector16 cookie).data = [] := by
      unfold WireWriter.vector16
      rw [if_pos (not_le.mp bound)]
    rw [dropped] at parsed
    cases parsed

/-- A single key share. -/
theorem parseClientShares_single {group : U16} {groups : List U16} {key share : Bytes} (named : group ∈ groups)
    (encoded : encodeKeyShare group key = .ok share) (bound : share.length ≤ 65535) :
    parseClientShares (({} : WireWriter).vector16 share).data groups =
      .ok ((∅ : OrderedMap U16 Bytes).insert group key) := by
  unfold encodeKeyShare at encoded
  rw [Except.ite_error_eq_ok, result_eq_ok] at encoded
  obtain ⟨nonempty, written, bytes⟩ := encoded
  have short : key.length ≤ 65535 := by simpa using written
  rw [vector16_data short] at bytes
  have list := vector16_append share [] bound
  have entry := vector16_append key [] short
  rw [append_nil] at list entry
  have contents : share = be16 group ++ (be16 key.length ++ key) := by simpa using bytes.symm
  have more : share ≠ [] := by simp [contents, be16]
  obtain ⟨fuel, size⟩ : ∃ fuel, share.length = fuel + 1 := Nat.exists_eq_succ_of_ne_zero (by simpa using more)
  unfold parseClientShares
  simp only [vector16_data bound, nil_append, list, done_mk, isEmpty_nil, if_true]
  rw [size, parseSharesLoop, if_neg (by simp [more])]
  simp only [contents, readCode_append, entry]
  cases fuel <;> simp [parseSharesLoop, finished, nonempty, named]

theorem parseClientOffer_eq_ok [NameService] : parseClientOffer hello = .ok offer ↔
      (∀ id ∈ [extSupportedVersions, extSupportedGroups, extKeyShare, extSignatureAlgorithms],
        (hello.extensions.lookup id).isSome) ∧
      (∃ versions, parseVersions ((hello.extensions.lookup extSupportedVersions).getD []) = .ok versions ∧
        version13 ∈ versions) ∧
      parseList16 ((hello.extensions.lookup extSupportedGroups).getD []) = .ok offer.groups ∧
      parseList16 ((hello.extensions.lookup extSignatureAlgorithms).getD []) = .ok offer.signatures ∧
      parseClientShares ((hello.extensions.lookup extKeyShare).getD []) offer.groups = .ok offer.shares ∧
      optional (hello.extensions.lookup extServerName) [] parseServerName = .ok offer.serverName ∧
      optional (hello.extensions.lookup extALPN) [] parseALPN = .ok offer.protocols ∧
      optional (hello.extensions.lookup extConnectionID) [] parseConnectionID = .ok offer.cid ∧
      offer.cidOffered = (hello.extensions.lookup extConnectionID).isSome ∧
      (optional (hello.extensions.lookup extRRC) false fun data =>
        if data ≠ [] then .error .decode else .ok offer.cidOffered) = .ok offer.rrc ∧
      optional (hello.extensions.lookup extCookie) [] parseCookie = .ok offer.cookie ∧
      (optional (hello.extensions.lookup extPreSharedKey) () fun data =>
        match hello.extensions.lookup extPSKModes with
        | none => .error .missingExtension
        | some modes => validatePSKOffer data modes) = .ok () ∧
      (optional (hello.extensions.lookup extEarlyData) () fun data =>
        if data ≠ [] then .error .decode
        else if (hello.extensions.lookup extPreSharedKey).isNone then .error .illegalParameter
        else .ok ()) = .ok () := by
  have required : (¬([extSupportedVersions, extSupportedGroups, extKeyShare, extSignatureAlgorithms].any fun id =>
      (hello.extensions.lookup id).isNone) = true) ↔
      ∀ id ∈ [extSupportedVersions, extSupportedGroups, extKeyShare, extSignatureAlgorithms],
        (hello.extensions.lookup id).isSome := by
    simp only [Bool.not_eq_true, any_eq_false, Option.isNone_iff_eq_none, Option.isSome_iff_ne_none]
  unfold parseClientOffer
  simp only [Except.ite_throw_bind_eq_ok, Except.bind_eq_ok, Except.pure_eq_ok, required, not_not]
  constructor
  · rintro ⟨present, versions, version, supported, groups, grouped, signatures, signed, shares, shared, name, named,
      protocols, spoken, cid, identified, rrc, checked, cookie, carried, _, keys, _, early, rfl⟩
    exact ⟨present, ⟨versions, version, supported⟩, grouped, signed, shared, named, spoken, identified, rfl, checked,
      carried, keys, early⟩
  · rintro ⟨present, ⟨versions, version, supported⟩, grouped, signed, shared, named, spoken, identified, offered,
      checked, carried, keys, early⟩
    refine ⟨present, versions, version, supported, _, grouped, _, signed, _, shared, _, named, _, spoken, _, identified,
      _, offered ▸ checked, _, carried, _, keys, _, early, ?_⟩
    cases offer
    cases offered
    rfl

/-! ## Cookies -/

namespace CookieFields

/-- The bytes of a cookie before its MAC. -/
private theorem encode_eq_ok : f.encode = .ok data ↔ f.firstHash.length ≤ 255 ∧ f.identities.length ≤ 65535 ∧
      1 :: (bigEndian f.issued 8 ++ (be16 f.suite ++ (be16 f.group ++ (if f.requested then 1 else 0) ::
        UInt8.ofNat f.firstHash.length :: (f.firstHash ++ (f.fingerprint ++
          (be16 f.identities.length ++ f.identities)))))) = data := by
  unfold encode
  rw [result_eq_ok]
  by_cases hash : f.firstHash.length ≤ 255 <;> by_cases identities : f.identities.length ≤ 65535 <;>
    simp [hash, identities, vector8_data, vector16_data]

/-- A cookie is read back as it was written. -/
private theorem decode_encode (encoded : f.encode = .ok data) (issued : f.issued < 256 ^ 8)
    (fingerprint : f.fingerprint.length = 32) (identities : f.identities.length % 32 = 0) : decode data = .ok f := by
  obtain ⟨hash, bound, rfl⟩ := encode_eq_ok.mp encoded
  have timestamp : readNat (bigEndian f.issued 8) = f.issued := by
    rw [readNat_bigEndian, Nat.mod_eq_of_lt issued]
  have last := vector16_append f.identities [] bound
  rw [append_nil] at last
  unfold decode
  simp only [readUint8_cons, take_of_length (bigEndian_length f.issued 8),
    readCode_append, vector8_append hash, take_of_length fingerprint, last,
    done_mk, timestamp, identities]
  cases f with
  | mk issued suite group requested firstHash fingerprint identities => cases requested <;> simp

end CookieFields

section

variable [Digests]

private theorem identityHashesLoop_length (fuel : ℕ) (r : WireReader) (hashes : Bytes) :
    (identityHashesLoop fuel r hashes).length % 32 = hashes.length % 32 := by
  induction fuel generalizing r hashes with
  | zero => rfl
  | succ fuel ih =>
    unfold identityHashesLoop
    split
    · rfl
    · simp only [ih, length_append, Digests.sum_length, HashFunction.size, Nat.add_mod_right]

private theorem pskIdentityHashes_length (data : Option Bytes) : (pskIdentityHashes data).length % 32 = 0 := by
  unfold pskIdentityHashes
  cases data with
  | none => rfl
  | some data => exact identityHashesLoop_length _ _ _

private theorem retryFingerprint_eq_ok {requested : Bool} {fingerprint : Bytes} :
    retryFingerprint hello requested = .ok fingerprint ↔
      ∃ wire, ({ hello with extensions := hello.extensions.filter (fingerprinted requested) }).marshal = .ok wire ∧
        Digests.sum .sha256 wire = fingerprint := by
  unfold retryFingerprint
  split <;> simp [*]

/-- What is recorded of a first hello. -/
theorem chooseFields_eq_ok {m : HandshakeMessage} :
    chooseFields config m hello offer now = .ok f ↔ 0 ≤ now.unix ∧
      (config.cipherSuites.find? fun id => hello.suites.contains id).getD 0 = f.suite ∧ f.suite ≠ 0 ∧
      (config.curvePreferences.find? fun id => offer.groups.contains id).getD 0 = f.group ∧ f.group ≠ 0 ∧
      (∃ suite first, suiteFor f.suite = .ok suite ∧ m.transcript = .ok first ∧
        f.firstHash = Digests.sum (CipherSuite.hash suite) first) ∧
      f.requested = (offer.shares.lookup f.group).isNone ∧
      retryFingerprint hello f.requested = .ok f.fingerprint ∧ f.issued = now.unix.toNat ∧
      f.identities = pskIdentityHashes (hello.extensions.lookup extPreSharedKey) := by
  unfold chooseFields
  simp only [Except.ite_throw_bind_eq_ok, Except.bind_eq_ok, Except.pure_eq_ok, not_or, not_lt]
  constructor
  · rintro ⟨clock, ⟨suite, group⟩, found, known, first, hashed, fingerprint, unchanged, rfl⟩
    exact ⟨clock, rfl, suite, rfl, group, ⟨found, first, known, hashed, rfl⟩, rfl, unchanged, rfl, rfl⟩
  · rintro ⟨clock, suite, suiteSet, group, groupSet, ⟨found, first, known, hashed, firstHash⟩, requested,
      unchanged, issued, identities⟩
    refine ⟨clock, ⟨suite ▸ suiteSet, group ▸ groupSet⟩, found, suite ▸ known, first, hashed, f.fingerprint, ?_, ?_⟩
    · rw [group, ← requested]
      exact unchanged
    · cases f
      simp_all

/-- What is read of a cookie is what was recorded in it. -/
theorem decode_chosen {m : HandshakeMessage} (chosen : chooseFields config m hello offer now = .ok f)
    (encoded : f.encode = .ok data) : CookieFields.decode data = .ok f := by
  obtain ⟨clock, -, -, -, -, -, -, unchanged, issued, identities⟩ := chooseFields_eq_ok.mp chosen
  obtain ⟨wire, -, hashed⟩ := retryFingerprint_eq_ok.mp unchanged
  refine CookieFields.decode_encode encoded ?_ ?_ ?_
  · have bound := now.representable
    unfold Instant.unix at issued clock
    omega
  · rw [← hashed, Digests.sum_length]
    rfl
  · rw [identities]
    exact pskIdentityHashes_length _

variable [AddressText]

namespace CookieSecrets

theorem sealCookie_eq_ok : s.sealCookie peer f = .ok cookie ↔
      ∃ data, f.encode = .ok data ∧ data ++ cookieMAC s.current peer data = cookie := by
  unfold sealCookie
  split <;> simp [*]

theorem openCookie_eq_ok : s.openCookie peer cookie now = .ok f ↔ 0 ≤ now.unix ∧ 32 ≤ cookie.length ∧
      s.validMAC peer (cookie.take (cookie.length - 32)) (cookie.drop (cookie.length - 32)) = true ∧
      CookieFields.decode (cookie.take (cookie.length - 32)) = .ok f ∧ f.current now = true := by
  unfold openCookie
  rw [Except.ite_error_eq_ok, Except.ite_error_eq_ok]
  cases decoded : CookieFields.decode (cookie.take (cookie.length - 32)) with
  | error e => simp
  | ok fields =>
    simp only [not_or, not_lt, Bool.not_eq_false, and_assoc, Except.ok.injEq]
    refine and_congr_right fun _ => and_congr_right fun _ => and_congr_right fun _ => ?_
    cases young : fields.current now <;> simp
    · rintro rfl
      exact young
    · rintro rfl
      exact young

theorem verify_eq_ok [CertificateService] [NameService] {aes : Bool} {message : HandshakeMessage}
    {draw : Draw} {h : ServerHandshake} :
    s.verify config aes peer message now draw = .ok h ↔ ∃ hello offer fields,
      parseSecondHello message = .ok (hello, offer) ∧ s.openCookie peer offer.cookie now = .ok fields ∧
      fields.matched config hello offer = true ∧ resume config aes draw message offer fields = .ok h := by
  unfold verify
  simp only [Except.bind_eq_ok, Except.ite_throw_bind_eq_ok, Bool.not_eq_false, Prod.exists]
  constructor
  · rintro ⟨hello, offer, parsed, fields, opened, matched, resumed⟩
    exact ⟨hello, offer, fields, parsed, opened, matched, resumed⟩
  · rintro ⟨hello, offer, fields, parsed, opened, matched, resumed⟩
    exact ⟨hello, offer, parsed, fields, opened, matched, resumed⟩

end CookieSecrets

/-- A MAC takes the last 32 bytes of a cookie. -/
theorem cookie_split (data key : Bytes) (peer : AddrPort) :
    (data ++ cookieMAC key peer data).take ((data ++ cookieMAC key peer data).length - 32) = data ∧
      (data ++ cookieMAC key peer data).drop ((data ++ cookieMAC key peer data).length - 32) =
        cookieMAC key peer data := by
  have size : (cookieMAC key peer data).length = 32 := Digests.hmac_length _ _ _
  have here : (data ++ cookieMAC key peer data).length - 32 = data.length := by
    rw [length_append, size, Nat.add_sub_cancel]
  rw [here]
  exact ⟨take_left, drop_left⟩

omit [Digests] in
/-- The address can be read off the input of a MAC. -/
theorem cookieInput_peer {peer' : AddrPort} (same : cookieInput peer data = cookieInput peer' data) :
    peer = peer' := by
  unfold cookieInput at same
  simp only [append_assoc, append_cancel_left_eq] at same
  exact AddressText.text_injective (append_cancel_right same)

end

end Negotiation

end Socat.Dtls13
