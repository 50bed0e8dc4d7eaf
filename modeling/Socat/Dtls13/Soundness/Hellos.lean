import Socat.Dtls13.Negotiation.Codec
import Socat.Dtls13.Negotiation.Transparent

/-! # The codec of hellos

What `marshal` writes is read back as it was. A byte string that a parser accepts need not be what `marshal`
writes, since extensions come in any order, but writing the result again succeeds and gives back the same
value. So the bytes a retry is bound to determine every field of the hello that enters them.
-/

namespace Socat.Dtls13.Negotiation

/-! ## Extensions -/

private theorem finished_eq_ok {α : Type} {r : WireReader} {value result : α} :
    finished r value = .ok result ↔ r.failed = false ∧ r.data = [] ∧ value = result := by
  unfold finished WireReader.done
  cases r.failed <;> cases r.data <;> simp

/-- The parser takes its input apart into extensions and gathers them. -/
theorem parseExtensionsLoop_eq_ok {messageType : UInt8} {fuel : ℕ} {r : WireReader} {out e : Extensions}
    (parsed : parseExtensionsLoop messageType fuel r out = .ok e) :
    r.failed = false ∧ ∃ entries : List (U16 × Bytes), r.data = entries.flatMap extensionBytes ∧
      (∀ entry ∈ entries, entry.2.length ≤ 65535) ∧ e.entries.Perm (entries ++ out.entries) := by
  induction fuel generalizing r out with
  | zero =>
    obtain ⟨sound, ended, rfl⟩ := finished_eq_ok.mp parsed
    exact ⟨sound, [], ended, by simp, .refl _⟩
  | succ fuel ih =>
    rw [parseExtensionsLoop] at parsed
    split at parsed
    · obtain ⟨sound, ended, rfl⟩ := finished_eq_ok.mp parsed
      exact ⟨sound, [], ended, by simp, .refl _⟩
    · simp only [Except.ite_error_eq_ok] at parsed
      obtain ⟨new, -, rest⟩ := parsed
      obtain ⟨sound, entries, later, bounded, perm⟩ := ih rest
      obtain ⟨between, body⟩ := WireReader.vector16_of_not_failed sound
      obtain ⟨begun, code⟩ := WireReader.readCode_of_not_failed between
      refine ⟨begun, (r.readCode.1, r.readCode.2.vector16.1) :: entries, ?_,
        List.forall_mem_cons.mpr ⟨WireReader.vector16_length_le _, bounded⟩, ?_⟩
      · rw [List.flatMap_cons, ← later, code, body]
        simp [extensionBytes]
      · have added := OrderedMap.insert_perm r.readCode.2.vector16.1 (Option.not_isSome_iff_eq_none.mp new)
        exact perm.trans ((added.append_left entries).trans List.perm_middle)

variable {data : Bytes} {groupRequested : Bool}

/-- Extensions that were read are written in as many bytes. -/
theorem marshal_of_parseExtensions {messageType : UInt8} {e : Extensions} (bound : data.length ≤ 65535)
    (parsed : parseExtensions data messageType = .ok e) :
    ∃ bytes, Extensions.marshal e = .ok bytes ∧ bytes.length = data.length := by
  obtain ⟨-, entries, whole, bounded, perm⟩ := parseExtensionsLoop_eq_ok parsed
  replace perm : e.entries.Perm entries := (List.append_nil entries) ▸ perm
  have length : ((Extensions.written e).flatMap extensionBytes).length = data.length := by
    refine (((written_perm e).trans perm).flatMap_right extensionBytes).length_eq.trans ?_
    exact congrArg List.length whole.symm
  refine ⟨_, marshal_extensions_eq_ok.mpr ⟨?_, length.trans_le bound, rfl⟩, length⟩
  intro entry listed
  exact bounded entry (perm.mem_iff.mp listed)

/-! ## Hellos -/

private theorem codes_length (data : Bytes) : (codes data).length = data.length / 2 := by
  fun_induction codes data with
  | case1 high low rest ih =>
    simp only [List.length_cons, ih]
    omega
  | case2 short single =>
    have few : short.length < 2 := by
      match short, single with
      | [], _ => exact Nat.zero_lt_two
      | [_], _ => exact Nat.one_lt_two
      | high :: low :: rest, single => exact (single high low rest rfl).elim
    exact (Nat.div_eq_of_lt few).symm

private theorem marshal_of_parseClientHello {h : ClientHello} (parsed : parseClientHello data = .ok h) :
    ∃ body, h.marshal = .ok body := by
  unfold parseClientHello at parsed
  simp only [Except.ite_error_eq_ok, not_or, not_lt] at parsed
  obtain ⟨⟨-, session, some, -, long⟩, -, -, parsed⟩ := parsed
  split at parsed
  · cases parsed
  · rename_i extensions accepted
    cases parsed
    obtain ⟨ext, marshalled, length⟩ := marshal_of_parseExtensions (WireReader.vector16_length_le _) accepted
    refine ⟨_, ClientHello.marshal_eq_ok.mpr ⟨session, ?_, ?_, ext, marshalled, length ▸ long, rfl⟩⟩
    · rw [← List.length_pos_iff, codes_length]
      exact Nat.div_pos some Nat.zero_lt_two
    · rw [codes_length]
      exact Nat.div_le_div_right (WireReader.vector16_length_le _)

private theorem marshal_of_parseServerHello {h : ServerHello} (parsed : parseServerHello data = .ok h) :
    ∃ body, h.marshal = .ok body := by
  unfold parseServerHello at parsed
  simp only [Except.ite_error_eq_ok, not_or, not_lt] at parsed
  obtain ⟨⟨-, session⟩, -, -, parsed⟩ := parsed
  split at parsed
  · cases parsed
  · rename_i extensions accepted
    cases parsed
    obtain ⟨ext, marshalled, -⟩ := marshal_of_parseExtensions (WireReader.vector16_length_le _) accepted
    exact ⟨_, ServerHello.marshal_eq_ok.mpr ⟨session, ext, marshalled, rfl⟩⟩

/-! ## What a retry is bound to -/

/-- The hello without the extensions that may change. -/
def ClientHello.bound (groupRequested : Bool) (h : ClientHello) : ClientHello :=
  { h with extensions := h.extensions.filter (fingerprinted groupRequested) }

/-- The bytes `retryFingerprint` hashes. -/
def retryWire (hello : ClientHello) (groupRequested : Bool) : Except Err Bytes := (hello.bound groupRequested).marshal

/-- The extensions that may change between the hellos. -/
def unbound (groupRequested : Bool) : List U16 :=
  [extCookie, extPadding, extPreSharedKey, extEarlyData] ++ if groupRequested then [extKeyShare] else []

/-- Two hellos agree on what must not change. -/
def ClientHello.Agrees (groupRequested : Bool) (a b : ClientHello) : Prop :=
  a.random = b.random ∧ a.sessionID = b.sessionID ∧ a.suites = b.suites ∧
    ∀ id ∉ unbound groupRequested, a.extensions.lookup id = b.extensions.lookup id

private theorem retryFingerprint_eq_map [Digests] (hello : ClientHello) (groupRequested : Bool) :
    retryFingerprint hello groupRequested = (retryWire hello groupRequested).map (Digests.sum .sha256) := by
  unfold retryFingerprint retryWire ClientHello.bound
  generalize ClientHello.marshal _ = result
  cases result <;> rfl

private theorem fingerprinted_iff {id : U16} : fingerprinted groupRequested id = true ↔
    id ∉ unbound groupRequested := by
  cases groupRequested <;> simp [fingerprinted, unbound, and_assoc]

private theorem bound_eq_iff {a b : ClientHello} :
    a.bound groupRequested = b.bound groupRequested ↔ a.Agrees groupRequested b := by
  have extensions :
      a.extensions.filter (fingerprinted groupRequested) = b.extensions.filter (fingerprinted groupRequested) ↔
        ∀ id ∉ unbound groupRequested, a.extensions.lookup id = b.extensions.lookup id := by
    constructor
    · intro same id stays
      have found := congrArg (OrderedMap.lookup · id) same
      simpa [fingerprinted_iff.mpr stays] using found
    · intro same
      ext1 id
      rw [OrderedMap.lookup_filter, OrderedMap.lookup_filter]
      split
      · rename_i stays
        exact same id (fingerprinted_iff.mp stays)
      · rfl
  unfold ClientHello.bound ClientHello.Agrees
  rw [ClientHello.mk.injEq, extensions]

/-- The bytes of two hellos are the same exactly if the hellos agree on what must not change. -/
theorem retryWire_inj {a b : ClientHello} {wire wire' : Bytes}
    (first : retryWire a groupRequested = .ok wire) (second : retryWire b groupRequested = .ok wire') :
    wire = wire' ↔ a.Agrees groupRequested b := by
  rw [← bound_eq_iff]
  constructor
  · rintro rfl
    have read := (parseClientHello_marshal first).symm.trans (parseClientHello_marshal second)
    exact Except.ok.inj read
  · intro same
    unfold retryWire at first second
    rw [same, second] at first
    exact (Except.ok.inj first).symm

/-- The codec of hellos is a round trip in both directions, and the input of a fingerprint determines what
it is taken of. -/
theorem hello_codec [Digests] :
    (∀ (h : ClientHello) body, h.marshal = .ok body → parseClientHello body = .ok h) ∧
    (∀ (h : ServerHello) body, h.marshal = .ok body → parseServerHello body = .ok h) ∧
    (∀ data h, parseClientHello data = .ok h → ∃ body, h.marshal = .ok body ∧ parseClientHello body = .ok h) ∧
    (∀ data h, parseServerHello data = .ok h → ∃ body, h.marshal = .ok body ∧ parseServerHello body = .ok h) ∧
    (∀ hello groupRequested,
      retryFingerprint hello groupRequested = (retryWire hello groupRequested).map (Digests.sum .sha256)) ∧
    ∀ groupRequested a b wire wire', retryWire a groupRequested = .ok wire → retryWire b groupRequested = .ok wire' →
      (wire = wire' ↔ a.Agrees groupRequested b) := by
  refine ⟨fun _ _ => parseClientHello_marshal, fun _ _ => parseServerHello_marshal, fun data h parsed => ?_,
    fun data h parsed => ?_, retryFingerprint_eq_map, fun _ _ _ _ _ => retryWire_inj⟩
  · obtain ⟨body, written⟩ := marshal_of_parseClientHello parsed
    exact ⟨body, written, parseClientHello_marshal written⟩
  · obtain ⟨body, written⟩ := marshal_of_parseServerHello parsed
    exact ⟨body, written, parseServerHello_marshal written⟩

/-- A hello and its repetition with a cookie and another key share. -/
def sampleHellos : ClientHello × ClientHello :=
  let first : ClientHello :=
    ⟨retryRandom, [], [0x1301], (∅ : Extensions).insert extSupportedVersions [2, 0xfe, 0xfc, 0]⟩
  (first, { first with extensions := (first.extensions.insert extCookie [7]).insert extKeyShare [9] })

open scoped Transparent in
theorem hello_codec_retry :
    ∃ wire, retryWire sampleHellos.1 true = .ok wire ∧ retryWire sampleHellos.2 true = .ok wire := by
  obtain ⟨wire, first⟩ : ∃ wire, retryWire sampleHellos.1 true = .ok wire := ⟨_, rfl⟩
  obtain ⟨wire', second⟩ : ∃ wire, retryWire sampleHellos.2 true = .ok wire := ⟨_, rfl⟩
  have agree : sampleHellos.1.Agrees true sampleHellos.2 := by
    refine ⟨rfl, rfl, rfl, fun id stays => ?_⟩
    have notCookie : id ≠ extCookie := fun same => stays (same ▸ by decide)
    have notShare : id ≠ extKeyShare := fun same => stays (same ▸ by decide)
    simp [sampleHellos, notCookie, notShare]
  have same := (hello_codec.2.2.2.2.2 true _ _ wire wire' first second).mpr agree
  exact ⟨wire, first, same ▸ second⟩

end Socat.Dtls13.Negotiation
