import Socat.Dtls13.Negotiation.Codec
import Socat.Dtls13.Negotiation.Transparent
import Socat.Machine.Returns

/-! # A retry keeps no state

What a server chose for a first ClientHello comes back to it in the second: in the cookie it gets its suite,
its group and the hash of the first hello, and it rebuilds the HelloRetryRequest it sent byte for byte. The
client's second hello differs from the first in the cookie and, if another group was asked for, in the key
share, so it passes every check against the cookie, and both sides hash the same hellos.
-/

namespace Socat.Dtls13.Negotiation

open Machine List OrderedMap

/-! ## Configurations -/

theorem Config.withDefaults_withDefaults (c : Config) (aes : Bool) :
    (c.withDefaults aes).withDefaults aes = c.withDefaults aes := by
  have suites : defaultCipherSuites aes ≠ [] := by cases aes <;> simp [defaultCipherSuites]
  have groups : defaultGroups ≠ [] := by decide
  have filled : ∀ n d : ℤ, d ≠ 0 → (if (if n = 0 then d else n) = 0 then d else if n = 0 then d else n) =
      if n = 0 then d else n := by
    intro n d positive
    by_cases zero : n = 0 <;> simp [zero, positive]
  simp only [Config.withDefaults, Config.mk.injEq, true_and]
  refine ⟨?_, ?_, filled _ _ (by decide), ?_, filled _ _ (by decide), filled _ _ (by decide)⟩
  · split <;> simp [*]
  · split <;> simp [*]
  · by_cases fixed : c.disableMigration = true
    · simp only [fixed, if_true]
    · simp only [if_neg fixed]
      exact filled _ _ (by decide)

variable {aes requested : Bool} {config : Config} {id : U16} {body cookie : Bytes}
  {first m : HandshakeMessage} {c c' : ClientHandshake} {fields : CookieFields}

/-- A prepared configuration stays as it is. -/
theorem prepareConfig_prepared [CertificateService] {c prepared : Config} {server : Bool}
    (first : prepareConfig c server aes = .ok prepared) : prepareConfig prepared server aes = .ok prepared := by
  unfold prepareConfig at first
  simp only [Except.ite_throw_bind_eq_ok, Except.bind_eq_ok, Except.pure_eq_ok] at first
  obtain ⟨mtu, cid, handshake, read, connections, suites, knownSuites, groups, knownGroups, protocols, offered, name,
    certified, certificates, valid, rfl⟩ := first
  unfold prepareConfig
  simp only [Except.ite_throw_bind_eq_ok, Except.bind_eq_ok, Except.pure_eq_ok, Config.withDefaults_withDefaults]
  refine ⟨mtu, ?_, handshake, read, connections, suites, knownSuites, groups, knownGroups, protocols, offered, name,
    certified, certificates, valid, trivial⟩
  show ¬((c.withDefaults aes).connectionIDLength < 1 ∧ _ ∨ _)
  have length : (c.withDefaults aes).connectionIDLength =
    if c.disableMigration then 0 else if c.connectionIDLength = 0 then 8 else c.connectionIDLength := rfl
  rw [length]
  split_ifs <;> omega

/-- Both sides start without a schedule. -/
theorem preparedHandshakeState_fresh {prepared : Config} {client : Bool} {draw : Draw} {h : HandshakeState}
    (made : preparedHandshakeState prepared client draw = .ok h) :
    h.sequence = 0 ∧ h.schedule = none ∧ h.complete = false ∧ h.client = client := by
  unfold preparedHandshakeState at made
  simp only at made
  split at made
  · cases made
    exact ⟨rfl, rfl, rfl, rfl⟩
  · split at made
    · cases made
    · cases made
      exact ⟨rfl, rfl, rfl, rfl⟩

theorem newHandshakeState_fresh [CertificateService] {client : Bool} {draw : Draw} {h : HandshakeState}
    (made : newHandshakeState config client aes draw = .ok h) :
    h.sequence = 0 ∧ h.schedule = none ∧ h.complete = false ∧ h.client = client := by
  unfold newHandshakeState at made
  split at made
  · cases made
  · exact preparedHandshakeState_fresh made

/-- With random numbers at hand a prepared configuration is enough for a state. -/
theorem newHandshakeState_prepared [CertificateService] {c : Config} {client : Bool}
    (prepared : prepareConfig c (!client) aes = .ok config) (stream : ℕ → UInt8) :
    ∃ h, newHandshakeState config client aes (some stream) = .ok h := by
  unfold newHandshakeState
  rw [prepareConfig_prepared prepared]
  simp only [preparedHandshakeState, Draw.read]
  split
  · exact ⟨_, rfl⟩
  · exact ⟨_, rfl⟩

/-! ## The client -/

namespace ClientHandshake

/-- A client that sent its first hello and waits for the answer. -/
structure Opening (client : ClientHandshake) (first : HandshakeMessage) : Prop where
  isClient : client.client = true
  incomplete : client.complete = false
  phase : client.phase = .serverHello
  fresh : client.retried = false
  unscheduled : client.schedule = none
  sequence : client.sequence = 1
  body : client.hello.marshal = .ok first.body
  firstHello : first.transcript = .ok client.firstHello
  noEarlyData : client.hello.extensions.lookup extEarlyData = none

private theorem addServerName_other [NameService] {ext named : Extensions}
    (added : addServerName config ext = .ok named) (other : id ≠ extServerName) :
    named.lookup id = ext.lookup id := by
  simp only [addServerName] at added
  split at added
  · split at added
    · cases added
    · cases added
      rw [lookup_insert, if_neg other]
  · cases added
    rfl

private theorem addProtocols_other {ext offered : Extensions} (added : addProtocols config ext = .ok offered)
    (other : id ≠ extALPN) : offered.lookup id = ext.lookup id := by
  unfold addProtocols at added
  split at added
  · split at added
    · cases added
    · cases added
      rw [lookup_insert, if_neg other]
  · cases added
    rfl

private theorem initialExtensions_earlyData [NameService] {localCID : Bytes} {ext : Extensions}
    (made : initialExtensions config localCID = .ok ext) : ext.lookup extEarlyData = none := by
  unfold initialExtensions at made
  simp only [Except.bind_eq_ok, Except.pure_eq_ok] at made
  obtain ⟨groups, -, signatures, -, named, name, offered, protocols, rfl⟩ := made
  have before : offered.lookup extEarlyData = none := by
    rw [addProtocols_other protocols (by decide), addServerName_other name (by decide)]
    simp [extEarlyData, extSupportedVersions, extSupportedGroups, extKeyShare, extSignatureAlgorithms]
  unfold addConnectionID
  split
  · rw [lookup_insert, if_neg (by decide), lookup_insert, if_neg (by decide)]
    exact before
  · exact before

/-- Only the key shares are still open when the hello is fitted. -/
theorem fitInitialClientHello_eq_ok [KeyExchange] {hello fitted : ClientHello} {seed : U16 → Option Bytes}
    {shares : OrderedMap U16 KeyShare} (made : fitInitialClientHello config hello seed = .ok (fitted, shares, body)) :
    fitted.marshal = .ok body ∧
      ∀ id, id ≠ extKeyShare → fitted.extensions.lookup id = hello.extensions.lookup id := by
  unfold fitInitialClientHello at made
  simp only [Except.bind_eq_ok] at made
  obtain ⟨empty, marshalled, extra, -, rest⟩ := made
  split at rest
  · cases rest
    exact ⟨marshalled, fun _ _ => rfl⟩
  · simp only [Except.bind_eq_ok] at rest
    obtain ⟨⟨shares, list⟩, -, body, marshalled, same⟩ := rest
    cases same
    refine ⟨marshalled, fun id other => ?_⟩
    rw [lookup_insert, if_neg other]

theorem newClientHandshake_opening [NameService] [CertificateService] [KeyExchange] {cid : Draw}
    {outside : Outside} {client : ClientHandshake}
    (made : newClientHandshake config aes cid outside = .ok (client, first)) : client.Opening first := by
  unfold newClientHandshake at made
  simp only [Except.bind_eq_ok] at made
  obtain ⟨state, fresh, random, -, ext, extended, ⟨hello, shares, body⟩, fitted, firstHello, hashed, same⟩ := made
  obtain ⟨sequence, schedule, incomplete, isClient⟩ := newHandshakeState_fresh fresh
  obtain ⟨marshalled, others⟩ := fitInitialClientHello_eq_ok fitted
  cases same
  exact {
    isClient
    incomplete
    phase := rfl
    fresh := rfl
    unscheduled := schedule
    sequence := congrArg (· + 1) sequence
    body := marshalled
    firstHello := hashed
    noEarlyData := (others extEarlyData (by decide)).trans (initialExtensions_earlyData extended) }

private theorem shared_returns {α : Type} {x : HandshakeM α} {a : α} :
    shared x c = .ok a c' ↔ ∃ h, x c.toHandshakeState = .ok a h ∧ { c with toHandshakeState := h } = c' := by
  unfold shared
  cases x c.toHandshakeState with
  | ok value h =>
    constructor
    · rintro ⟨⟩
      exact ⟨h, rfl, rfl⟩
    · rintro ⟨_, ⟨⟩, rfl⟩
      rfl
  | error e h => simp

/-- Before there is a schedule a message is only numbered. -/
theorem shared_message_returns [Digests] {typ : UInt8} {epoch : ℕ} (unscheduled : c.schedule = none)
    (run : shared (HandshakeState.message typ epoch body) c = .ok m c') :
    m = ⟨typ, c.sequence, epoch, body⟩ ∧ c' = { c with sequence := c.sequence + 1 } := by
  obtain ⟨h, inner, rfl⟩ := shared_returns.mp run
  simp only [HandshakeState.message, bind_returns, get_returns, throwIf_returns, runIf_returns, modify_returns,
    pure_returns] at inner
  obtain ⟨_, _, ⟨rfl, rfl⟩, _, _, ⟨-, rfl⟩, _, _, written, _, _, rfl, rfl, rfl⟩ := inner
  rcases written with ⟨⟨scheduled, -⟩, -⟩ | ⟨-, rfl⟩
  · rw [unscheduled] at scheduled
    contradiction
  · exact ⟨rfl, rfl⟩

private theorem takeCookie_returns {ext : Extensions} {data : Bytes} {echoed : Bool}
    (present : ext.lookup extCookie = some data) (run : takeCookie ext c = .ok echoed c') :
    (∃ value, parseCookie data = .ok value) ∧
      c' = { c with hello.extensions := c.hello.extensions.insert extCookie data } := by
  simp only [takeCookie, present, bind_returns, lift_returns, modify_returns, pure_returns] at run
  obtain ⟨value, _, ⟨parsed, rfl⟩, _, _, rfl, -, rfl⟩ := run
  exact ⟨⟨value, parsed⟩, rfl⟩

private theorem generateShare_known {seed : Option Bytes} {key : KeyShare}
    (generated : generateShare id seed = .ok key) : key.group ∈ keyExchangeGroups := by
  unfold generateShare groupFor at generated
  split at generated
  · cases generated
  · cases generated
  · rename_i group seed found
    split at found
    · rename_i group' listed
      cases found
      cases generated
      exact mem_of_find?_eq_some listed
    · cases found

section

variable [KeyExchange]

private theorem takeGroup_absent {outside : Outside} {ext : Extensions} (absent : ext.lookup extKeyShare = none)
    (run : takeGroup outside ext c = .ok requested c') : c' = c := by
  simp only [takeGroup, absent, pure_returns] at run
  exact run.2.symm

private theorem takeGroup_returns {outside : Outside} {ext : Extensions} {data : Bytes}
    (present : ext.lookup extKeyShare = some data) (run : takeGroup outside ext c = .ok requested c') :
    ∃ groups key share, parseList16 ((c.hello.extensions.lookup extSupportedGroups).getD []) = .ok groups ∧
      Fin.ofNat 65536 (readNat data) ∈ groups ∧ key.group ∈ keyExchangeGroups ∧
      encodeKeyShare (Fin.ofNat 65536 (readNat data)) (KeyShare.share key) = .ok share ∧
      c' = { c with
        hello.extensions := c.hello.extensions.insert extKeyShare (({} : WireWriter).vector16 share).data
        shares := (∅ : OrderedMap U16 KeyShare).insert (Fin.ofNat 65536 (readNat data)) key } := by
  simp only [takeGroup, present, bind_returns, get_returns, throwIf_returns, lift_returns, set_returns, pure_returns]
    at run
  obtain ⟨_, _, ⟨-, rfl⟩, _, _, ⟨rfl, rfl⟩, _, _, ⟨-, rfl⟩, groups, _, ⟨parsed, rfl⟩, _, _, ⟨named, rfl⟩, key, _,
    ⟨generated, rfl⟩, share, _, ⟨encoded, rfl⟩, _, _, rfl, -, rfl⟩ := run
  exact ⟨groups, key, share, parsed, not_not.mp named, generateShare_known generated, encoded, rfl⟩

end

/-- What a client does with a HelloRetryRequest for a group, if `requested`, and with a cookie. -/
structure Answered [KeyExchange] (client : ClientHandshake) (retry : HandshakeMessage) (suite group : U16)
    (requested : Bool) (cookie : Bytes) (second : HandshakeMessage) (client' : ClientHandshake) : Prop where
  retried : client'.retried = true
  retrySuite : client'.retrySuite = suite
  firstHello : client'.firstHello = client.firstHello
  retryHello : retry.transcript = .ok client'.retryHello
  body : client'.hello.marshal = .ok second.body
  message : second = ⟨msgClientHello, client.sequence, 0, second.body⟩
  hello : client'.hello = { client.hello with extensions := client'.hello.extensions }
  others : ∀ id, id ≠ extCookie → id ≠ extKeyShare →
    client'.hello.extensions.lookup id = client.hello.extensions.lookup id
  echoes : client'.hello.extensions.lookup extCookie = some (({} : WireWriter).vector16 cookie).data
  readable : ∃ value, parseCookie (({} : WireWriter).vector16 cookie).data = .ok value
  kept : requested = false →
    client'.hello.extensions.lookup extKeyShare = client.hello.extensions.lookup extKeyShare
  share : requested = true → ∃ groups key share,
    parseList16 ((client.hello.extensions.lookup extSupportedGroups).getD []) = .ok groups ∧ group ∈ groups ∧
    key.group ∈ keyExchangeGroups ∧ encodeKeyShare group (KeyShare.share key) = .ok share ∧
    client'.hello.extensions.lookup extKeyShare = some (({} : WireWriter).vector16 share).data

private theorem lookup_retryExtensions (group : U16) (requested : Bool) (cookie : Bytes) :
    (retryExtensions group requested cookie).lookup extCookie = some (({} : WireWriter).vector16 cookie).data ∧
    (retryExtensions group requested cookie).lookup extKeyShare = if requested then some (be16 group) else none := by
  cases requested <;>
    simp [retryExtensions, extCookie, extKeyShare, extSupportedVersions, WireWriter.writeUint16]

/-- The extensions of the second hello. -/
theorem retryRequest_extensions [KeyExchange] {c₁ c₂ : ClientHandshake} {outside : Outside} {group : U16}
    {echoed asked : Bool} (first : takeCookie (retryExtensions group requested cookie) c = .ok echoed c₁)
    (second : takeGroup outside (retryExtensions group requested cookie) c₁ = .ok asked c₂) :
    (∃ value, parseCookie (({} : WireWriter).vector16 cookie).data = .ok value) ∧
    ∃ ext shares, c₂ = { c with hello.extensions := ext, shares } ∧
      (∀ id, id ≠ extCookie → id ≠ extKeyShare → ext.lookup id = c.hello.extensions.lookup id) ∧
      ext.lookup extCookie = some (({} : WireWriter).vector16 cookie).data ∧
      (requested = false → ext.lookup extKeyShare = c.hello.extensions.lookup extKeyShare) ∧
      (requested = true → ∃ groups key share,
        parseList16 ((c.hello.extensions.lookup extSupportedGroups).getD []) = .ok groups ∧ group ∈ groups ∧
        key.group ∈ keyExchangeGroups ∧ encodeKeyShare group (KeyShare.share key) = .ok share ∧
        ext.lookup extKeyShare = some (({} : WireWriter).vector16 share).data) := by
  obtain ⟨echo, request⟩ := lookup_retryExtensions group requested cookie
  obtain ⟨readable, rfl⟩ := takeCookie_returns echo first
  refine ⟨readable, ?_⟩
  cases requested with
  | false =>
    cases takeGroup_absent request second
    refine ⟨_, _, rfl, fun id other _ => ?_, ?_, fun _ => ?_, fun impossible => ?_⟩
    · rw [lookup_insert, if_neg other]
    · rw [lookup_insert, if_pos rfl]
    · rw [lookup_insert, if_neg (by decide)]
    · contradiction
  | true =>
    obtain ⟨groups, key, share, parsed, named, known, encoded, rfl⟩ := takeGroup_returns request second
    have code : Fin.ofNat 65536 (readNat (be16 group)) = group := by
      rw [readNat_be16 group.isLt, Fin.ofNat_val_eq_self]
    simp only [code] at named encoded
    rw [lookup_insert, if_neg (by decide)] at parsed
    refine ⟨_, _, rfl, fun id other other' => ?_, ?_, fun impossible => ?_, fun _ => ?_⟩
    · rw [lookup_insert, if_neg other', lookup_insert, if_neg other]
    · rw [lookup_insert, if_neg (by decide), lookup_insert, if_pos rfl]
    · contradiction
    · refine ⟨groups, key, share, parsed, named, known, encoded, ?_⟩
      rw [lookup_insert, if_pos rfl]

variable [CertificateService] [KeyExchange] [Digests]

/-- A client that accepts a HelloRetryRequest answers with its second hello. -/
theorem Opening.answers {client client' : ClientHandshake} {retry : HandshakeMessage} {outside : Outside}
    {flight : List HandshakeMessage} {suite group : U16} (opening : client.Opening first)
    (body : retryHelloBody suite group requested cookie = .ok retry.body)
    (run : client.handle outside retry = .ok flight client') :
    ∃ second, flight = [second] ∧ client.Answered retry suite group requested cookie second client' := by
  have parsed := parseServerHello_marshal body
  unfold handle at run
  simp only [bind_returns, get_returns, throwIf_returns] at run
  obtain ⟨_, _, ⟨rfl, rfl⟩, _, _, ⟨-, rfl⟩, run⟩ := run
  simp only [opening.phase, takeServerHello, serverHello, bind_returns, get_returns, throwIf_returns,
    lift_returns] at run
  obtain ⟨_, _, ⟨-, rfl⟩, request, _, ⟨read, rfl⟩, _, _, ⟨rfl, rfl⟩, _, _, ⟨checked, rfl⟩, run⟩ := run
  cases Except.ok.inj (read.symm.trans parsed)
  rw [if_pos (by rfl)] at run
  simp only [retryRequest, bind_returns, get_returns, throwIf_returns, lift_returns, modify_returns,
    pure_returns] at run
  obtain ⟨_, _, ⟨rfl, rfl⟩, _, _, ⟨-, rfl⟩, _, _, ⟨-, rfl⟩, echoed, c₁, echo, asked, c₂, ask, _, _, ⟨-, rfl⟩, _, _, rfl,
    retryHello, _, ⟨hashed, rfl⟩, _, _, rfl, _, _, ⟨rfl, rfl⟩, body₂, _, ⟨marshalled, rfl⟩, second, _, numbered, rfl,
    rfl⟩ := run
  obtain ⟨readable, ext, shares, rfl, others, echoes, kept, share⟩ := retryRequest_extensions echo ask
  obtain ⟨rfl, rfl⟩ := shared_message_returns (by exact opening.unscheduled) numbered
  exact ⟨_, rfl, {
    retried := rfl
    retrySuite := rfl
    firstHello := rfl
    retryHello := hashed
    body := marshalled
    message := rfl
    hello := rfl
    others, echoes, readable, kept, share }⟩

end ClientHandshake

/-! ## The second hello at the server -/

/-- No key share is too long for its field. -/
private theorem encodeKeyShare_length [KeyExchange] {group : U16} {key : KeyShare} {share : Bytes}
    (known : key.group ∈ keyExchangeGroups) (encoded : encodeKeyShare group key.share = .ok share) :
    share.length ≤ 65535 := by
  have sizes : ∀ g ∈ keyExchangeGroups, g.shareSize .fromClient ≤ 2000 := by decide
  have size : key.share.length ≤ 2000 := by
    rw [KeyShare.share, KeyExchange.generate_length]
    exact sizes _ known
  unfold encodeKeyShare at encoded
  rw [Except.ite_error_eq_ok, WireWriter.result_eq_ok] at encoded
  obtain ⟨-, -, rfl⟩ := encoded
  rw [WireWriter.vector16_data (by omega)]
  simp only [WireWriter.writeUint16_data, length_append, be16_length, length_nil]
  omega

namespace ClientHandshake.Answered

variable [KeyExchange] {client client' : ClientHandshake} {retry second : HandshakeMessage} {suite group : U16}
  {requested : Bool} {cookie : Bytes}

/-- The second hello makes the offer of the first, with the cookie and the key share asked for. -/
private theorem offer [NameService] (answered : client.Answered retry suite group requested cookie second client')
    {offer : ClientOffer} (offered : parseClientOffer client.hello = .ok offer) :
    ∃ shares, parseClientOffer client'.hello = .ok { offer with shares, cookie } ∧
      (requested = false → shares = offer.shares) ∧
      (requested = true → ∃ share, shares = (∅ : OrderedMap U16 Bytes).insert group share) := by
  obtain ⟨present, versions, grouped, signed, shared, named, spoken, identified, cid, checked, -, keys, early⟩ :=
    parseClientOffer_eq_ok.mp offered
  have carried : optional (client'.hello.extensions.lookup extCookie) [] parseCookie = .ok cookie := by
    obtain ⟨value, parsed⟩ := answered.readable
    rw [answered.echoes]
    exact parsed.trans (congrArg _ (parseCookie_vector16 parsed))
  -- All other extensions are those of the first hello.
  have others := answered.others
  have moved : ∀ {shares : OrderedMap U16 Bytes}, (client'.hello.extensions.lookup extKeyShare).isSome →
      parseClientShares ((client'.hello.extensions.lookup extKeyShare).getD []) offer.groups = .ok shares →
      parseClientOffer client'.hello = .ok { offer with shares, cookie } := by
    intro shares keyed reshared
    refine parseClientOffer_eq_ok.mpr ⟨?_, ?_⟩
    · intro id required
      simp only [mem_cons, not_mem_nil, or_false] at required present
      rcases required with rfl | rfl | rfl | rfl
      case inr.inr.inl => exact keyed
      all_goals
        rw [others _ (by decide) (by decide)]
        exact present _ (by simp)
    · simp (disch := decide) only [others]
      exact ⟨versions, grouped, signed, reshared, named, spoken, identified, cid, checked, carried, keys, early⟩
  cases requested with
  | false =>
    refine ⟨offer.shares, moved ?_ ?_, fun _ => rfl, fun impossible => ?_⟩
    · rw [answered.kept rfl]
      exact present extKeyShare (by simp)
    · rw [answered.kept rfl]
      exact shared
    · contradiction
  | true =>
    obtain ⟨groups, key, share, parsed, listed, known, encoded, found⟩ := answered.share rfl
    cases Except.ok.inj (parsed.symm.trans grouped)
    refine ⟨_, moved ?_ ?_, fun impossible => ?_, fun _ => ⟨key.share, rfl⟩⟩
    · rw [found]
      rfl
    · rw [found]
      exact parseClientShares_single listed encoded (encodeKeyShare_length known encoded)
    · contradiction

/-- What must not change between the hellos has not changed. -/
private theorem fingerprint [Digests] (answered : client.Answered retry suite group requested cookie second client') :
    retryFingerprint client'.hello requested = retryFingerprint client.hello requested := by
  have same : client'.hello.extensions.filter (fingerprinted requested) =
      client.hello.extensions.filter (fingerprinted requested) := by
    ext1 id
    rw [lookup_filter, lookup_filter]
    split
    · rename_i kept
      have cookie : id ≠ extCookie := by
        rintro rfl
        simp [fingerprinted] at kept
      by_cases share : id = extKeyShare
      · subst share
        cases requested with
        | false => exact answered.kept rfl
        | true => simp [fingerprinted] at kept
      · exact answered.others id cookie share
    · rfl
  unfold retryFingerprint
  rw [same, answered.hello]

end ClientHandshake.Answered

private theorem identitySubset_refl (fuel : ℕ) (hashes : Bytes) (enough : hashes.length ≤ fuel) :
    identitySubset fuel hashes hashes = true := by
  induction fuel generalizing hashes with
  | zero => simpa [identitySubset] using enough
  | succ fuel ih =>
    unfold identitySubset
    by_cases empty : hashes = []
    · rw [if_pos empty]
    · have positive : 0 < hashes.length := length_pos_iff.mpr empty
      obtain ⟨size, length⟩ : ∃ size, hashes.length = size + 1 := ⟨hashes.length - 1, by omega⟩
      rw [if_neg empty, length, skipIdentity, if_neg empty, if_pos rfl]
      refine ih (hashes.drop 32) ?_
      rw [length_drop]
      omega

theorem retryIdentitySubset_refl (hashes : Bytes) : retryIdentitySubset hashes hashes = true :=
  identitySubset_refl _ _ le_rfl

/-- A preference that was found is in both lists. -/
private theorem mem_of_find?_getD {preferences offered : List U16}
    (found : (preferences.find? fun id => offered.contains id).getD 0 = id) (nonzero : id ≠ 0) :
    preferences.contains id = true ∧ offered.contains id = true := by
  cases chosen : preferences.find? fun id => offered.contains id with
  | none =>
    rw [chosen] at found
    exact absurd found.symm nonzero
  | some id' =>
    rw [chosen] at found
    cases found
    exact ⟨contains_iff_mem.mpr (mem_of_find?_eq_some chosen), find?_some chosen⟩

theorem ClientHello.marshal_length {h : ClientHello} (written : h.marshal = .ok body) :
    body.length ≤ maxClientHelloBody := by
  obtain ⟨session, -, few, ext, marshalled, -, rfl⟩ := ClientHello.marshal_eq_ok.mp written
  obtain ⟨-, short, -⟩ := marshal_extensions_eq_ok.mp marshalled
  simp only [length_append, length_cons, be16_length, h.random.2, length_flatMap_codeBytes, maxClientHelloBody]
  omega

/-- The server that resumes has the choices of the cookie and the bytes of the retry. -/
theorem CookieSecrets.resume_eq_ok [CertificateService] {c : Config} {retry : HandshakeMessage}
    {offer : ClientOffer} {transcript : Bytes} (stream : ℕ → UInt8) (message : HandshakeMessage)
    (prepared : prepareConfig c true aes = .ok config)
    (body : retryHelloBody fields.suite fields.group fields.requested offer.cookie = .ok retry.body)
    (shape : retry = ⟨msgServerHello, 0, 0, retry.body⟩) (hashed : retry.transcript = .ok transcript) :
    ∃ server, resume config aes (some stream) message offer fields = .ok server ∧ server.verifiedHello = message ∧
      server.selectedSuite = fields.suite ∧ server.selectedGroup = fields.group ∧
      server.firstHelloHash = fields.firstHash ∧ server.retryHello = transcript := by
  have forServer : prepareConfig c (!false) aes = .ok config := prepared
  obtain ⟨state, made⟩ := newHandshakeState_prepared forServer stream
  obtain ⟨sequence, -⟩ := newHandshakeState_fresh made
  have again : (⟨msgServerHello, state.sequence, 0, retry.body⟩ : HandshakeMessage) = retry := by
    rw [sequence, ← shape]
  refine ⟨{ state with
    phase := .clientHello, verifiedHello := message, offer,
    firstHelloHash := fields.firstHash, retryHello := transcript,
    selectedSuite := fields.suite, selectedGroup := fields.group, sequence := state.sequence + 1 },
    ?_, rfl, rfl, rfl, rfl, rfl⟩
  unfold resume
  simp only [Except.bind_eq_ok]
  exact ⟨state, made, retry.body, body, transcript, again ▸ hashed, rfl⟩

section

variable [Digests]

theorem CookieSecrets.issue_eq_ok [AddressText] {s : CookieSecrets} {peer : AddrPort}
    {retry : HandshakeMessage} {hello : ClientHello} {offer : ClientOffer} {now : Instant}
    (issued : s.issue config peer m hello offer now = .ok retry) : ∃ fields cookie,
      chooseFields config m hello offer now = .ok fields ∧ s.sealCookie peer fields = .ok cookie ∧
      retryHelloBody fields.suite fields.group fields.requested cookie = .ok retry.body ∧
      retry = ⟨msgServerHello, 0, 0, retry.body⟩ := by
  unfold issue at issued
  simp only [Except.bind_eq_ok, Except.pure_eq_ok] at issued
  obtain ⟨fields, chosen, cookie, sealed, body, built, rfl⟩ := issued
  exact ⟨fields, cookie, chosen, sealed, built, rfl⟩

/-- The second hello keeps to what the cookie records. -/
theorem ClientHandshake.Answered.matched [KeyExchange] {client client' : ClientHandshake}
    {retry second : HandshakeMessage} {offer : ClientOffer} {now : Instant} {shares : OrderedMap U16 Bytes}
    (answered : client.Answered retry fields.suite fields.group fields.requested cookie second client')
    (chosen : chooseFields config first client.hello offer now = .ok fields)
    (noEarlyData : client.hello.extensions.lookup extEarlyData = none)
    (kept : fields.requested = false → shares = offer.shares)
    (renewed : fields.requested = true → ∃ share, shares = (∅ : OrderedMap U16 Bytes).insert fields.group share) :
    fields.matched config client'.hello { offer with shares, cookie } = true := by
  obtain ⟨-, suite, suiteSet, group, groupSet, ⟨known, transcript, found, -, firstHash⟩, requested, fingerprint, -,
    identities⟩ := chooseFields_eq_ok.mp chosen
  obtain ⟨configured, offeredSuite⟩ := mem_of_find?_getD suite suiteSet
  obtain ⟨-, offeredGroup⟩ := mem_of_find?_getD group groupSet
  have unchanged : retryFingerprint client'.hello fields.requested = .ok fields.fingerprint :=
    answered.fingerprint.trans fingerprint
  have keyed : (shares.lookup fields.group).isSome = true ∧ (fields.requested = true → shares.entries.length = 1) := by
    cases asked : fields.requested with
    | false =>
      rw [kept asked]
      rw [asked] at requested
      exact ⟨by simpa using requested.symm, fun impossible => by contradiction⟩
    | true =>
      obtain ⟨share, rfl⟩ := renewed asked
      exact ⟨by simp, fun _ => rfl⟩
  unfold CookieFields.matched
  simp only [found, unchanged, Bool.and_eq_true, decide_eq_true_eq, Bool.or_eq_true]
  refine ⟨⟨⟨⟨⟨⟨⟨⟨?_, configured⟩, ?_⟩, ?_⟩, trivial⟩, ?_⟩, offeredGroup⟩, keyed.1⟩, ?_⟩
  · rw [firstHash, Digests.sum_length]
  · rw [answered.hello]
    exact offeredSuite
  · rw [answered.others _ (by decide) (by decide), noEarlyData]
    rfl
  · rw [answered.others _ (by decide) (by decide), identities]
    exact retryIdentitySubset_refl _
  · cases asked : fields.requested with
    | false => exact .inl rfl
    | true => exact .inr (keyed.2 asked)

/-- A cookie is opened within its lifetime, also after a rotation. -/
theorem CookieSecrets.openCookie_sealed [AddressText] {s later : CookieSecrets} {peer : AddrPort}
    {hello : ClientHello} {offer : ClientOffer} {issued now : Instant}
    (chosen : chooseFields config m hello offer issued = .ok fields) (sealed : s.sealCookie peer fields = .ok cookie)
    (schedule : later = s ∨ ∃ next moment, later = s.rotateTo next moment) (begun : issued.unix ≤ now.unix)
    (young : now.unix - issued.unix < 60) : later.openCookie peer cookie now = .ok fields := by
  obtain ⟨data, encoded, rfl⟩ := sealCookie_eq_ok.mp sealed
  obtain ⟨front, back⟩ := cookie_split data s.current peer
  obtain ⟨clock, -, -, -, -, -, -, -, recorded, -⟩ := chooseFields_eq_ok.mp chosen
  rw [openCookie_eq_ok, front, back]
  refine ⟨clock.trans begun, ?_, ?_, decode_chosen chosen encoded, ?_⟩
  · have size : (cookieMAC s.current peer data).length = 32 := Digests.hmac_length _ _ _
    rw [length_append, size]
    omega
  · rcases schedule with rfl | ⟨next, moment, rfl⟩
    · simp [validMAC]
    · simp [validMAC, rotateTo]
  · simp only [CookieFields.current, cookieLifetime, recorded, Bool.and_eq_true, decide_eq_true_eq]
    omega

variable [NameService] [CertificateService] [KeyExchange]

variable [AddressText]

/-- Whenever a client answers a HelloRetryRequest, the server accepts the second hello within the lifetime of
the cookie: it finds its own choices, rebuilds the request it sent, and hashes the same hellos as the client. -/
theorem retry_agrees {clientConfig original config : Config} {clientAES aes : Bool} {cid : Draw}
    {outside outside' : Outside} {client client' : ClientHandshake} {first retry : HandshakeMessage}
    {hello : ClientHello}
    {offer : ClientOffer} {secrets later : CookieSecrets} {peer : AddrPort} {issuedAt : Instant}
    {flight : List HandshakeMessage} (now : Instant) (stream : ℕ → UInt8)
    (opened : ClientHandshake.newClientHandshake clientConfig clientAES cid outside = .ok (client, first))
    (prepared : prepareConfig original true aes = .ok config)
    (parsed : parseClientHello first.body = .ok hello) (offered : parseClientOffer hello = .ok offer)
    (issued : secrets.issue config peer first hello offer issuedAt = .ok retry)
    (accepted : client.handle outside' retry = .ok flight client')
    (schedule : later = secrets ∨ ∃ next moment, later = secrets.rotateTo next moment)
    (begun : issuedAt.unix ≤ now.unix) (young : now.unix - issuedAt.unix < 60) :
    ∃ second fields server, flight = [second] ∧ chooseFields config first hello offer issuedAt = .ok fields ∧
      later.verify config aes peer second now (some stream) = .ok server ∧
      server.selectedSuite = fields.suite ∧ server.selectedGroup = fields.group ∧
      server.firstHelloHash = fields.firstHash ∧ retry.transcript = .ok server.retryHello ∧
      server.verifiedHello = second ∧ client'.retrySuite = server.selectedSuite ∧
      ∀ m, server.helloTranscript second m = client'.helloTranscript server.selectedSuite m := by
  have opening := ClientHandshake.newClientHandshake_opening opened
  cases Except.ok.inj (parsed.symm.trans (parseClientHello_marshal opening.body))
  obtain ⟨fields, cookie, chosen, sealed, built, shape⟩ := CookieSecrets.issue_eq_ok issued
  obtain ⟨second, rfl, answered⟩ := opening.answers built accepted
  obtain ⟨shares, reoffered, kept, renewed⟩ := answered.offer offered
  have reparsed : parseSecondHello second = .ok (client'.hello, { offer with shares, cookie }) := by
    have size := ClientHello.marshal_length answered.body
    unfold parseSecondHello
    rw [if_neg, parseClientHello_marshal answered.body]
    · simp only [reoffered]
    · rw [answered.message, opening.sequence]
      simpa using size
  have rebuilt : retryHelloBody fields.suite fields.group fields.requested
      ({ offer with shares, cookie } : ClientOffer).cookie =
    .ok retry.body := built
  obtain ⟨server, resumed, verified, suite, group, firstHash, retryHello⟩ :=
    CookieSecrets.resume_eq_ok stream second prepared rebuilt shape answered.retryHello
  refine ⟨second, fields, server, rfl, chosen, ?_, suite, group, firstHash, ?_, verified, ?_, fun m => ?_⟩
  · exact CookieSecrets.verify_eq_ok.mpr ⟨_, _, fields, reparsed,
      CookieSecrets.openCookie_sealed chosen sealed schedule begun young,
      answered.matched chosen opening.noEarlyData kept renewed, resumed⟩
  · rw [retryHello]
    exact answered.retryHello
  · rw [suite]
    exact answered.retrySuite
  · obtain ⟨-, -, -, -, -, ⟨known, transcript, found, hashed, firstHashed⟩, -⟩ := chooseFields_eq_ok.mp chosen
    cases Except.ok.inj (hashed.symm.trans opening.firstHello)
    have body : client'.hello.marshal = .ok second.body := answered.body
    have bytes : second.transcript = (⟨msgClientHello, 0, 0, second.body⟩ : HandshakeMessage).transcript := by
      rw [answered.message]
      rfl
    have sent : client'.sentTranscript fields.suite = (second.transcript >>= fun wire =>
        retryTranscriptHash fields.suite fields.firstHash client'.retryHello wire) := by
      unfold ClientHandshake.sentTranscript retryTranscript
      rw [if_pos answered.retried, body, answered.firstHello, found, firstHashed, bytes]
      rfl
    unfold ServerHandshake.helloTranscript ClientHandshake.helloTranscript
    rw [suite, firstHash, retryHello, sent, bind_assoc]

end

section

open Transparent

/-- The transparent client is asked for a key in another group, and a rotation comes between. -/
theorem transparent_retry_agrees :
    retried.1 = [secondHello] ∧ offer.shares.lookup 23 = none ∧
    ∃ server, rotated.verify listenerConfig true peer secondHello (moment 170 (by decide))
      (some fun _ => 8) = .ok server ∧
      server.selectedGroup = 23 ∧ retry.transcript = .ok server.retryHello ∧
      ∀ m, server.helloTranscript secondHello m = retried.2.helloTranscript server.selectedSuite m := by
  have opened : ClientHandshake.newClientHandshake clientConfig true (some fun _ => 9) (outside 5) =
      .ok (client, firstHello) := by decide +kernel
  have prepared : prepareConfig serverConfig true true = .ok listenerConfig := by decide +kernel
  have parsed : parseClientHello firstHello.body = .ok hello := by decide +kernel
  have offered : parseClientOffer hello = .ok offer := by decide +kernel
  have issued : secrets.issue listenerConfig peer firstHello hello offer (moment 150 (by decide)) = .ok retry := by
    decide +kernel
  have accepted : returned (ClientHandshake.handle (outside 6) retry) client = some retried := by decide +kernel
  have answered : client.handle (outside 6) retry = .ok retried.1 retried.2 := returned_eq_some accepted
  have schedule : rotated = secrets ∨ ∃ next moment, rotated = secrets.rotateTo next moment :=
    .inr ⟨key 2, moment 160 (by decide), rfl⟩
  obtain ⟨second, fields, server, single, chosen, verified, -, group, -, rebuilt, -, -, same⟩ :=
    retry_agrees (moment 170 (by decide)) (fun _ => 8) opened prepared parsed offered issued answered schedule
      (by decide) (by decide)
  have alone : secondHello = second := by
    unfold secondHello
    rw [single]
    rfl
  have asked : (chooseFields listenerConfig firstHello hello offer (moment 150 (by decide))).toOption.map (·.group) =
      some 23 := by decide +kernel
  rw [chosen] at asked
  subst alone
  exact ⟨single, by decide +kernel, server, verified, group.trans (Option.some.inj asked), rebuilt, same⟩

end

end Socat.Dtls13.Negotiation
