import Socat.Dtls13.Negotiation.Codec
import Socat.Dtls13.Negotiation.Transparent

/-! # Cookies live for a minute

Keys are rotated when a timer finds the current one a lifetime old; the age of a cookie is compared in
whole seconds. A key stays valid until the second rotation after it was last used, and two rotations are
a lifetime apart, so a cookie that is young enough always finds its key. The timestamp is under the MAC,
and so is the address.
-/

namespace Socat.Dtls13.Negotiation

open List CookieSecrets

/-! ## Schedules -/

/-- The arguments of `issue`. -/
structure Issuance where
  config : Config
  peer : AddrPort
  message : HandshakeMessage
  hello : ClientHello
  offer : ClientOffer
  now : Instant

/-- The arguments of `verify`. -/
structure Verification where
  config : Config
  aes : Bool
  peer : AddrPort
  message : HandshakeMessage
  now : Instant
  draw : Draw

inductive CookieCall where
  | rotate (next : Bytes32) (now : Instant)
  | issue (i : Issuance)
  | verify (v : Verification)

def CookieCall.now : CookieCall → Instant
  | .rotate _ now => now
  | .issue i => i.now
  | .verify v => v.now

/-- The clock never runs backwards, up to a last moment. -/
def Chronological (calls : List CookieCall) (now : Instant) : Prop :=
  calls.Pairwise (fun a b => a.now.nanoseconds ≤ b.now.nanoseconds) ∧
    ∀ call ∈ calls, call.now.nanoseconds ≤ now.nanoseconds

namespace CookieSecrets

/-- The secrets after a call; only a rotation changes them. -/
def after (s : CookieSecrets) : CookieCall → CookieSecrets
  | .rotate next now => s.maybeRotate (some next) now
  | .issue _ => s
  | .verify _ => s

def afterAll (s : CookieSecrets) (calls : List CookieCall) : CookieSecrets := calls.foldl after s

private theorem afterAll_append (s : CookieSecrets) (first second : List CookieCall) :
    s.afterAll (first ++ second) = (s.afterAll first).afterAll second := foldl_append

/-! ## Two keys are enough -/

/-- A key in use at `since` is one of the two, unless a lifetime has passed. -/
def Keeps (s : CookieSecrets) (key : Bytes32) (since clock : Instant) : Prop :=
  s.current = key ∨
    (s.previous = key ∧ ∃ last, s.lastRotate = some last ∧ since.nanoseconds ≤ last.nanoseconds) ∨
    since.nanoseconds + cookieLifetime ≤ clock.nanoseconds

theorem Keeps.later {s : CookieSecrets} {key : Bytes32} {since clock now : Instant}
    (keeps : s.Keeps key since clock) (passed : clock.nanoseconds ≤ now.nanoseconds) : s.Keeps key since now := by
  rcases keeps with current | previous | expired
  · exact .inl current
  · exact .inr (.inl previous)
  · exact .inr (.inr (expired.trans passed))

theorem Keeps.maybeRotate {s : CookieSecrets} {key : Bytes32} {since now : Instant}
    (keeps : s.Keeps key since now) (begun : since.nanoseconds ≤ now.nanoseconds) (next : Option Bytes32) :
    (s.maybeRotate next now).Keeps key since now := by
  unfold CookieSecrets.maybeRotate
  split
  · rename_i unset
    rcases keeps with current | ⟨-, last, set, -⟩ | expired
    · exact .inl current
    · rw [unset] at set
      contradiction
    · exact .inr (.inr expired)
  · rename_i last set
    split
    · exact keeps
    · rename_i old
      cases next with
      | none => exact keeps
      | some next =>
        rcases keeps with current | ⟨previous, last', set', started⟩ | expired
        · exact .inr (.inl ⟨current, now, rfl, begun⟩)
        · -- The older key goes; the rotation that made it the older one came after `since`.
          rw [set] at set'
          cases set'
          exact .inr (.inr (by omega))
        · exact .inr (.inr expired)

/-- A run keeps a key for a lifetime. -/
theorem Keeps.afterAll {s : CookieSecrets} {key : Bytes32} {since clock now : Instant} {calls : List CookieCall}
    (keeps : s.Keeps key since clock) (begun : since.nanoseconds ≤ clock.nanoseconds)
    (chronological : Chronological calls now) (first : ∀ call ∈ calls, clock.nanoseconds ≤ call.now.nanoseconds)
    (passed : clock.nanoseconds ≤ now.nanoseconds) : (s.afterAll calls).Keeps key since now := by
  induction calls generalizing s clock with
  | nil => exact keeps.later passed
  | cons call rest ih =>
    obtain ⟨ordered, last⟩ := chronological
    obtain ⟨above, sorted⟩ := pairwise_cons.mp ordered
    have reached := first call mem_cons_self
    have kept : (s.after call).Keeps key since call.now := by
      cases call with
      | rotate next moment => exact (keeps.later reached).maybeRotate (begun.trans reached) (some next)
      | issue i | verify v => exact keeps.later reached
    exact ih kept (begun.trans reached) ⟨sorted, fun later member => last later (mem_cons_of_mem _ member)⟩
      above (last call mem_cons_self)

end CookieSecrets

/-! ## Cookies of a run -/

section

variable [Digests] [AddressText]

/-- The cookie an issue of a retry makes, with what it records. -/
def Issuance.Makes (i : Issuance) (s : CookieSecrets) (fields : CookieFields) (cookie : Bytes) : Prop :=
  chooseFields i.config i.message i.hello i.offer i.now = .ok fields ∧ s.sealCookie i.peer fields = .ok cookie

/-- Whoever rotates, an issued cookie passes the MAC check as long as it passes the age test. -/
theorem validMAC_of_current {start : CookieSecrets} {earlier between : List CookieCall} {i : Issuance}
    {now : Instant} (chronological : Chronological (earlier ++ .issue i :: between) now)
    {fields : CookieFields} {data : Bytes}
    (chosen : chooseFields i.config i.message i.hello i.offer i.now = .ok fields)
    (young : fields.current now = true) :
    (start.afterAll (earlier ++ .issue i :: between)).validMAC i.peer data
      (cookieMAC (start.afterAll earlier).current i.peer data) = true := by
  obtain ⟨ordered, last⟩ := chronological
  obtain ⟨-, later, -⟩ := pairwise_append.mp ordered
  obtain ⟨above, sorted⟩ := pairwise_cons.mp later
  have kept : ((start.afterAll earlier).afterAll between).Keeps (start.afterAll earlier).current i.now now := by
    refine Keeps.afterAll (.inl rfl) le_rfl ⟨sorted, ?_⟩ above ?_
    · exact fun call member => last call (mem_append_right _ (mem_cons_of_mem _ member))
    · exact last (.issue i) (mem_append_right _ mem_cons_self)
  have reached : start.afterAll (earlier ++ .issue i :: between) = (start.afterAll earlier).afterAll between :=
    start.afterAll_append earlier (.issue i :: between)
  obtain ⟨clock, -, -, -, -, -, -, -, issued, -⟩ := chooseFields_eq_ok.mp chosen
  rw [reached]
  unfold validMAC
  rcases kept with current | ⟨previous, -⟩ | expired
  · simp [current]
  · simp [previous]
  · -- A whole lifetime is also a lifetime in whole seconds.
    unfold CookieFields.current at young
    simp only [Bool.and_eq_true, decide_eq_true_eq, cookieLifetime, Instant.unix, issued] at young expired clock
    omega

/-- The verified message presents the cookie. -/
def Verification.Presents [NameService] (v : Verification) (cookie : Bytes) : Prop :=
  ∃ hello offer, parseSecondHello v.message = .ok (hello, offer) ∧ offer.cookie = cookie

def Verification.Accepted [CertificateService] [NameService] (v : Verification) (s : CookieSecrets) : Prop :=
  ∃ h, s.verify v.config v.aes v.peer v.message v.now v.draw = .ok h

theorem Verification.Accepted.opened [CertificateService] [NameService] {v : Verification} {s : CookieSecrets}
    {cookie : Bytes} (accepted : v.Accepted s) (presents : v.Presents cookie) :
    ∃ fields, s.openCookie v.peer cookie v.now = .ok fields := by
  obtain ⟨h, verified⟩ := accepted
  obtain ⟨hello, offer, parsed, rfl⟩ := presents
  obtain ⟨hello', offer', fields, parsed', opened, -⟩ := verify_eq_ok.mp verified
  rw [parsed] at parsed'
  cases parsed'
  exact ⟨fields, opened⟩

namespace CookieSecrets

variable [NameService]

/-- The keys and inputs a call computes MACs of. -/
def macs (s : CookieSecrets) : CookieCall → List (Bytes × Bytes)
  | .rotate _ _ => []
  | .issue i =>
    match chooseFields i.config i.message i.hello i.offer i.now >>= CookieFields.encode with
    | .error _ => []
    | .ok data => [(s.current, cookieInput i.peer data)]
  | .verify v =>
    match parseSecondHello v.message with
    | .error _ => []
    | .ok (_, offer) =>
      let input := cookieInput v.peer (offer.cookie.take (offer.cookie.length - 32))
      [(s.current, input), (s.previous, input)]

def macsAll : CookieSecrets → List CookieCall → List (Bytes × Bytes)
  | _, [] => []
  | s, call :: rest => s.macs call ++ (s.after call).macsAll rest

/-- Different keys or inputs of a run gave different MACs. -/
def Collisionless (s : CookieSecrets) (calls : List CookieCall) : Prop :=
  Set.InjOn (fun mac : Bytes × Bytes => Digests.hmac .sha256 mac.1 mac.2) { mac | mac ∈ s.macsAll calls }

private theorem macsAll_append (s : CookieSecrets) (first second : List CookieCall) :
    s.macsAll (first ++ second) = s.macsAll first ++ (s.afterAll first).macsAll second := by
  induction first generalizing s with
  | nil => rfl
  | cons call rest ih =>
    rw [cons_append, macsAll, ih, macsAll, append_assoc]
    rfl

/-- A call of a run computes its MACs with the secrets of its time. -/
theorem mem_macsAll {s : CookieSecrets} {before after : List CookieCall} {call : CookieCall}
    {mac : Bytes × Bytes} (computed : mac ∈ (s.afterAll before).macs call) :
    mac ∈ s.macsAll (before ++ call :: after) := by
  rw [macsAll_append, macsAll]
  exact mem_append_right _ (mem_append_left _ computed)

end CookieSecrets

variable [NameService]

/-- A valid MAC was made for the same address. -/
theorem peer_of_validMAC {start : CookieSecrets} {earlier between : List CookieCall} {i : Issuance}
    {v : Verification} {fields : CookieFields} {data cookie : Bytes}
    (chosen : chooseFields i.config i.message i.hello i.offer i.now = .ok fields)
    (encoded : fields.encode = .ok data) (presents : v.Presents cookie)
    (split : cookie.take (cookie.length - 32) = data)
    (valid : (start.afterAll (earlier ++ .issue i :: between)).validMAC v.peer data
      (cookieMAC (start.afterAll earlier).current i.peer data) = true)
    (collisionless : start.Collisionless (earlier ++ .issue i :: between ++ [.verify v])) : v.peer = i.peer := by
  obtain ⟨hello, offer, parsed, rfl⟩ := presents
  have issued : ((start.afterAll earlier).current.1, cookieInput i.peer data) ∈
      start.macsAll (earlier ++ .issue i :: between ++ [.verify v]) := by
    rw [append_assoc, cons_append]
    refine mem_macsAll ?_
    have whole : (chooseFields i.config i.message i.hello i.offer i.now >>= CookieFields.encode) = .ok data :=
      Except.bind_eq_ok.mpr ⟨fields, chosen, encoded⟩
    simp [macs, whole]
  have verified : ∀ mac ∈ (start.afterAll (earlier ++ .issue i :: between)).macs (.verify v),
      mac ∈ start.macsAll (earlier ++ .issue i :: between ++ [.verify v]) :=
    fun mac computed => mem_macsAll computed
  simp only [macs, parsed, split, mem_cons, not_mem_nil, or_false] at verified
  unfold validMAC at valid
  rw [Bool.or_eq_true, decide_eq_true_eq, decide_eq_true_eq] at valid
  rcases valid with same | same
  · exact (cookieInput_peer (Prod.ext_iff.mp (collisionless issued (verified _ (.inl rfl)) same)).2).symm
  · exact (cookieInput_peer (Prod.ext_iff.mp (collisionless issued (verified _ (.inr rfl)) same)).2).symm

variable [CertificateService]

/-- Along every schedule of rotations, an issued cookie passes the MAC check whenever the age test accepts
it; it is not accepted once a minute has passed, and only from the address it was issued to. -/
theorem cookie_lifetime (start : CookieSecrets) (earlier between : List CookieCall) (i : Issuance)
    (now : Instant) (chronological : Chronological (earlier ++ .issue i :: between) now)
    {fields : CookieFields} {cookie : Bytes} (makes : i.Makes (start.afterAll earlier) fields cookie) :
    (fields.current now = true → (start.afterAll (earlier ++ .issue i :: between)).validMAC i.peer
      (cookie.take (cookie.length - 32)) (cookie.drop (cookie.length - 32)) = true) ∧
    ∀ v : Verification, v.now = now → v.Presents cookie →
      v.Accepted (start.afterAll (earlier ++ .issue i :: between)) →
        now.nanoseconds - i.now.nanoseconds < cookieLifetime ∧
        (start.Collisionless (earlier ++ .issue i :: between ++ [.verify v]) → v.peer = i.peer) := by
  obtain ⟨chosen, sealed⟩ := makes
  obtain ⟨data, encoded, rfl⟩ := sealCookie_eq_ok.mp sealed
  obtain ⟨front, back⟩ := cookie_split data (start.afterAll earlier).current i.peer
  refine ⟨fun young => ?_, ?_⟩
  · rw [front, back]
    exact validMAC_of_current chronological chosen young
  · rintro v rfl presents accepted
    obtain ⟨found, opened⟩ := accepted.opened presents
    obtain ⟨-, -, valid, decoded, young⟩ := openCookie_eq_ok.mp opened
    rw [front] at decoded valid
    rw [back] at valid
    have recorded : found = fields := Except.ok.inj (decoded.symm.trans (decode_chosen chosen encoded))
    obtain ⟨clock, -, -, -, -, -, -, -, issued, -⟩ := chooseFields_eq_ok.mp chosen
    refine ⟨?_, peer_of_validMAC chosen encoded presents front valid⟩
    simp only [CookieFields.current, Bool.and_eq_true, decide_eq_true_eq, cookieLifetime, Instant.unix, recorded,
      issued] at young clock ⊢
    omega

end

section

open Transparent

/-- The cookie of the transparent handshake is issued at second 150, a rotation follows at second 160, and
the cookie comes back at second 170. -/
def transparentIssuance : Issuance := ⟨listenerConfig, peer, firstHello, hello, offer, issuing⟩

def transparentVerification : Verification :=
  ⟨listenerConfig, true, peer, secondHello, verifying, some fun _ => 8⟩

def transparentSchedule : List CookieCall := [.issue transparentIssuance, .rotate (key 2) rotating]

def transparentFields : CookieFields :=
  (chooseFields listenerConfig firstHello hello offer issuing).toOption.getD ⟨0, 0, 0, false, [], [], []⟩

def transparentCookie : Bytes := (secrets.sealCookie peer transparentFields).toOption.getD []

theorem transparent_cookie_lifetime :
    (secrets.afterAll transparentSchedule).current ≠ secrets.current ∧
    (secrets.afterAll transparentSchedule).validMAC peer (transparentCookie.take 81)
    (transparentCookie.drop 81) = true ∧
    transparentVerification.now.nanoseconds - transparentIssuance.now.nanoseconds < cookieLifetime ∧
    transparentVerification.peer = transparentIssuance.peer := by
  have makes : transparentIssuance.Makes secrets transparentFields transparentCookie :=
    ⟨by decide +kernel, by decide +kernel⟩
  have chronological : Chronological transparentSchedule transparentVerification.now := by
    constructor <;> decide
  have presents : transparentVerification.Presents transparentCookie := by
    have parsed : ((parseSecondHello secondHello).toOption.map fun p => p.2.cookie) = some transparentCookie := by
      decide +kernel
    obtain ⟨⟨hello, offer⟩, found, same⟩ := Option.map_eq_some_iff.mp parsed
    exact ⟨hello, offer, Except.toOption_eq_some.mp found, same⟩
  have accepted : transparentVerification.Accepted (secrets.afterAll transparentSchedule) := by
    have verified : server.isSome = true := by decide +kernel
    obtain ⟨h, found⟩ := Option.isSome_iff_exists.mp verified
    exact ⟨h, Except.toOption_eq_some.mp found⟩
  have collisionless : secrets.Collisionless (transparentSchedule ++ [.verify transparentVerification]) := by
    have distinct : ∀ a ∈ secrets.macsAll (transparentSchedule ++ [.verify transparentVerification]),
        ∀ b ∈ secrets.macsAll (transparentSchedule ++ [.verify transparentVerification]),
          Digests.hmac .sha256 a.1 a.2 = Digests.hmac .sha256 b.1 b.2 → a = b := by decide +kernel
    exact fun a listed b listed' same => distinct a listed b listed' same
  have lifetime := cookie_lifetime secrets [] _ transparentIssuance transparentVerification.now chronological makes
  have young : transparentFields.current transparentVerification.now = true := by decide +kernel
  have size : transparentCookie.length - 32 = 81 := by decide +kernel
  have valid := lifetime.1 young
  obtain ⟨recent, same⟩ := lifetime.2 transparentVerification rfl presents accepted
  rw [size] at valid
  exact ⟨by decide +kernel, valid, recent, same collisionless⟩

end

end Socat.Dtls13.Negotiation
