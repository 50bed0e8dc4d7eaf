import Socat.Dtls13.Negotiation.Client
import Socat.Dtls13.Negotiation.Cookie

/-! # Transparent services

The laws of the services outside are consistent: digests that copy their input, certificates that are
their own key, and shares that carry their seed have them all. With them a client and a server go through
a handshake with a retry.
-/

namespace Socat.Dtls13.Negotiation.Transparent

/-- The first bytes, filled up with zeros. -/
def fit (bytes : Bytes) (size : ℕ) : Bytes := (bytes ++ List.replicate size 0).take size

@[simp] theorem fit_length (bytes : Bytes) (size : ℕ) : (fit bytes size).length = size := by
  simp [fit]

scoped instance digests : Digests where
  sum hash data := fit (be24 data.length ++ data.reverse) hash.size
  hmac hash key data := fit (key.take 8 ++ data.reverse) hash.size
  extract hash secret salt := fit (secret ++ salt) hash.size
  expand _ secret info length := fit (secret.take 8 ++ info.reverse) length
  sum_length := by simp
  hmac_length := by simp
  expand_length := by simp

scoped instance names : NameService where
  isIP _ := false

scoped instance certificates : CertificateService where
  parseX509 der := if der = [] then none else some ⟨3, ⟨.ed25519 32, der⟩, 0⟩
  checkSignature key _ _ signature := signature = key.encoded

scoped instance keyExchange : KeyExchange where
  generate group seed := fit seed (group.shareSize .fromClient)
  agree _ seed peer := .ok [seed.headD 0, peer.headD 0]
  respond group seed peer := .ok (fit seed (group.shareSize .fromServer), [peer.headD 0, seed.headD 0])
  generate_length := by simp

/-- Numbers in unary. -/
scoped instance addresses : AddressText where
  text
    | none => []
    | some (address, port) => 2 :: List.replicate address 1 ++ 2 :: List.replicate port 1
  text_injective := by
    have split : ∀ (a b c d : ℕ), List.replicate a (1 : UInt8) ++ 2 :: List.replicate b 1 =
        List.replicate c 1 ++ 2 :: List.replicate d 1 → a = c ∧ b = d := by
      intro a
      induction a with
      | zero =>
        intro b c d same
        cases c with
        | zero => simpa using congrArg List.length same
        | succ c => simp [List.replicate_succ] at same
      | succ a ih =>
        intro b c d same
        cases c with
        | zero => simp [List.replicate_succ] at same
        | succ c =>
          obtain ⟨first, second⟩ := ih b c d (by simpa [List.replicate_succ] using same)
          exact ⟨congrArg _ first, second⟩
    rintro (_ | ⟨address, port⟩) (_ | ⟨address', port'⟩) same
    · rfl
    · simp at same
    · simp at same
    · obtain ⟨rfl, rfl⟩ := split _ _ _ _ (List.cons.inj same).2
      rfl

/-! ## A handshake -/

/-- A client that offers a key in one group and names another. -/
def clientConfig : Config where
  serverName := ascii "a"
  cipherSuites := [0x1301]
  curvePreferences := [29, 23]
  insecureSkipVerify := true

/-- A server that insists on the other group. -/
def serverConfig : Config where
  certificates := [⟨[[7, 7]], some ⟨.ed25519 32, [7, 7]⟩⟩]
  cipherSuites := [0x1301]
  curvePreferences := [23]

/-- Random numbers that count up from `first`, keys with the seed `[first]`, and a valid signature. -/
def outside (first : UInt8) : Outside where
  random := some fun n => first + UInt8.ofNat n
  seed _ := some [first]
  signature := some [7, 7]

def moment (seconds : ℕ) (bound : seconds < 2 ^ 63) : Instant := ⟨1000000000 * seconds, by omega⟩

/-- The seconds at which a cookie is issued, the key is replaced and the cookie comes back. -/
def issuing : Instant := moment 150 (by decide)

def rotating : Instant := moment 160 (by decide)

def verifying : Instant := moment 170 (by decide)

def peer : AddrPort := some (1, 2)

def key (n : UInt8) : Bytes32 := ⟨List.replicate 32 n, by simp⟩

/-- The secrets of a listener that started at second 100. -/
def secrets : CookieSecrets := .initial (key 1) (moment 100 (by decide))

/-- The configuration the listener works with. -/
def listenerConfig : Config := (prepareConfig serverConfig true true).toOption.getD serverConfig

def noMessage : HandshakeMessage := ⟨0, 0, 0, []⟩

def noClient : ClientHandshake := { config := {}, client := true, hello := ⟨retryRandom, [], [], ∅⟩ }

/-- The client as its first flight goes out, with the hello. -/
def opened : ClientHandshake × HandshakeMessage :=
  (ClientHandshake.newClientHandshake clientConfig true (some fun _ => 9) (outside 5)).toOption.getD
    (noClient, noMessage)

def client : ClientHandshake := opened.1

def firstHello : HandshakeMessage := opened.2

/-- The listener's view of the first hello. -/
def hello : ClientHello := (parseClientHello firstHello.body).toOption.getD ⟨retryRandom, [], [], ∅⟩

def offer : ClientOffer := (parseClientOffer hello).toOption.getD {}

def retry : HandshakeMessage :=
  (secrets.issue listenerConfig peer firstHello hello offer issuing).toOption.getD noMessage

/-- The outcome of a handler that returned. -/
def returned {α σ : Type} (x : EStateM Err σ α) (s : σ) : Option (α × σ) :=
  match x s with
  | .ok a s => some (a, s)
  | .error _ _ => none

theorem returned_eq_some {α σ : Type} {x : EStateM Err σ α} {s s' : σ} {a : α}
    (found : returned x s = some (a, s')) : x s = .ok a s' := by
  unfold returned at found
  split at found
  · cases found
    assumption
  · cases found

/-- The client after the retry. -/
def retried : List HandshakeMessage × ClientHandshake :=
  (returned (ClientHandshake.handle (outside 6) retry) client).getD ([], noClient)

def secondHello : HandshakeMessage := retried.1.headD noMessage

/-- The secrets after a rotation. -/
def rotated : CookieSecrets := secrets.maybeRotate (some (key 2)) rotating

/-- The server that takes the second hello. -/
def server : Option ServerHandshake :=
  (rotated.verify listenerConfig true peer secondHello verifying (some fun _ => 8)).toOption

end Socat.Dtls13.Negotiation.Transparent
