import Socat.Dtls13.Soundness.ClientOrder
import Socat.Dtls13.Soundness.ServerOrder

/-! # A complete handshake is authenticated

Both sides complete a handshake only after the messages of the protocol, in their order, each verified
over the transcript of those before it. Besides the accepted messages a Finished may cover only what
refused ones have left: a Finished whose MAC was right stays in the transcript when a later step refuses it.
-/

namespace Socat.Dtls13.Negotiation

open Machine List ClientHandshake

/-- The outcome of calling a handler with messages in turn. -/
def attempts {σ : Type} (handle : Handler σ) :
    List (Outside × HandshakeMessage) → σ → List Attempt × σ
  | [], s => ([], s)
  | (outside, message) :: rest, s =>
    match handle outside message s with
    | .ok flight t => (⟨message, outside, some flight⟩ :: (attempts handle rest t).1, (attempts handle rest t).2)
    | .error _ t => (⟨message, outside, none⟩ :: (attempts handle rest t).1, (attempts handle rest t).2)

theorem attempts_path {σ : Type} (handle : Handler σ)
    (calls : List (Outside × HandshakeMessage)) (s : σ) :
    Path (Takes handle) s (attempts handle calls s).1 (attempts handle calls s).2 := by
  induction calls generalizing s with
  | nil => exact .nil s
  | cons call rest ih =>
    obtain ⟨outside, message⟩ := call
    unfold attempts
    split
    · rename_i flight t outcome
      refine .cons ?_ (ih t)
      simp [Takes, outcome]
    · rename_i e t outcome
      refine .cons ?_ (ih t)
      simp [Takes, outcome]

section

variable [NameService] [AddressText] [CertificateService] [Digests] [KeyExchange]

/-- Whatever messages come, a client completes only after the hellos in epoch 0, the server's
EncryptedExtensions, perhaps a CertificateRequest, a verified Certificate with a leaf, a CertificateVerify of
that leaf over the transcript and a Finished over it, all in epoch 2. A server completes only after the hello
its cookie was verified for, a verified Certificate exactly if it asks for one, a CertificateVerify exactly if
that has a chain, and a Finished. The transcript holds the accepted messages and what the refused ones of a
list have left: each of them was a Finished with the right MAC, and it stands there with what the client had
written of its final flight when it refused it. -/
theorem handshake_authenticated :
    (∀ (config : Config) (aes : Bool) (cid : Draw) (outside : Outside) (client client' : ClientHandshake)
        (first : HandshakeMessage) (attempts : List Attempt),
      newClientHandshake config aes cid outside = .ok (client, first) →
      Path (Takes handle) client attempts client' → client'.complete = true →
      ∃ refused, refused.Sublist attempts ∧ client.Authenticated (accepted attempts) refused) ∧
    (∀ (secrets : CookieSecrets) (config : Config) (aes : Bool) (peer : AddrPort) (verified : HandshakeMessage)
        (now : Instant) (cid : Draw) (server server' : ServerHandshake) (attempts : List Attempt),
      secrets.verify config aes peer verified now cid = .ok server →
      Path (Takes ServerHandshake.handle) server attempts server' → server'.complete = true →
      server.verifiedHello = verified ∧
        ∃ refused, refused.Sublist attempts ∧ server.Authenticated (accepted attempts) refused) := by
  constructor
  · intro config aes cid outside client client' first attempts opened run complete
    exact (newClientHandshake_opening opened).authenticated run complete
  · intro secrets config aes peer verified now cid server server' attempts resumed run complete
    obtain ⟨fresh, hello⟩ := ServerHandshake.fresh_of_verify resumed
    exact ⟨hello, fresh.authenticated run complete⟩

end

section

open Transparent

namespace Transparent

def noServer : ServerHandshake where
  config := {}
  client := false
  phase := .clientHello
  verifiedHello := noMessage
  offer := {}
  firstHelloHash := []
  selectedSuite := 0
  selectedGroup := 0

/-- The server with its flight. -/
def answered : List HandshakeMessage × ServerHandshake :=
  (returned (ServerHandshake.handle (outside 7) secondHello) (server.getD noServer)).getD ([], noServer)

/-- The client with what the server sends. -/
def greeted : List Attempt × ClientHandshake :=
  attempts handle ((outside 6, retry) :: answered.1.map fun m => (outside 10, m)) client

/-- The server with the second hello and what the client sends. -/
def concluded : List Attempt × ServerHandshake :=
  attempts ServerHandshake.handle
    ((outside 7, secondHello) :: ((greeted.1.getLast?.bind Attempt.answer).getD []).map fun m => (outside 11, m))
    (server.getD noServer)

/-- A client whose user is asked about the connection. -/
def wary : ClientHandshake := { client with config.verifyConnection := true }

/-- The server's messages, of which the user refuses the last. -/
def doubted : List Attempt × ClientHandshake :=
  attempts handle
    ((outside 6, retry) :: answered.1.map fun m =>
    ({ outside 10 with connectionRefused := some .badCertificate }, m)) wary

/-- A Finished over the transcript with the one that was refused. -/
def belated : HandshakeMessage :=
  ⟨msgFinished, 7, 2, (doubted.2.schedule.bind fun k => (k.finished k.serverHandshake).toOption).getD []⟩

/-- The client once its user has agreed. -/
def persuaded : List Attempt × ClientHandshake :=
  attempts handle [(outside 12, belated)] doubted.2

/-- A byte within the size of a fitted list. -/
private theorem getElem?_fit {bytes : Bytes} {size i : ℕ} (within : i < size) :
    (fit bytes size)[i]? = (bytes ++ List.replicate size 0)[i]? := by
  rw [fit, getElem?_take, if_pos within]

/-- The last byte of a transparent MAC is the sixth from the end of the transcript. -/
private theorem finished_last {k : KeySchedule} {secret body before after : Bytes} {byte : UInt8}
    (found : k.finished secret = .ok body) (transcript : k.transcript = before ++ after)
    (sixth : after.reverse[5]? = some byte) : body.getLast? = some byte := by
  unfold KeySchedule.finished at found
  rw [Except.ite_error_eq_ok] at found
  obtain ⟨-, same⟩ := found
  cases same
  have large : 32 ≤ k.hash.size := by cases k.hash <;> decide
  have sum : k.transcriptSum[8]? = some byte := by
    show (fit (be24 k.transcript.length ++ k.transcript.reverse) k.hash.size)[8]? = _
    have enough : 5 < after.reverse.length := (List.getElem?_eq_some_iff.mp sixth).1
    rw [getElem?_fit (by omega), transcript, reverse_append, append_assoc, append_assoc,
      getElem?_append_right (by simp [be24]), getElem?_append_left (by simpa [be24] using enough)]
    simpa [be24] using sixth
  have size : k.transcriptSum.length = k.hash.size := Digests.sum_length _ _
  show (fit ((expandLabel k.hash secret "finished" [] k.hash.size).take 8 ++ k.transcriptSum.reverse)
    k.hash.size).getLast? = _
  have key : ((expandLabel k.hash secret "finished" [] k.hash.size).take 8).length = 8 := by
    have whole : (expandLabel k.hash secret "finished" [] k.hash.size).length = k.hash.size :=
      Digests.expand_length _ _ _ _
    rw [length_take, whole]
    omega
  rw [getLast?_eq_getElem?, fit_length, getElem?_fit (by omega), append_assoc,
    getElem?_append_right (by omega), getElem?_append_left (by rw [length_reverse]; omega),
    getElem?_reverse (by omega), key, size]
  have place : k.hash.size - 1 - (k.hash.size - 1 - 8) = 8 := by omega
  rw [place, sum]

end Transparent

/-- The transparent client and server complete a handshake with a retry. -/
theorem transparent_handshake_authenticated :
    greeted.2.complete = true ∧ (∃ refused, client.Authenticated (accepted greeted.1) refused) ∧
    ∃ server, Transparent.server = some server ∧ server.verifiedHello = secondHello ∧
      ∃ refused, server.Authenticated (accepted concluded.1) refused := by
  have opened : newClientHandshake clientConfig true (some fun _ => 9) (outside 5) =
      .ok (client, firstHello) := by decide +kernel
  have complete : greeted.2.complete = true := by decide +kernel
  have complete' : concluded.2.complete = true := by decide +kernel
  have resumed : rotated.verify listenerConfig true peer secondHello (moment 170 (by decide)) (some fun _ => 8) =
      .ok (server.getD noServer) := by decide +kernel
  obtain ⟨refused, -, authenticated⟩ :=
    handshake_authenticated.1 _ _ _ _ _ _ _ _ opened (attempts_path _ _ _) complete
  obtain ⟨hello, refused', -, authenticated'⟩ :=
    handshake_authenticated.2 _ _ _ _ _ _ _ _ _ _ resumed (attempts_path _ _ _) complete'
  have made : Transparent.server = some (Transparent.server.getD noServer) := by decide +kernel
  exact ⟨complete, ⟨refused, authenticated⟩, _, made, hello, refused', authenticated'⟩

/-- The user of the wary client refuses the connection after a Finished with the right MAC. The client then
completes with a Finished over a transcript in which the refused one stands. -/
theorem belated_finished_unauthenticated :
    newClientHandshake { clientConfig with verifyConnection := true } true (some fun _ => 9) (outside 5) =
        .ok (wary, firstHello) ∧
      Path (Takes handle) wary (doubted.1 ++ persuaded.1) persuaded.2 ∧
      persuaded.2.complete = true ∧ ¬ wary.Authenticated (accepted (doubted.1 ++ persuaded.1)) [] := by
  refine ⟨by decide +kernel, (attempts_path _ _ _).append (attempts_path _ _ _), by decide +kernel, ?_⟩
  rintro ⟨opened, front, cert, verify, finished, k, certificates, log, -, -, -, -, -, extra, leftover, matched⟩
  cases leftover.nil
  have last := congrArg (fun l : List Attempt => (l.reverse.map Attempt.message).take 2) log
  have concrete : ((accepted (doubted.1 ++ persuaded.1)).reverse.map Attempt.message).take 2 =
      [belated, ⟨msgCertificateVerify, 4, 2, [8, 7, 0, 2, 7, 7]⟩] := by decide +kernel
  simp only [concrete, reverse_append, map_append, reverse_cons, reverse_nil, nil_append,
    cons_append, map_cons, take_succ_cons, take_zero, List.cons.injEq, and_true] at last
  obtain ⟨isBelated, isVerify⟩ := last
  rw [Matches, ← isBelated] at matched
  have split : (k.extended (transcriptOf (front ++ [cert, verify]) ++ [])).transcript =
      (k.transcript ++ transcriptOf (front ++ [cert])) ++ verify.message.bytes := by
    simp [KeySchedule.extended, transcriptOf]
  have sixth : verify.message.bytes.reverse[5]? = some 8 := by
    rw [← isVerify]
    rfl
  exact absurd (finished_last matched split sixth) (by decide +kernel)

end

end Socat.Dtls13.Negotiation
