import Socat.Dtls13.Soundness.Attempts
import Socat.Dtls13.Soundness.Retry

/-! # The order of a server's handshake

A server takes the ClientHello its cookie was verified for, and nothing else before it. Its flight puts it
in wait for the client's Certificate, if it asks for one, and for the Finished. A flight that fails leaves
a server without an offer, which never gets further.
-/

namespace Socat.Dtls13.Negotiation.ServerHandshake

open Machine HandshakeState

variable {h start h' : ServerHandshake} {a : Attempt} {log refused : List Attempt}

theorem ends_shared {α : Type} {x : HandshakeM α} {Q : α → ServerHandshake → Prop}
    {E : Err → ServerHandshake → Prop} :
    Ends (shared x) h Q E ↔ Ends x h.toHandshakeState (fun a state => Q a { h with toHandshakeState := state })
      (fun e state => E e { h with toHandshakeState := state }) := by
  unfold Ends shared
  cases x h.toHandshakeState <;> rfl

/-! ## The flight -/

/-- A server that has used up the hello it was made for. -/
structure Spent (start h : ServerHandshake) : Prop where
  phase : h.phase = .clientHello
  standing : h.standing = (false, start.config, false)
  suite : h.selectedSuite = start.selectedSuite
  offer : h.offer = {}

/-- A server in the middle of its flight: `k` is the schedule of the hellos, and the messages `sent` since
then are in the transcript. -/
structure Sending (start : ServerHandshake) (k : KeySchedule) (sent : List HandshakeMessage)
    (h : ServerHandshake) : Prop extends Spent start h where
  schedule : h.schedule = some (k.extended (sent.flatMap HandshakeMessage.bytes))

section

variable {start h : ServerHandshake} {k : KeySchedule} {sent : List HandshakeMessage}

theorem Spent.grown {types : List UInt8} {state : HandshakeState} (spent : Spent start h)
    (grown : Grown types h.toHandshakeState state) : Spent start { h with toHandshakeState := state } := by
  obtain ⟨sequence, clientApplication, serverApplication, sent, _, rfl⟩ := grown
  exact { spent with }

theorem Spent.shared {α : Type} {types : List UInt8} {x : HandshakeM α} (spent : Spent start h)
    (grown : Respects (Grown types) x) :
    Ends (shared x) h (fun _ h' => Spent start h') (fun _ h' => Spent start h') :=
  ends_shared.mpr
    ((grown h.toHandshakeState).mono (fun _ _ step => spent.grown step) (fun _ _ step => spent.grown step))

theorem Spent.answerOffer (spent : Spent start h) (offer : ClientOffer) (ext : Extensions) :
    Ends (answerOffer offer ext) h (fun _ h' => Spent start h') (fun _ h' => Spent start h') := by
  unfold ServerHandshake.answerOffer
  rw [ends_bind, ends_get]
  split
  · simp only [ends_bind, ends_set, ends_pure]
    exact { spent with }
  · exact spent

theorem Spent.startSchedule [Digests] (spent : Spent start h) (secret transcript : Bytes) :
    Ends (startSchedule secret transcript) h
      (fun _ h' => ∃ k, newKeySchedule start.selectedSuite secret transcript = .ok k ∧ Sending start k [] h')
      (fun _ h' => Spent start h') := by
  unfold ServerHandshake.startSchedule
  rw [ends_bind, ends_get, ← spent.suite]
  cases newKeySchedule h.selectedSuite secret transcript with
  | error e => exact { spent with }
  | ok k =>
    refine ⟨k, rfl, { spent with }, ?_⟩
    simp

theorem Sending.message (sending : Sending start k sent h) (typ : UInt8) (epoch : ℕ) (body : Bytes) :
    Ends (shared (HandshakeState.message typ epoch body)) h (fun m h' => Sending start k (sent ++ [m]) h')
      (fun _ h' => Spent start h') := by
  rw [ends_shared]
  refine (ends_message sending.schedule (congrArg Prod.fst sending.standing) typ epoch body).mono
    (fun m state same => ?_)
    (fun _ state same => ?_)
  · subst same
    refine ⟨{ sending with }, ?_⟩
    simp
  · subst same
    exact sending.toSpent

theorem Sending.chooseProtocol (sending : Sending start k sent h) (offer : ClientOffer) (ext : Extensions) :
    Ends (chooseProtocol offer ext) h (fun _ h' => Sending start k sent h') (fun _ h' => Spent start h') := by
  unfold ServerHandshake.chooseProtocol
  rw [ends_bind, ends_get]
  split
  · have spoken : ∀ protocol, Sending start k sent { h with state.negotiatedProtocol := protocol } :=
      fun _ => { sending with }
    simp only [ends_bind, ends_set, ends_throwIf, ends_lift, ends_pure]
    exact ⟨fun _ => (spoken _).toSpent, fun _ => ⟨fun _ _ => spoken _, fun _ _ => (spoken _).toSpent⟩⟩
  · exact sending

theorem Sending.encryptedExtensions (sending : Sending start k sent h) (offer : ClientOffer) :
    Ends (encryptedExtensions offer) h (fun m h' => Sending start k (sent ++ [m]) h') (fun _ h' => Spent start h') := by
  unfold ServerHandshake.encryptedExtensions
  rw [ends_bind]
  refine (sending.chooseProtocol offer _).imp fun ext h₁ chosen => ?_
  rw [ends_bind, ends_lift]
  exact ⟨fun _ _ => chosen.message _ _ _, fun _ _ => chosen.toSpent⟩

theorem Sending.certificateRequest (sending : Sending start k sent h) :
    Ends certificateRequest h (fun flight h' => Sending start k (sent ++ flight) h') (fun _ h' => Spent start h') := by
  unfold ServerHandshake.certificateRequest
  rw [ends_bind, ends_get]
  split
  · rw [ends_bind, ends_lift]
    refine ⟨fun request _ => ?_, fun _ _ => sending.toSpent⟩
    rw [ends_bind]
    exact (sending.message msgCertificateRequest 2 request).imp fun _ _ next => next
  · rw [ends_pure, List.append_nil]
    exact sending

variable [Digests]

theorem Sending.certificateFlight [CertificateService] (sending : Sending start k sent h) (outside : Outside)
    (cert : Option OwnCertificate) (scheme : U16) :
    Ends (shared (certificateFlight outside cert scheme)) h
      (fun flight h' => Sending start k (sent ++ flight) h') (fun _ h' => Spent start h') := by
  rw [ends_shared]
  refine (ends_certificateFlight sending.schedule (congrArg Prod.fst sending.standing) outside cert scheme).mono
    (fun flight state same => ?_) (fun _ state grown => sending.toSpent.grown grown)
  obtain ⟨sequence, rfl⟩ := same
  refine ⟨{ sending with }, ?_⟩
  simp

/-- The phase after the flight. -/
def awaited (config : Config) : Phase := if config.clientAuth ≠ ClientAuth.noClientCert then .certificate else .finished

theorem Sending.serverFinished (sending : Sending start k sent h) :
    Ends serverFinished h
      (fun m h' => h'.phase = awaited start.config ∧
        Progress start.config false (k.extended ((sent ++ [m]).flatMap HandshakeMessage.bytes)) [] []
          h'.toHandshakeState)
      (fun _ h' => Spent start h') := by
  unfold ServerHandshake.serverFinished
  rw [ends_bind, ends_get, sending.schedule]
  simp only [ends_bind, ends_lift]
  refine ⟨fun body _ => ?_, fun _ _ => sending.toSpent⟩
  refine (sending.message msgFinished 2 body).imp fun m h₁ last => ?_
  rw [ends_get, last.schedule]
  simp only [ends_bind, ends_set, ends_pure]
  refine ⟨?_, last.standing, [], .nothing, ?_⟩
  · rw [awaited, show h₁.config = start.config from congrArg (·.2.1) last.standing]
  · simp [transcriptOf]

variable [CertificateService] [KeyExchange]

/-- What the ClientHello and the flight that answers it start: the transcript of the retry, the verified
hello and the ServerHello, and then the rest of the flight. -/
def Opened (start : ServerHandshake) (flight : List HandshakeMessage) (k : KeySchedule) : Prop :=
  ∃ hello sent secret transcript k₀, flight = hello :: sent ∧
    retryTranscriptHash start.selectedSuite start.firstHelloHash start.retryHello start.verifiedHello.bytes =
      .ok transcript ∧
    newKeySchedule start.selectedSuite secret (transcript ++ hello.bytes) = .ok k₀ ∧
    k = k₀.extended (sent.flatMap HandshakeMessage.bytes)

/-- The flight starts the schedule, or leaves a spent server. -/
theorem Spent.serverFlight (spent : Spent start h) (firstHash : h.firstHelloHash = start.firstHelloHash)
    (retry : h.retryHello = start.retryHello) (outside : Outside) (offer : ClientOffer) :
    Ends (serverFlight outside start.verifiedHello offer) h
      (fun flight h' => ∃ k, Opened start flight k ∧ h'.phase = awaited start.config ∧
        Progress start.config false k [] [] h'.toHandshakeState)
      (fun _ h' => Spent start h') := by
  unfold ServerHandshake.serverFlight
  simp only [ends_bind, ends_get, ends_lift]
  refine ⟨fun made _ => ?_, fun _ _ => spent⟩
  obtain ⟨sharePublic, secret⟩ := made
  refine ⟨fun share _ => ⟨fun random _ => ?_, fun _ _ => spent⟩, fun _ _ => spent⟩
  refine (spent.answerOffer offer _).imp fun ext h₁ answered => ?_
  refine ⟨fun chosen _ => ?_, fun _ _ => answered⟩
  rw [ends_modify]
  have named : Spent start { h₁ with
      state.serverName := offer.serverName
      state.cipherSuite := h₁.selectedSuite
      state.curveID := h₁.selectedGroup } :=
    { answered with }
  refine ⟨fun body _ => ?_, fun _ _ => named⟩
  refine (named.shared (message_grown msgServerHello 0 body)).imp fun hello h₂ greeted => ?_
  refine ⟨fun bytes hashed => ?_, fun _ _ => greeted⟩
  refine (greeted.startSchedule secret bytes).imp fun _ h₃ started => ?_
  obtain ⟨k, scheduled, sending⟩ := started
  refine (sending.encryptedExtensions offer).imp fun encrypted h₄ sending => ?_
  refine sending.certificateRequest.imp fun request h₅ sending => ?_
  refine (sending.certificateFlight outside _ _).imp fun certificate h₆ sending => ?_
  refine sending.serverFinished.imp fun finish h₇ ended => ?_
  rw [ends_pure]
  refine ⟨_, ⟨hello, [encrypted] ++ request ++ certificate ++ [finish], secret, ?_⟩, ended⟩
  unfold helloTranscript at hashed
  simp only [Except.bind_eq_ok, Except.pure_eq_ok] at hashed
  obtain ⟨second, wire, transcript, combined, server, written, rfl⟩ := hashed
  rw [spent.suite, firstHash, retry, ← (HandshakeMessage.transcript_eq_ok.mp wire).2] at combined
  rw [← (HandshakeMessage.transcript_eq_ok.mp written).2] at scheduled
  exact ⟨transcript, k, by simp, combined, scheduled, by simp⟩

/-- A server without an offer answers nothing: a share is never empty. -/
theorem Spent.serverFlight_refused (spent : Spent start h) (outside : Outside) (m : HandshakeMessage) :
    Ends (ServerHandshake.serverFlight outside m {}) h (fun _ _ => False) (fun _ h' => Spent start h') := by
  unfold ServerHandshake.serverFlight
  simp only [ends_bind, ends_get, ends_lift]
  refine ⟨fun made agreed => ?_, fun _ _ => spent⟩
  unfold serverShare at agreed
  split at agreed
  · cases agreed
  · rename_i group _
    rw [Except.ite_error_eq_ok, not_not] at agreed
    have empty : group.shareSize .fromClient = 0 := agreed.1.symm
    have positive : 0 < group.shareSize .fromClient := by
      unfold KeyExchangeGroup.shareSize KeyExchangeGroup.componentSizes
      cases group.curve <;> simp
    exact absurd empty positive.ne'

end

/-! ## The messages of the client -/

section

variable [CertificateService] [Digests]

/-- What the client sends between the ClientHello and the Finished: a Certificate if the server asks for one,
and a CertificateVerify if it has a chain. -/
def ClientFlight (config : Config) (k : KeySchedule) (rest : List Attempt) (certificates : List X509) : Prop :=
  (config.clientAuth = .noClientCert ∧ rest = []) ∨
    (config.clientAuth ≠ .noClientCert ∧ ∃ cert, Certified config false cert certificates ∧
      ((certificates = [] ∧ rest = [cert]) ∨
        (certificates ≠ [] ∧ ∃ verify, rest = [cert, verify] ∧ Signed false k [cert] verify certificates)))

/-- The messages accepted after the ClientHello, when the server is in a phase. -/
def Order (config : Config) (k : KeySchedule) (phase : Phase) (rest : List Attempt) (certificates : List X509) : Prop :=
  match phase with
  | .certificate => config.clientAuth ≠ .noClientCert ∧ rest = []
  | .certificateVerify => config.clientAuth ≠ .noClientCert ∧ certificates ≠ [] ∧
      ∃ cert, rest = [cert] ∧ Certified config false cert certificates
  | .finished => ClientFlight config k rest certificates
  | _ => False

/-- The ClientHello the cookie was verified for. -/
def Begun (start : ServerHandshake) (a : Attempt) (k : KeySchedule) : Prop :=
  a.message.typ = msgClientHello ∧ a.message.epoch = 0 ∧ a.message.sequence = 1 ∧
    a.message.body = start.verifiedHello.body ∧ ∃ flight, a.answer = some flight ∧ Opened start flight k

/-- A server between the ClientHello and the Finished. -/
structure Underway (start : ServerHandshake) (log refused : List Attempt) (h : ServerHandshake) : Prop where
  taken : ∃ hello rest k, log = hello :: rest ∧ Begun start hello k ∧
    Progress start.config false k rest refused h.toHandshakeState ∧
    Order start.config k h.phase rest h.state.peerCertificates
  clean : h.phase ≠ .finished → refused = []

/-- The messages of a handshake that a server completes, with those whose refusal left a trace in the transcript
before the Finished came. -/
structure Authenticated (start : ServerHandshake) (log refused : List Attempt) : Prop where
  flight : ∃ hello rest finished k certificates, log = hello :: rest ++ [finished] ∧ Begun start hello k ∧
    ClientFlight start.config k rest certificates ∧ Concluded false k rest refused finished

inductive Stage (start : ServerHandshake) : List Attempt → List Attempt → ServerHandshake → Prop
  | fresh : Stage start [] [] start
  | spent {h : ServerHandshake} : Spent start h → Stage start [] [] h
  | underway {log refused : List Attempt} {h : ServerHandshake} :
      Underway start log refused h → Stage start log refused h
  | complete {log refused : List Attempt} {h : ServerHandshake} : h.complete = true →
      Authenticated start log refused → Stage start log refused h

/-! ### What a message changes -/

omit [Digests] in
private theorem ends_takeCertificate (h : ServerHandshake) (outside : Outside) (m : HandshakeMessage) :
    Ends (takeCertificate outside m) h
      (fun _ h' => m.typ = msgCertificate ∧ Advanced m h.toHandshakeState h'.toHandshakeState ∧
        h'.phase = (if h'.state.peerCertificates = [] then .finished else .certificateVerify) ∧
        h.Presented outside m h'.state.peerCertificates)
      (fun _ h' => Kept h.toHandshakeState h'.toHandshakeState ∧ h'.phase = h.phase) := by
  refine ends_guard ⟨rfl, rfl⟩ fun typ => ?_
  rw [ends_bind, ends_shared]
  refine (ends_peerCertificate _ outside m).mono (fun _ state taken => ?_) (fun _ state kept => ⟨kept, rfl⟩)
  exact ⟨not_not.mp typ, taken.1, rfl, taken.2⟩

private theorem ends_takeCertificateVerify (h : ServerHandshake) (m : HandshakeMessage) :
    Ends (takeCertificateVerify m) h
      (fun _ h' => m.typ = msgCertificateVerify ∧ Advanced m h.toHandshakeState h'.toHandshakeState ∧
        h'.phase = .finished ∧ h'.state.peerCertificates = h.state.peerCertificates ∧ h.Verified m)
      (fun _ h' => h' = h) := by
  refine ends_guard rfl fun typ => ?_
  rw [ends_bind, ends_shared]
  refine (ends_peerCertificateVerify _ m).mono (fun _ state taken => ?_) (fun _ state same => ?_)
  · exact ⟨not_not.mp typ, taken.1, rfl, taken.2⟩
  · subst same
    rfl

omit [CertificateService] in
/-- A Finished completes the handshake; refused, it stays in the transcript if its MAC was right. -/
private theorem ends_takeFinished (h : ServerHandshake) (outside : Outside) (m : HandshakeMessage) :
    Ends (takeFinished outside m) h
      (fun _ h' => m.typ = msgFinished ∧ h'.complete = true ∧ h.Confirmed m)
      (fun _ h' => h' = h ∨ m.typ = msgFinished ∧
        ∃ state, Left [] m h.toHandshakeState state ∧ h' = { h with toHandshakeState := state }) := by
  refine ends_guard (.inl rfl) fun typ => ?_
  rw [ends_bind, ends_shared]
  refine (ends_peerFinished _ m).mono (fun _ state left => ?_) (fun _ state same => ?_)
  · rw [ends_bind, ends_shared]
    refine (ends_finish _ outside).mono (fun _ state' ended => ?_) (fun _ state' same => ?_)
    · subst ended
      obtain ⟨k, scheduled, matched, -⟩ := left
      exact ⟨not_not.mp typ, rfl, k, scheduled, matched⟩
    · subst same
      exact .inr ⟨not_not.mp typ, _, left, rfl⟩
  · subst same
    exact .inl rfl

variable [KeyExchange]

/-! ### One message -/

/-- The handlers of messages under the handshake keys. -/
def handler (phase : Phase) (outside : Outside) (m : HandshakeMessage) : ServerM (List HandshakeMessage) :=
  match phase with
  | .certificate => takeCertificate outside m
  | .certificateVerify => takeCertificateVerify m
  | .finished => takeFinished outside m
  | _ => throw .unexpectedMessage

def dispatch : Dispatch ServerHandshake := ⟨(·.complete), (·.phase), .clientHello, takeHello, handler⟩

theorem dispatch_runs : dispatch.Runs handle := by
  intro outside m h
  unfold handle
  rw [get_bind_run]
  by_cases complete : h.complete = true
  · simp [dispatch, complete, throwIf_bind_error]
  rw [throwIf_bind_run complete]
  by_cases epoch : m.epoch = 2 <;> cases phase : h.phase <;>
    simp [dispatch, handler, complete, phase, epoch, throwIf_bind_run, throwIf_bind_error]

/-- A server that waits for a verified ClientHello. -/
structure Fresh (start : ServerHandshake) : Prop where
  phase : start.phase = .clientHello
  incomplete : start.complete = false
  client : start.client = false

/-- The ClientHello of a fresh server. -/
theorem Fresh.step (fresh : Fresh start) (takes : Takes handle start a h') : Stage start (accepted [a]) [] h' := by
  have ends : Ends (takeHello a.outside a.message) start
      (fun flight h' => a.message.typ = msgClientHello ∧ a.message.epoch = 0 ∧ a.message.sequence = 1 ∧
        a.message.body = start.verifiedHello.body ∧ ∃ k, Opened start flight k ∧ h'.phase = awaited start.config ∧
          Progress start.config false k [] [] h'.toHandshakeState)
      (fun _ h' => h' = start ∨ Spent start h') := by
    unfold takeHello
    simp only [ends_bind, ends_get, ends_throwIf, ends_set, not_or, not_not]
    refine ⟨fun _ => .inl trivial, fun same => ?_⟩
    obtain ⟨typ, epoch, sequence, body⟩ := same
    have spent : Spent start { start with verifiedHello := ⟨0, 0, 0, []⟩, offer := {} } :=
      ⟨fresh.phase, by simp [HandshakeState.standing, fresh.incomplete, fresh.client], rfl, rfl⟩
    refine (spent.serverFlight rfl rfl a.outside start.offer).mono (fun flight h' answered => ?_)
      (fun _ _ spent => .inr spent)
    exact ⟨typ, epoch, sequence, body, answered⟩
  rcases dispatch_runs.hello_ended takes fresh.incomplete fresh.phase ends with
    ⟨flight, answer, typ, epoch, sequence, body, k, opened, phase, progress⟩ | ⟨answer, _, rfl | spent⟩
  · rw [accepted_answered answer]
    refine .underway ⟨⟨a, [], k, rfl, ⟨typ, epoch, sequence, body, flight, answer, opened⟩, progress, ?_⟩, fun _ => rfl⟩
    rw [phase]
    unfold awaited
    split
    · rename_i asks
      exact ⟨asks, rfl⟩
    · rename_i asksNot
      exact .inl ⟨not_not.mp asksNot, rfl⟩
  · rw [accepted_refused answer]
    exact .fresh
  · rw [accepted_refused answer]
    exact .spent spent

/-- A spent server takes nothing. -/
theorem Spent.step (spent : Spent start h) (takes : Takes handle h a h') : Stage start (accepted [a]) [] h' := by
  have ends : Ends (takeHello a.outside a.message) h (fun _ _ => False) (fun _ h' => Spent start h') := by
    unfold takeHello
    simp only [ends_bind, ends_get, ends_throwIf, ends_set, spent.offer]
    refine ⟨fun _ => spent, fun _ => ?_⟩
    have again : Spent start { h with verifiedHello := ⟨0, 0, 0, []⟩, offer := {} } := { spent with offer := rfl }
    exact again.serverFlight_refused a.outside h.verifiedHello
  have ended := dispatch_runs.hello_ended takes (congrArg Prod.fst spent.standing) spent.phase ends
  rcases ended with ⟨_, _, impossible⟩ | ⟨answer, _, still⟩
  · exact impossible.elim
  · rw [accepted_refused answer]
    exact .spent still

section

variable (underway : Underway start log refused h)
include underway

omit [KeyExchange] in
theorem Underway.incomplete : h.complete = false := by
  obtain ⟨_, _, _, _, _, progress, _⟩ := underway.taken
  exact progress.incomplete

omit [KeyExchange] in
theorem Underway.past : h.phase ≠ .clientHello := by
  obtain ⟨_, _, _, _, _, _, ordered⟩ := underway.taken
  intro here
  rw [here] at ordered
  exact ordered

/-- The Certificate of the client. -/
theorem Underway.certificate (epoch : a.message.epoch = 2) (phase : h.phase = .certificate)
    (takes : Takes handle h a h') : Underway start (log ++ accepted [a]) refused h' := by
  have clean := underway.clean (by rw [phase]; decide)
  subst clean
  obtain ⟨hello, rest, k, rfl, begun, progress, ordered⟩ := underway.taken
  rw [phase] at ordered
  obtain ⟨asks, rfl⟩ := ordered
  rcases dispatch_runs.later_ended takes underway.incomplete underway.past epoch phase
    (ends_takeCertificate h a.outside a.message) with
    ⟨flight, answer, typ, advanced, next, presented⟩ | ⟨answer, _, kept, still⟩
  · rw [accepted_answered answer]
    refine ⟨⟨hello, [a], k, rfl, begun, progress.advance advanced, ?_⟩, fun _ => rfl⟩
    have certified := progress.certified epoch typ presented
    rw [next]
    by_cases empty : h'.state.peerCertificates = []
    · rw [if_pos empty]
      exact .inr ⟨asks, a, certified, .inl ⟨empty, rfl⟩⟩
    · rw [if_neg empty]
      exact ⟨asks, empty, a, rfl, certified⟩
  · rw [accepted_refused answer, List.append_nil]
    refine ⟨⟨hello, [], k, rfl, begun, progress.kept kept, ?_⟩, fun _ => rfl⟩
    rw [still, phase]
    exact ⟨asks, rfl⟩

/-- The CertificateVerify of the client. -/
theorem Underway.verify (epoch : a.message.epoch = 2) (phase : h.phase = .certificateVerify)
    (takes : Takes handle h a h') : Underway start (log ++ accepted [a]) refused h' := by
  have clean := underway.clean (by rw [phase]; decide)
  subst clean
  obtain ⟨hello, rest, k, rfl, begun, progress, ordered⟩ := underway.taken
  rw [phase] at ordered
  obtain ⟨asks, nonempty, cert, rfl, certified⟩ := ordered
  rcases dispatch_runs.later_ended takes underway.incomplete underway.past epoch phase
    (ends_takeCertificateVerify h a.message) with
    ⟨flight, answer, typ, advanced, next, chain, verified⟩ | ⟨answer, _, rfl⟩
  · rw [accepted_answered answer]
    refine ⟨⟨hello, [cert, a], k, rfl, begun, progress.advance advanced, ?_⟩, fun _ => rfl⟩
    rw [next, chain]
    exact .inr ⟨asks, cert, certified, .inr ⟨nonempty, a, rfl, progress.signed epoch typ verified⟩⟩
  · rw [accepted_refused answer, List.append_nil]
    exact underway

/-- The Finished of the client. -/
theorem Underway.finish (epoch : a.message.epoch = 2) (phase : h.phase = .finished)
    (takes : Takes handle h a h') : Keeps (Stage start) log refused a h' := by
  obtain ⟨hello, rest, k, rfl, begun, progress, ordered⟩ := underway.taken
  rw [phase] at ordered
  rcases dispatch_runs.later_ended takes underway.incomplete underway.past epoch phase
    (ends_takeFinished h a.outside a.message) with
    ⟨flight, answer, typ, complete, confirmed⟩ | ⟨answer, _, rfl | ⟨typ, state, left, rfl⟩⟩
  · refine keeps_of_same ?_
    rw [accepted_answered answer]
    exact .complete complete
      ⟨hello, rest, a, k, h.state.peerCertificates, rfl, begun, ordered, progress.finished ⟨typ, epoch⟩ confirmed⟩
  · exact keeps_of_refused answer (.underway underway)
  · refine keeps_of_left answer (.underway
      ⟨⟨hello, rest, k, rfl, begun, progress.left ⟨typ, epoch⟩ answer left, ?_⟩, fun later => absurd phase later⟩)
    obtain ⟨_, _, _, grown⟩ := left
    show Order start.config k h.phase rest state.state.peerCertificates
    rw [phase, grown.state]
    exact ordered

/-- A message between the ClientHello and the end of the handshake. -/
theorem Underway.step (takes : Takes handle h a h') : Keeps (Stage start) log refused a h' := by
  obtain ⟨_, rest, k, _, _, _, ordered⟩ := underway.taken
  by_cases epoch : a.message.epoch = 2
  · cases phase : h.phase with
    | certificate => exact keeps_of_same (.underway (underway.certificate epoch phase takes))
    | certificateVerify => exact keeps_of_same (.underway (underway.verify epoch phase takes))
    | finished => exact underway.finish epoch phase takes
    | _ =>
      rw [phase] at ordered
      exact ordered.elim
  · exact dispatch_runs.barred takes (.inr ⟨underway.past, epoch⟩) (.underway underway)

end

/-- What one call of the handler does. -/
theorem Stage.step (fresh : Fresh start) (stage : Stage start log refused h) (takes : Takes handle h a h') :
    Keeps (Stage start) log refused a h' := by
  cases stage with
  | fresh => exact keeps_of_same (fresh.step takes)
  | spent spent => exact keeps_of_same (spent.step takes)
  | underway underway => exact underway.step takes
  | complete complete authenticated =>
    exact dispatch_runs.barred takes (.inl complete) (.complete complete authenticated)

/-- A server that completes its handshake has taken the messages of the client in order. -/
theorem Fresh.authenticated {server server' : ServerHandshake} {attempts : List Attempt} (fresh : Fresh server)
    (run : Path (Takes handle) server attempts server') (complete : server'.complete = true) :
    ∃ refused, refused.Sublist attempts ∧ Authenticated server (accepted attempts) refused := by
  obtain ⟨refused, among, stage⟩ := stage_run (P := Stage server) (Stage.step fresh) .fresh run
  rw [List.nil_append, List.nil_append] at stage
  generalize accepted attempts = log at stage ⊢
  cases stage with
  | fresh => cases fresh.incomplete.symm.trans complete
  | spent spent => cases (congrArg Prod.fst spent.standing).symm.trans complete
  | underway underway => cases underway.incomplete.symm.trans complete
  | complete _ authenticated => exact ⟨refused, among, authenticated⟩

omit [KeyExchange] in
/-- A verified cookie makes a fresh server for the hello it came with. -/
theorem fresh_of_verify [AddressText] [NameService] {secrets : CookieSecrets} {config : Config} {aes : Bool}
    {peer : AddrPort} {message : HandshakeMessage} {now : Instant} {draw : Draw} {server : ServerHandshake}
    (verified : secrets.verify config aes peer message now draw = .ok server) :
    Fresh server ∧ server.verifiedHello = message := by
  obtain ⟨_, offer, fields, _, _, _, resumed⟩ := CookieSecrets.verify_eq_ok.mp verified
  unfold CookieSecrets.resume at resumed
  simp only [Except.bind_eq_ok, Except.pure_eq_ok] at resumed
  obtain ⟨state, made, body, _, retryHello, _, rfl⟩ := resumed
  obtain ⟨_, _, incomplete, isServer⟩ := newHandshakeState_fresh made
  exact ⟨⟨rfl, incomplete, isServer⟩, rfl⟩

end

end Socat.Dtls13.Negotiation.ServerHandshake
