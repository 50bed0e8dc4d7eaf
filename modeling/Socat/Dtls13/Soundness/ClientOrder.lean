import Socat.Dtls13.Soundness.Attempts
import Socat.Dtls13.Soundness.Retry

/-! # The order of a client's handshake

A client takes the messages of the server in one order only, and nothing it did not verify. The invariant
says for each phase which messages were accepted so far, what was checked about them, and that the
transcript consists of these messages and of what refused ones have left.
-/

namespace Socat.Dtls13.Negotiation

open Machine

/-! ## Hellos -/

variable {start c c' : ClientHandshake} {m first : HandshakeMessage} {log refused : List Attempt}
  {a : Attempt}

namespace ClientHandshake

/-- The message parses as a hello of the server, and says whether it asks for a retry. -/
def IsHello (a : Attempt) (hello : ServerHello) : Prop :=
  a.message.typ = msgServerHello ∧ a.message.epoch = 0 ∧ parseServerHello a.message.body = .ok hello

/-- The phase of a client, where it stands, its schedule and its first hello. -/
def place (c : ClientHandshake) := (c.phase, c.standing, c.schedule, c.firstHello)

/-- A client that has no ServerHello yet. -/
def Waiting (start c : ClientHandshake) : Prop :=
  c.place = (.serverHello, (false, start.config, true), none, start.firstHello)

theorem Waiting.fields (waiting : Waiting start c) : c.phase = .serverHello ∧
    c.standing = (false, start.config, true) ∧ c.schedule = none ∧ c.firstHello = start.firstHello := by
  simpa only [Waiting, place, Prod.mk.injEq] using waiting

/-- The client has answered a retry with its second hello. -/
structure Retries (start : ClientHandshake) (m : HandshakeMessage) (flight : List HandshakeMessage)
    (c : ClientHandshake) : Prop where
  waiting : Waiting start c
  retried : c.retried = true
  sent : ∃ second, flight = [second] ∧ second.typ = msgClientHello ∧ c.hello.marshal = .ok second.body
  hashed : m.transcript = .ok c.retryHello

/-- The retry a client has answered, if any. -/
inductive Helloing (start : ClientHandshake) : List Attempt → ClientHandshake → Prop
  | opening {c : ClientHandshake} : Waiting start c → c.retried = false → c.sequence = 1 → Helloing start [] c
  /-- The second hello cannot be encoded; nothing leads on from here. -/
  | stuck {c : ClientHandshake} {e : Err} : Waiting start c → c.retried = true → c.hello.marshal = .error e →
      Helloing start [] c
  | retried {c : ClientHandshake} {a : Attempt} {hello : ServerHello} {flight : List HandshakeMessage} :
      IsHello a hello → hello.retry = true → a.answer = some flight → Retries start a.message flight c →
      Helloing start [a] c

/-- The accepted hellos and the schedule they start: its transcript has the first hello of the client, the
retry and the second hello if there was one, and the ServerHello. -/
structure Begun [Digests] (start : ClientHandshake) (log : List Attempt) (k : KeySchedule) : Prop where
  hellos : ∃ front a hello secret transcript, log = front ++ [a] ∧ IsHello a hello ∧ hello.retry = false ∧
    newKeySchedule hello.suite secret (transcript ++ a.message.bytes) = .ok k ∧
    ((front = [] ∧ transcript = start.firstHello) ∨
      ∃ r request second, front = [r] ∧ IsHello r request ∧ request.retry = true ∧ r.answer = some [second] ∧
        retryTranscript hello.suite start.firstHello r.message.bytes second.bytes = .ok transcript)

/-! ### Refused hellos -/

/-- Only the hello to come and the keys for it have changed. -/
abbrev Rehelloed : ClientHandshake → ClientHandshake → Prop := Unchanged fun c => (c.place, c.retried, c.sequence)

private theorem takeCookie_rehelloed (ext : Extensions) : Respects Rehelloed (takeCookie ext) := by
  unfold takeCookie
  split
  · exact respects_pure _
  · exact respects_bind (respects_lift _) fun _ => respects_bind (respects_modify fun _ => rfl) fun _ => respects_pure _

private theorem takeGroup_rehelloed [KeyExchange] (outside : Outside) (ext : Extensions) :
    Respects Rehelloed (takeGroup outside ext) := by
  unfold takeGroup
  split
  · exact respects_pure _
  · refine respects_guard fun _ => respects_get_bind fun c => ?_
    simp only [ends_bind, ends_throwIf, ends_lift, ends_set, ends_pure]
    have same : Rehelloed c c := rfl
    exact ⟨fun _ => same, fun _ => ⟨fun _ _ => ⟨fun _ => same, fun _ => ⟨fun _ _ => ⟨fun _ _ => rfl, fun _ _ => same⟩,
      fun _ _ => same⟩⟩, fun _ _ => same⟩⟩

/-- A HelloRetryRequest is answered with the second hello, or refused. -/
theorem ends_retryRequest [KeyExchange] [Digests] {outside : Outside} {hello : ServerHello}
    (waiting : Waiting start c) (fresh : c.retried = false) (first : c.sequence = 1)
    (short : m.body.length ≤ maxHandshakeBody) :
    Ends (retryRequest outside m hello) c (Retries start m) (fun _ => Helloing start []) := by
  have refused : ∀ {c'}, Rehelloed c c' → Helloing start [] c' := fun changed =>
    .opening ((congrArg Prod.fst changed).trans waiting) ((congrArg (·.2.1) changed).trans fresh)
      ((congrArg (·.2.2) changed).trans first)
  have hashed : m.transcript = .ok m.bytes := HandshakeMessage.transcript_eq_ok.mpr ⟨short, rfl⟩
  unfold retryRequest
  simp only [ends_bind, ends_get, ends_throwIf, ends_lift]
  refine ⟨fun _ => refused rfl, fun _ => ⟨fun _ _ => ?_, fun _ _ => refused rfl⟩⟩
  refine (takeCookie_rehelloed hello.extensions c).mono (fun echoed c₁ one => ?_) (fun _ _ one => refused one)
  refine (takeGroup_rehelloed outside hello.extensions c₁).mono (fun asked c₂ two => ?_)
    (fun _ _ two => refused (one.trans two))
  have changed : Rehelloed c c₂ := one.trans two
  refine ⟨fun _ => refused changed, fun _ => ?_⟩
  have waiting₂ : Waiting start c₂ := (congrArg Prod.fst changed).trans waiting
  simp only [ends_modify, hashed, Except.ok.injEq, forall_eq', reduceCtorEq, false_implies, implies_true, and_true]
  refine ⟨fun body marshalled => ?_, fun e failed => .stuck waiting₂ rfl failed⟩
  rw [ends_shared]
  unfold HandshakeState.message
  simp only [ends_bind, ends_get, ends_throwIf, ends_runIf, ends_modify, ends_pure]
  refine ⟨fun late => absurd late ?_, fun _ => ⟨fun scheduled => absurd scheduled.1 ?_, fun _ => ?_⟩⟩
  · rw [show c₂.sequence = 1 from (congrArg (·.2.2) changed).trans first]
    decide
  · rw [waiting₂.fields.2.2.1]
    decide
  · exact ⟨waiting₂, rfl, ⟨_, rfl, rfl, marshalled⟩, hashed⟩

/-- Only what the server says about connection IDs has changed. -/
abbrev Identified : ClientHandshake → ClientHandshake → Prop :=
  Unchanged fun c => (c.place, c.retried, c.sequence, c.hello, c.retryHello)

theorem Helloing.identified (helloing : Helloing start log c) (changed : Identified c c') :
    Helloing start log c' := by
  simp only [Unchanged, Prod.mk.injEq] at changed
  obtain ⟨place, again, sequence, hello, retryHello⟩ := changed
  cases helloing with
  | opening waiting fresh first => exact .opening (place.trans waiting) (again.trans fresh) (sequence.trans first)
  | stuck waiting retried failed => exact .stuck (place.trans waiting) (again.trans retried) (hello ▸ failed)
  | retried isHello asked answer retries =>
    exact .retried isHello asked answer ⟨place.trans retries.waiting, again.trans retries.retried, hello ▸ retries.sent,
      retryHello ▸ retries.hashed⟩

theorem Helloing.waiting (helloing : Helloing start log c) : Waiting start c := by
  cases helloing with
  | opening waiting => exact waiting
  | stuck waiting => exact waiting
  | retried _ _ _ retries => exact retries.waiting

private theorem takeConnectionID_identified (ext : Extensions) : Respects Identified (takeConnectionID ext) := by
  unfold takeConnectionID
  split
  · exact respects_pure _
  · split
    · exact respects_bind (respects_modify fun _ => rfl) fun _ => respects_throw _
    · exact respects_modify fun _ => rfl

private theorem takeRRC_identified (ext : Extensions) : Respects Identified (takeRRC ext) := by
  unfold takeRRC
  split
  · exact respects_pure _
  · refine respects_get_bind fun c => ?_
    rw [ends_bind, ends_throwIf]
    exact ⟨fun _ => rfl, fun _ => ends_set.mpr rfl⟩

/-- What the client hashes up to a ServerHello: the hellos it sent and the retry it accepted. -/
theorem Helloing.helloTranscript [Digests] (helloing : Helloing start log c) {suite : U16} {bytes : Bytes}
    (hashed : c.helloTranscript suite m = .ok bytes) :
    ∃ transcript, bytes = transcript ++ m.bytes ∧ ((log = [] ∧ transcript = start.firstHello) ∨
      ∃ r request second, log = [r] ∧ IsHello r request ∧ request.retry = true ∧ r.answer = some [second] ∧
        retryTranscript suite start.firstHello r.message.bytes second.bytes = .ok transcript) := by
  unfold ClientHandshake.helloTranscript at hashed
  simp only [Except.bind_eq_ok, Except.pure_eq_ok] at hashed
  obtain ⟨transcript, sent, server, wire, rfl⟩ := hashed
  rw [← (HandshakeMessage.transcript_eq_ok.mp wire).2]
  refine ⟨transcript, rfl, ?_⟩
  unfold sentTranscript at sent
  cases helloing with
  | opening waiting fresh first =>
    rw [fresh] at sent
    cases sent
    exact .inl ⟨rfl, waiting.fields.2.2.2⟩
  | stuck waiting retried failed =>
    rw [if_pos retried, failed] at sent
    cases sent
  | @retried c a hello flight isHello asked answer retries =>
    obtain ⟨second, rfl, typ, marshalled⟩ := retries.sent
    rw [if_pos retries.retried, marshalled] at sent
    obtain ⟨_, ⟨⟩, resent⟩ := Except.bind_eq_ok.mp sent
    obtain ⟨bytes, again, combined⟩ := Except.bind_eq_ok.mp resent
    rw [← (HandshakeMessage.transcript_eq_ok.mp retries.hashed).2, ← (HandshakeMessage.transcript_eq_ok.mp again).2,
      retries.waiting.fields.2.2.2] at combined
    have same : second.bytes = (⟨msgClientHello, 0, 0, second.body⟩ : HandshakeMessage).bytes := by
      rw [HandshakeMessage.bytes, typ]
      rfl
    exact .inr ⟨a, hello, second, rfl, isHello, asked, answer, same ▸ combined⟩

/-- The client has accepted a ServerHello, with a schedule over the hellos. -/
def Accepts [Digests] (start c : ClientHandshake) (m : HandshakeMessage) (hello : ServerHello)
    (c' : ClientHandshake) : Prop :=
  ∃ secret bytes k, c.helloTranscript hello.suite m = .ok bytes ∧ newKeySchedule hello.suite secret bytes = .ok k ∧
    c'.schedule = some k ∧ c'.phase = .encryptedExtensions ∧ c'.standing = (false, start.config, true)

private theorem ends_acceptHello [KeyExchange] [Digests] (helloing : Helloing start log c) (m : HandshakeMessage)
    (hello : ServerHello) :
    Ends (acceptHello m hello) c (fun _ => Accepts start c m hello) (fun _ => Helloing start log) := by
  unfold acceptHello
  simp only [ends_bind, ends_get, ends_lift]
  refine ⟨fun _ _ => ⟨fun share _ => ?_, fun _ _ => helloing⟩, fun _ _ => helloing⟩
  split
  · exact helloing
  · rename_i key _
    simp only [ends_bind, ends_lift]
    refine ⟨fun secret _ => ?_, fun _ _ => helloing⟩
    refine (takeConnectionID_identified hello.extensions c).mono (fun _ c₁ one => ?_)
      (fun _ _ one => helloing.identified one)
    refine (takeRRC_identified hello.extensions c₁).mono (fun _ c₂ two => ?_)
      (fun _ _ two => helloing.identified (one.trans two))
    have helloing' : Helloing start log c₂ := helloing.identified (one.trans two)
    refine ⟨fun bytes hashed => ?_, fun _ _ => helloing'⟩
    unfold startSchedule
    rw [ends_bind, ends_get]
    cases scheduled : newKeySchedule hello.suite secret bytes with
    | error e =>
      simp only [ends_bind, ends_set, ends_throw]
      have same : ({ c₂ with schedule := none } : ClientHandshake) = c₂ := by
        rw [← helloing'.waiting.fields.2.2.1]
      rw [same]
      exact helloing'
    | ok k =>
      simp only [ends_set, ends_pure]
      exact ⟨secret, bytes, k, hashed, scheduled, rfl, rfl, helloing'.waiting.fields.2.1⟩

/-! ## The flight of the server -/

/-- EncryptedExtensions and, if it came, the CertificateRequest. -/
def Preamble (front : List Attempt) : Prop :=
  (∃ ee, front = [ee] ∧ ee.Is msgEncryptedExtensions) ∨
    ∃ ee cr, front = [ee, cr] ∧ ee.Is msgEncryptedExtensions ∧ cr.Is msgCertificateRequest

section

variable [CertificateService] [Digests]

/-- The messages accepted after the hellos, when the client is in a phase. -/
def Order (config : Config) (k : KeySchedule) (phase : Phase) (rest : List Attempt) (certificates : List X509) : Prop :=
  match phase with
  | .encryptedExtensions => rest = []
  | .certificateRequest => ∃ ee, rest = [ee] ∧ ee.Is msgEncryptedExtensions
  | .certificate => ∃ ee cr, rest = [ee, cr] ∧ ee.Is msgEncryptedExtensions ∧ cr.Is msgCertificateRequest
  | .certificateVerify => ∃ front cert, rest = front ++ [cert] ∧ Preamble front ∧
    Certified config true cert certificates
  | .finished => ∃ front cert verify, rest = front ++ [cert, verify] ∧ Preamble front ∧
      Certified config true cert certificates ∧ Signed true k (front ++ [cert]) verify certificates
  | _ => False

/-- A client between the ServerHello and the Finished. -/
structure Underway (start : ClientHandshake) (log refused : List Attempt) (c : ClientHandshake) : Prop where
  taken : ∃ opened rest k, log = opened ++ rest ∧ Begun start opened k ∧
    Progress start.config true k rest refused c.toHandshakeState ∧
    Order start.config k c.phase rest c.state.peerCertificates
  clean : c.phase ≠ .finished → refused = []

/-- The messages of a handshake the server was authenticated in, with those whose refusal left a trace in the
transcript before the Finished came. -/
structure Authenticated (start : ClientHandshake) (log refused : List Attempt) : Prop where
  flight : ∃ opened front cert verify finished k certificates, log = opened ++ front ++ [cert, verify, finished] ∧
    Begun start opened k ∧ Preamble front ∧ Certified start.config true cert certificates ∧
    Signed true k (front ++ [cert]) verify certificates ∧ Concluded true k (front ++ [cert, verify]) refused finished

inductive Stage (start : ClientHandshake) : List Attempt → List Attempt → ClientHandshake → Prop
  | hello {log : List Attempt} {c : ClientHandshake} : Helloing start log c → Stage start log [] c
  | underway {log refused : List Attempt} {c : ClientHandshake} :
      Underway start log refused c → Stage start log refused c
  | complete {log refused : List Attempt} {c : ClientHandshake} : c.complete = true →
      Authenticated start log refused → Stage start log refused c

/-! ### One message -/

section

variable (underway : Underway start log refused c)
include underway

theorem Underway.incomplete : c.complete = false := by
  obtain ⟨_, _, _, _, _, progress, _⟩ := underway.taken
  exact progress.incomplete

theorem Underway.past : c.phase ≠ .serverHello ∧ c.phase ≠ .clientHello := by
  obtain ⟨_, _, _, _, _, _, ordered⟩ := underway.taken
  constructor <;> intro here <;> rw [here] at ordered <;> exact ordered

/-- An accepted message takes the client on. -/
theorem Underway.advance {phase : Phase} (early : c.phase ≠ .finished) (advanced : Advanced a.message phase c c')
    (order : ∀ k rest, Order start.config k c.phase rest c.state.peerCertificates →
      Progress start.config true k rest [] c.toHandshakeState →
      Order start.config k phase (rest ++ [a]) c'.state.peerCertificates) : Underway start (log ++ [a]) [] c' := by
  obtain ⟨opened, rest, k, rfl, begun, progress, ordered⟩ := underway.taken
  rw [underway.clean early] at progress
  refine ⟨⟨opened, rest ++ [a], k, List.append_assoc _ _ _, begun, progress.advance advanced.1, ?_⟩, fun _ => rfl⟩
  rw [advanced.2]
  exact order k rest ordered progress

/-- A refused message leaves the client where it is, as long as no chain was verified. -/
theorem Underway.kept
    (early : c.phase = .encryptedExtensions ∨ c.phase = .certificateRequest ∨ c.phase = .certificate)
    (kept : Kept c c') : Underway start log refused c' := by
  obtain ⟨opened, rest, k, rfl, begun, progress, ordered⟩ := underway.taken
  have here : c'.phase = c.phase := congrArg Prod.snd kept
  refine ⟨⟨opened, rest, k, rfl, begun, progress.kept (congrArg Prod.fst kept), ?_⟩,
    fun later => underway.clean (here ▸ later)⟩
  rw [here]
  rcases early with phase | phase | phase <;> rw [phase] at ordered ⊢ <;> exact ordered

/-- A refused Finished leaves the client waiting for another one. -/
theorem Underway.left {h : HandshakeState} (phase : c.phase = .finished) (last : a.Is msgFinished)
    (answer : a.answer = none)
    (left : HandshakeState.Left finalTypes a.message c.toHandshakeState h) :
    Underway start log (refused ++ [a]) { c with toHandshakeState := h } := by
  obtain ⟨opened, rest, k, rfl, begun, progress, ordered⟩ := underway.taken
  refine ⟨⟨opened, rest, k, rfl, begun, progress.left last answer left, ?_⟩, fun later => absurd phase later⟩
  obtain ⟨_, _, _, grown⟩ := left
  show Order start.config k c.phase rest h.state.peerCertificates
  rwa [grown.state]

/-- A matching Finished completes an authenticated handshake. -/
theorem Underway.finish (phase : c.phase = .finished) (last : a.Is msgFinished)
    (confirmed : c.Confirmed a.message) : Authenticated start (log ++ [a]) refused := by
  obtain ⟨opened, rest, k, rfl, begun, progress, ordered⟩ := underway.taken
  rw [phase] at ordered
  obtain ⟨front, cert, verify, rfl, preamble, certified, signed⟩ := ordered
  refine ⟨opened, front, cert, verify, a, k, c.state.peerCertificates, ?_, begun, preamble, certified, signed, ?_⟩
  · simp
  · exact progress.finished last confirmed

end

variable [KeyExchange]

omit [CertificateService] in
/-- A hello of the server while the client waits for one. -/
theorem Helloing.ends_takeServerHello (helloing : Helloing start log c) (outside : Outside)
    (m : HandshakeMessage) : Ends (takeServerHello outside m) c
      (fun flight c' => m.typ = msgServerHello ∧ m.epoch = 0 ∧ ∃ hello, parseServerHello m.body = .ok hello ∧
        ((hello.retry = true ∧ log = [] ∧ Retries start m flight c') ∨
          (hello.retry = false ∧ Accepts start c m hello c')))
      (fun _ => Helloing start log) := by
  unfold takeServerHello serverHello
  simp only [ends_bind, ends_throwIf, ends_lift, ends_get, not_or, not_not]
  refine ⟨fun _ => helloing, fun same => ⟨fun hello parsed => ⟨fun _ _ => ?_, fun _ _ => helloing⟩,
    fun _ _ => helloing⟩⟩
  obtain ⟨typ, epoch⟩ := same
  split
  · rename_i asked
    have refused : c.retried = true → Ends (retryRequest outside m hello) c (fun _ _ => False)
        (fun _ c' => Helloing start log c') := by
      intro retried
      unfold retryRequest
      simp only [ends_bind, ends_get, ends_throwIf]
      exact ⟨fun _ => helloing, fun fresh => absurd retried fresh⟩
    cases helloing with
    | opening waiting fresh first =>
      refine (ends_retryRequest waiting fresh first (parseServerHello_length parsed)).imp fun flight c' taken => ?_
      exact ⟨typ, epoch, hello, parsed, .inl ⟨asked, rfl, taken⟩⟩
    | stuck waiting retried failed => exact (refused retried).imp fun _ _ impossible => impossible.elim
    | retried isHello asked answer retries =>
      exact (refused retries.retried).imp fun _ _ impossible => impossible.elim
  · rename_i final
    refine (ends_acceptHello helloing m hello).imp fun flight c' taken => ?_
    exact ⟨typ, epoch, hello, parsed, .inr ⟨by simpa using final, taken⟩⟩

/-- The handlers of messages under the handshake keys. -/
def handler (phase : Phase) (outside : Outside) (m : HandshakeMessage) : ClientM (List HandshakeMessage) :=
  match phase with
  | .encryptedExtensions => takeEncryptedExtensions m
  | .certificateRequest => if m.typ = msgCertificateRequest then takeCertificateRequest m else takeCertificate outside m
  | .certificate => takeCertificate outside m
  | .certificateVerify => takeCertificateVerify m
  | .finished => takeFinished outside m
  | _ => throw .unexpectedMessage

def dispatch : Dispatch ClientHandshake := ⟨(·.complete), (·.phase), .serverHello, takeServerHello, handler⟩

theorem dispatch_runs : dispatch.Runs handle := by
  intro outside m c
  unfold handle
  rw [get_bind_run]
  by_cases complete : c.complete = true
  · simp [dispatch, complete, throwIf_bind_error]
  rw [throwIf_bind_run complete]
  by_cases epoch : m.epoch = 2 <;> cases phase : c.phase <;>
    simp [dispatch, handler, complete, phase, epoch, throwIf_bind_run, throwIf_bind_error]

/-- A message while the client waits for a hello. -/
theorem Helloing.step (helloing : Helloing start log c) (takes : Takes handle c a c') :
    Stage start (log ++ accepted [a]) [] c' := by
  obtain ⟨here, standing, -, -⟩ := helloing.waiting.fields
  rcases dispatch_runs.hello_ended takes (congrArg Prod.fst standing) here
    (helloing.ends_takeServerHello a.outside a.message) with
    ⟨flight, answer, typ, epoch, hello, parsed, taken⟩ | ⟨answer, _, still⟩
  · rw [accepted_answered answer]
    rcases taken with ⟨asked, rfl, retries⟩ | ⟨final, secret, bytes, k, hashed, scheduled, schedule, phase, standing⟩
    · exact .hello (.retried ⟨typ, epoch, parsed⟩ asked answer retries)
    · obtain ⟨transcript, rfl, origin⟩ := helloing.helloTranscript hashed
      refine .underway ⟨⟨log ++ [a], [], k, (List.append_nil _).symm, ?_, ⟨standing, [], .nothing, ?_⟩, ?_⟩,
        fun _ => rfl⟩
      · exact ⟨log, a, hello, secret, transcript, rfl, ⟨typ, epoch, parsed⟩, final, scheduled, origin⟩
      · rw [schedule]
        simp [transcriptOf]
      · rw [phase]
        exact rfl
  · rw [accepted_refused answer, List.append_nil]
    exact .hello still

section

variable (underway : Underway start log refused c)
include underway

/-- A message before the Certificate has been taken. -/
theorem Underway.early (epoch : a.message.epoch = 2)
    (phase : c.phase = .encryptedExtensions ∨ c.phase = .certificateRequest ∨ c.phase = .certificate)
    (takes : Takes handle c a c') : Underway start (log ++ accepted [a]) refused c' := by
  have notLast : c.phase ≠ .finished := by
    rcases phase with here | here | here <;> rw [here] <;> decide
  have refused : a.answer = none → Kept c c' → Underway start (log ++ accepted [a]) refused c' := fun answer kept => by
    rw [accepted_refused answer, List.append_nil]
    exact underway.kept phase kept
  have clean := underway.clean notLast
  subst clean
  have certificate : (∀ {k rest}, Order start.config k c.phase rest c.state.peerCertificates → Preamble rest) →
      Ends (handler c.phase a.outside a.message) c
        (fun _ c' => a.message.typ = msgCertificate ∧ Advanced a.message .certificateVerify c c' ∧
          c.Presented a.outside a.message c'.state.peerCertificates) (fun _ => Kept c) →
      Underway start (log ++ accepted [a]) [] c' := fun preamble ends => by
    rcases dispatch_runs.later_ended takes underway.incomplete underway.past.1 epoch rfl ends with
      ⟨flight, answer, typ, advanced, presented⟩ | ⟨answer, _, kept⟩
    · rw [accepted_answered answer]
      refine underway.advance notLast advanced fun k rest order progress => ?_
      exact ⟨rest, a, rfl, preamble order, progress.certified epoch typ presented⟩
    · exact refused answer kept
  rcases phase with here | here | here
  · rcases dispatch_runs.later_ended takes underway.incomplete underway.past.1 epoch here
      (ends_takeEncryptedExtensions c a.message) with
      ⟨flight, answer, typ, advanced⟩ | ⟨answer, _, kept⟩
    · rw [accepted_answered answer]
      refine underway.advance notLast advanced fun k rest order _ => ?_
      rw [here] at order
      cases order
      exact ⟨a, rfl, typ, epoch⟩
    · exact refused answer kept
  · by_cases asks : a.message.typ = msgCertificateRequest
    · have ends := ends_takeCertificateRequest c a.message
      rw [← (if_pos asks : handler .certificateRequest a.outside a.message = _)] at ends
      rcases dispatch_runs.later_ended takes underway.incomplete underway.past.1 epoch here ends with
        ⟨flight, answer, advanced⟩ | ⟨answer, _, kept⟩
      · rw [accepted_answered answer]
        refine underway.advance notLast advanced fun k rest order _ => ?_
        rw [here] at order
        obtain ⟨ee, rfl, isExtensions⟩ := order
        exact ⟨ee, a, rfl, isExtensions, asks, epoch⟩
      · exact refused answer kept
    · rw [here] at certificate
      refine certificate .inl ?_
      rw [handler, if_neg asks]
      exact ends_takeCertificate c a.outside a.message
  · rw [here] at certificate
    exact certificate .inr (ends_takeCertificate c a.outside a.message)

/-- The CertificateVerify. -/
theorem Underway.verify (epoch : a.message.epoch = 2) (phase : c.phase = .certificateVerify)
    (takes : Takes handle c a c') : Underway start (log ++ accepted [a]) refused c' := by
  have notLast : c.phase ≠ .finished := by
    rw [phase]
    decide
  have clean := underway.clean notLast
  subst clean
  rcases dispatch_runs.later_ended takes underway.incomplete underway.past.1 epoch phase
    (ends_takeCertificateVerify c a.message) with
    ⟨flight, answer, typ, advanced, chain, verified⟩ | ⟨answer, _, rfl⟩
  · rw [accepted_answered answer]
    refine underway.advance notLast advanced fun k rest order progress => ?_
    rw [phase] at order
    obtain ⟨front, cert, rfl, preamble, certified⟩ := order
    rw [chain]
    exact ⟨front, cert, a, by simp, preamble, certified, progress.signed epoch typ verified⟩
  · rw [accepted_refused answer, List.append_nil]
    exact underway

/-- A message between the ServerHello and the end of the handshake. -/
theorem Underway.step (takes : Takes handle c a c') : Keeps (Stage start) log refused a c' := by
  by_cases epoch : a.message.epoch = 2
  · have still : Underway start (log ++ accepted [a]) refused c' → Keeps (Stage start) log refused a c' := fun next =>
      keeps_of_same (.underway next)
    cases phase : c.phase with
    | clientHello => exact absurd phase underway.past.2
    | serverHello => exact absurd phase underway.past.1
    | encryptedExtensions => exact still (underway.early epoch (.inl phase) takes)
    | certificateRequest => exact still (underway.early epoch (.inr (.inl phase)) takes)
    | certificate => exact still (underway.early epoch (.inr (.inr phase)) takes)
    | certificateVerify => exact still (underway.verify epoch phase takes)
    | finished =>
      rcases dispatch_runs.later_ended takes underway.incomplete underway.past.1 epoch phase
        (ends_takeFinished c a.outside a.message) with
        ⟨flight, answer, typ, complete, confirmed⟩ | ⟨answer, _, rfl | ⟨typ, h, left, rfl⟩⟩
      · refine keeps_of_same ?_
        rw [accepted_answered answer]
        exact .complete complete (underway.finish phase ⟨typ, epoch⟩ confirmed)
      · exact keeps_of_refused answer (.underway underway)
      · exact keeps_of_left answer (.underway (underway.left phase ⟨typ, epoch⟩ answer left))
  · exact dispatch_runs.barred takes (.inr ⟨underway.past.1, epoch⟩) (.underway underway)

end

/-- What one call of the handler does. -/
theorem Stage.step (stage : Stage start log refused c) (takes : Takes handle c a c') :
    Keeps (Stage start) log refused a c' := by
  cases stage with
  | hello helloing => exact keeps_of_same (helloing.step takes)
  | underway underway => exact underway.step takes
  | complete complete authenticated =>
    exact dispatch_runs.barred takes (.inl complete) (.complete complete authenticated)

omit [KeyExchange] in
theorem Opening.stage {client : ClientHandshake} (opening : client.Opening first) : Stage client [] [] client :=
  .hello (.opening (by simp [Waiting, place, HandshakeState.standing, opening.phase, opening.incomplete,
    opening.unscheduled, opening.isClient]) opening.fresh opening.sequence)

/-- A client that completes its handshake has authenticated the server. -/
theorem Opening.authenticated {client client' : ClientHandshake} {attempts : List Attempt}
    (opening : client.Opening first) (run : Path (Takes handle) client attempts client')
    (complete : client'.complete = true) :
    ∃ refused, refused.Sublist attempts ∧ Authenticated client (accepted attempts) refused := by
  obtain ⟨refused, among, stage⟩ := stage_run Stage.step opening.stage run
  rw [List.nil_append, List.nil_append] at stage
  cases stage with
  | hello helloing => cases (congrArg Prod.fst helloing.waiting.fields.2.1).symm.trans complete
  | underway underway => cases underway.incomplete.symm.trans complete
  | complete _ authenticated => exact ⟨refused, among, authenticated⟩

end

end ClientHandshake

end Socat.Dtls13.Negotiation
