import Socat.Dtls13.Model.Handshake

/-! # What the handshake handlers guarantee

A handler answers in the clear or under handshake keys it has scheduled, and completes the handshake
with the application secrets in place. The secrets of a server are derived two messages before it
completes, so the guarantee rests on what each phase implies. Most steps leave everything alone that
the phases speak about: `Idle` ones note something of the peer at most, and a message that is numbered
leaves the rest the `Same`.
-/

namespace Socat.Dtls13

open Machine HandshakeM

/-- A handshake without what is noted of the peer. -/
def Handshake.core (h : Handshake) : Handshake :=
  { h with peerCertificates := 0, peerCID := [], cidNegotiated := false, rrc := false }

/-- No message is numbered, and nothing changes that a phase depends on. -/
abbrev HandshakeWorld.Idle : HandshakeWorld → HandshakeWorld → Prop := Unchanged fun w => w.handshake.core

/-- The side, the phase and whether the handshake is complete. -/
def Handshake.place (h : Handshake) := (h.client, h.phase, h.complete)

abbrev HandshakeWorld.Still : HandshakeWorld → HandshakeWorld → Prop := Unchanged fun w => w.handshake.place

/-- Nothing changes that a phase depends on. -/
abbrev HandshakeWorld.Same : HandshakeWorld → HandshakeWorld → Prop :=
  Unchanged fun w => (w.handshake.place, w.handshake.schedule, w.handshake.clientApplication)

namespace HandshakeWorld

variable {w w' : HandshakeWorld}

theorem Idle.same (idle : w.Idle w') : w.Same w' :=
  (congrArg (fun h : Handshake => (h.place, h.schedule, h.clientApplication)) idle :)

theorem Same.still (same : w.Same w') : w.Still w' := congrArg Prod.fst same

theorem Same.schedule (same : w.Same w') : w'.handshake.schedule = w.handshake.schedule := congrArg (·.2.1) same

theorem Same.clientApplication (same : w.Same w') :
    w'.handshake.clientApplication = w.handshake.clientApplication := congrArg (·.2.2) same

theorem Still.client (still : w.Still w') : w'.handshake.client = w.handshake.client := congrArg Prod.fst still

theorem Still.phase (still : w.Still w') : w'.handshake.phase = w.handshake.phase := congrArg (·.2.1) still

theorem Still.complete (still : w.Still w') : w'.handshake.complete = w.handshake.complete := congrArg (·.2.2) still

end HandshakeWorld

/-! ## Steps that change nothing of it -/

variable {change : Handshake → Handshake} {h : Handshake} {α : Type} {x : HandshakeM α}

open HandshakeWorld (Idle Same Still)

theorem same_of_idle (idle : Respects Idle x) : Respects Same x :=
  idle.weaken fun _ _ => Idle.same

section

variable {w : HandshakeWorld} {E : Err → HandshakeWorld → Prop}

@[simp] theorem ends_getHandshake {Q : Handshake → HandshakeWorld → Prop} :
    Ends getHandshake w Q E ↔ Q w.handshake w := Iff.rfl

@[simp] theorem ends_getAnswers {Q : Answers → HandshakeWorld → Prop} :
    Ends getAnswers w Q E ↔ Q w.answers w := Iff.rfl

@[simp] theorem ends_modifyHandshake {Q : Unit → HandshakeWorld → Prop} :
    Ends (modifyHandshake change) w Q E ↔ Q () { w with handshake := change w.handshake } := Iff.rfl

end

theorem getHandshake_idle : Respects Idle getHandshake := fun _ => rfl

private theorem getAnswers_idle : Respects Idle getAnswers := fun _ => rfl

theorem check_idle : Respects Idle check := by
  intro w
  unfold check
  rw [ends_bind, ends_get, ends_bind, ends_set]
  split <;> exact rfl

theorem check_same : Respects Same check := same_of_idle check_idle

theorem encoded_idle : Respects Idle encoded := respects_bind check_idle fun _ _ => rfl

theorem derive_idle (size : ℕ) : Respects Idle (derive size) := by
  refine respects_bind check_idle fun _ w => ?_
  rw [ends_bind, ends_get, ends_bind, ends_set]
  split <;> exact rfl

private theorem message_same (typ : UInt8) (epoch : ℕ) (body : Bytes) (w : HandshakeWorld) :
    Ends (message typ epoch body) w (fun m w' => m.epoch = epoch ∧ w.Same w') (fun _ w' => w.Same w') := by
  unfold message
  rw [ends_bind, ends_getHandshake]
  split
  · exact ends_throw.mpr (Std.Refl.refl w)
  · rename_i m h' created
    have same : h' = { w.handshake with sequence := w.handshake.sequence + 1 } ∧ m.epoch = epoch := by
      unfold Handshake.message at created
      split at created
      · contradiction
      · cases created
        exact ⟨rfl, rfl⟩
    obtain ⟨rfl, ofEpoch⟩ := same
    rw [ends_bind]
    refine (respects_runIf check_same w).imp fun _ w₁ same => ?_
    rw [ends_bind, ends_modifyHandshake]
    exact ends_pure.mpr ⟨ofEpoch, rfl⟩

theorem encodedMessage_same (typ : UInt8) (epoch : ℕ) (w : HandshakeWorld) :
    Ends (encodedMessage typ epoch) w (fun m w' => m.epoch = epoch ∧ w.Same w') (fun _ w' => w.Same w') := by
  unfold encodedMessage
  refine (same_of_idle encoded_idle).next (Std.Refl.refl w) fun body w₁ same => ?_
  exact (message_same typ epoch body w₁).mono (fun _ _ outcome => ⟨outcome.1, same.trans outcome.2⟩)
    (fun _ _ => same.trans)

theorem certificateFlight_same (certified : Bool) (w : HandshakeWorld) :
    Ends (certificateFlight certified) w (fun flight w' => (∀ m ∈ flight, m.epoch = 2) ∧ w.Same w')
      (fun _ w' => w.Same w') := by
  unfold certificateFlight
  refine (encodedMessage_same msgCertificate 2 w).next (Std.Refl.refl w) fun m w₁ first same₁ => ?_
  split
  · refine (encodedMessage_same msgCertificateVerify 2 w₁).next same₁ fun m' w₂ second same₂ => ?_
    exact ends_pure.mpr ⟨by simp [first, second], same₂⟩
  · exact ends_pure.mpr ⟨by simp [first], same₁⟩

theorem peerCertificate_idle : Respects Idle peerCertificate :=
  respects_bind check_idle fun _ => respects_bind getAnswers_idle fun _ =>
    respects_bind (fun _ => rfl) fun _ => respects_bind check_idle fun _ =>
      respects_bind (fun _ => rfl) fun _ => check_idle

theorem peerCertificateVerify_idle : Respects Idle peerCertificateVerify :=
  respects_bind getHandshake_idle fun _ => respects_guard fun _ =>
    respects_bind check_idle fun _ => check_idle

theorem peerFinished_idle : Respects Idle peerFinished :=
  respects_bind check_idle fun _ => respects_bind check_idle fun _ => check_idle

/-! ## Secrets -/

theorem still_of_idle (idle : Respects Idle x) : Respects Still x :=
  idle.weaken fun _ _ idle => idle.same.still

theorem check_still : Respects Still check := still_of_idle check_idle

theorem encodedMessage_still (typ : UInt8) (epoch : ℕ) (w : HandshakeWorld) :
    Ends (encodedMessage typ epoch) w (fun m w' => m.epoch = epoch ∧ w.Still w') (fun _ w' => w.Still w') :=
  (encodedMessage_same typ epoch w).mono (fun _ _ sent => ⟨sent.1, sent.2.still⟩) (fun _ _ => Same.still)

theorem newKeySchedule_idle (id : ℕ) : Respects Idle (newKeySchedule id) := by
  unfold newKeySchedule
  split
  · exact respects_throw _
  · exact respects_bind (derive_idle _) fun _ => respects_bind (derive_idle _) fun _ =>
      respects_bind check_idle fun _ => respects_pure _

theorem startSchedule_still (id : ℕ) (w : HandshakeWorld) :
    Ends (startSchedule id) w (fun _ w' => w'.handshake.schedule.isSome ∧ w.Still w') (fun _ w' => w.Still w') := by
  unfold startSchedule
  rw [ends_bind, ends_attempt]
  refine (newKeySchedule_idle id w).mono (fun schedule w₁ idle => ?_) (fun e w₁ idle => ?_)
  · exact ends_modifyHandshake.mpr ⟨rfl, idle.same.still⟩
  · dsimp only
    rw [ends_bind, ends_modifyHandshake]
    exact ends_throw.mpr idle.same.still

theorem applicationSecrets_still (w : HandshakeWorld) :
    Ends applicationSecrets w
      (fun _ w' => w'.handshake.applicationKeys = true ∧ w'.handshake.schedule = w.handshake.schedule ∧ w.Still w')
      (fun _ w' => w'.handshake.schedule = w.handshake.schedule ∧ w.Still w') := by
  have sizes : ∀ suite ∈ cipherSuites, 0 < suite.hashSize := by decide
  unfold applicationSecrets
  rw [ends_bind, ends_getHandshake]
  split
  · exact ends_throw.mpr ⟨rfl, Std.Refl.refl w⟩
  rename_i schedule scheduled
  rw [ends_bind, ends_modifyHandshake, ends_bind]
  refine (same_of_idle (derive_idle _) _).mono (fun client w₁ same₁ => ?_) (fun _ w₁ same₁ => ?_)
  · rw [ends_bind, ends_modifyHandshake, ends_bind]
    refine (same_of_idle (derive_idle _) _).mono (fun server w₂ same₂ => ?_) (fun _ w₂ same₂ => ?_)
    · have nonempty : (client : Bytes) ≠ [] :=
        List.ne_nil_of_length_pos (client.2.symm ▸ sizes _ schedule.supported)
      refine ends_modifyHandshake.mpr ⟨?_, same₂.schedule.trans same₁.schedule, same₁.still.trans same₂.still⟩
      have kept : w₂.handshake.schedule = some schedule :=
        same₂.schedule.trans (same₁.schedule.trans scheduled)
      have assigned : w₂.handshake.clientApplication = client := same₂.clientApplication
      simp [Handshake.applicationKeys, kept, assigned, nonempty]
    · exact ⟨same₂.schedule.trans same₁.schedule, same₁.still.trans same₂.still⟩
  · exact ⟨same₁.schedule, same₁.still⟩

/-! ## The outcome of a message -/

/-- The answers have their keys, and the state keeps what its phase implies or is complete with
application secrets. -/
structure Answered (response : List HandshakeMessage) (h : Handshake) : Prop where
  keyed : ∀ answer ∈ response, answer.epoch = 0 ∨ (answer.epoch = 2 ∧ h.handshakeKeys = true)
  secured : h.complete = true → h.applicationKeys = true
  phased : h.complete = false → h.Phased

/-- What a handler leaves after an error. -/
structure Refused (h : Handshake) : Prop where
  incomplete : h.complete = false
  phased : h.Phased

/-- A handler ends in one way or the other. -/
abbrev Handles (x : HandshakeM (List HandshakeMessage)) (w : HandshakeWorld) : Prop :=
  Ends x w (fun response w' => Answered response w'.handshake) (fun _ w' => Refused w'.handshake)

theorem Refused.answered (refused : Refused h) : Answered [] h :=
  ⟨by simp, fun complete => absurd (complete.symm.trans refused.incomplete) (by simp), fun _ => refused.phased⟩

/-- Nothing a phase depends on changes but the phase, and whatever it is, it has what it implies. -/
abbrev Anywhere (w : HandshakeWorld) : Prop := ∀ w', w.Same w' → ∀ phase, Refused { w'.handshake with phase }

/-- A step that only moves a side on to its next phase. -/
theorem advance_ends {w : HandshakeWorld} {x : HandshakeM Unit} (anywhere : Anywhere w)
    (idle : Respects Idle x) {next : Handshake → Phase} :
    Handles (do x; modifyHandshake fun h => { h with phase := next h }; return []) w := by
  rw [Handles, ends_bind]
  refine (same_of_idle idle w).mono (fun _ w₁ same => ?_) (fun _ w₁ same => anywhere w₁ same _)
  rw [ends_bind, ends_modifyHandshake]
  exact ends_pure.mpr (anywhere w₁ same _).answered

/-- Before the hello of the other side a phase promises nothing. -/
theorem phased_of_hello (client : h.client = true → h.phase = .serverHello)
    (server : h.client = false → h.phase = .clientHello) : h.Phased :=
  ⟨fun side later => absurd (client side) later, fun side later => absurd (server side) later⟩

/-! ## The client -/

section Client

variable {w : HandshakeWorld}

private theorem retryRequest_still (hello : ServerHello) (w : HandshakeWorld) :
    Ends (retryRequest hello) w (fun response w' => (∀ m ∈ response, m.epoch = 0) ∧ w.Still w')
      (fun _ w' => w.Still w') := by
  unfold retryRequest
  rw [ends_bind, ends_getHandshake]
  refine ends_guard (Std.Refl.refl w) fun _ => check_still.next (Std.Refl.refl w) fun _ w₁ still₁ => ?_
  rw [ends_bind, ends_modifyHandshake]
  refine check_still.next still₁ fun _ w₂ still₂ => ?_
  refine (encodedMessage_still msgClientHello 0 w₂).next still₂ fun m w₃ sent still₃ => ?_
  exact ends_pure.mpr ⟨by simp [sent], still₃⟩

theorem takeConnectionID_idle (cid : Option Bytes) : Respects Idle (takeConnectionID cid) := by
  cases cid with
  | none => exact respects_pure ()
  | some cid => exact respects_bind (fun _ => rfl) fun _ => respects_bind check_idle fun _ _ => rfl

theorem takeRRC_idle : Respects Idle takeRRC :=
  respects_bind check_idle fun _ => respects_bind getHandshake_idle fun _ => respects_guard fun _ _ => rfl

/-- An accepted ServerHello starts the schedule. -/
theorem acceptHello_ends (hello : ServerHello) (w : HandshakeWorld) :
    Ends (acceptHello hello) w
      (fun _ w' => w'.handshake.client = w.handshake.client ∧
        w'.handshake.complete = w.handshake.complete ∧ w'.handshake.schedule.isSome)
      (fun _ w' => w.Still w') := by
  unfold acceptHello
  refine check_still.next (Std.Refl.refl w) fun _ w₁ still₁ => ?_
  refine (still_of_idle (takeConnectionID_idle _)).next still₁ fun _ w₂ still₂ => ?_
  refine (still_of_idle (respects_runIf takeRRC_idle)).next still₂ fun _ w₃ still₃ => ?_
  refine check_still.next still₃ fun _ w₄ still₄ => ?_
  refine (startSchedule_still hello.suite w₄).next still₄ fun _ w₅ scheduled still₅ => ?_
  exact ends_modifyHandshake.mpr ⟨still₅.client, still₅.complete, scheduled⟩

/-- A ServerHello is answered by a second ClientHello, or starts the schedule. -/
theorem serverHello_ends (w : HandshakeWorld) :
    Ends serverHello w
      (fun response w' => ((∀ m ∈ response, m.epoch = 0) ∧ w.Still w') ∨
        (response = [] ∧ w'.handshake.client = w.handshake.client ∧
          w'.handshake.complete = w.handshake.complete ∧ w'.handshake.schedule.isSome))
      (fun _ w' => w.Still w') := by
  unfold serverHello
  refine check_still.next (Std.Refl.refl w) fun _ w₁ still₁ => ?_
  rw [ends_bind, ends_getAnswers]
  dsimp only
  rw [ends_bind, ends_getHandshake]
  refine ends_guard still₁ fun _ => check_still.next still₁ fun _ w₂ still => ?_
  split
  · exact (retryRequest_still _ w₂).mono (fun _ _ outcome => .inl ⟨outcome.1, still.trans outcome.2⟩)
      (fun _ _ => still.trans)
  · rw [ends_bind]
    refine (acceptHello_ends _ w₂).mono (fun _ w₃ outcome => ?_) (fun _ _ => still.trans)
    exact ends_pure.mpr (.inr ⟨rfl, outcome.1.trans still.client, outcome.2.1.trans still.complete, outcome.2.2⟩)

/-- A client with a schedule. -/
structure Scheduled (h : Handshake) : Prop where
  client : h.client = true
  incomplete : h.complete = false
  schedule : h.schedule.isSome

theorem Scheduled.refused (scheduled : Scheduled h) (phase : Phase) : Refused { h with phase } where
  incomplete := scheduled.incomplete
  phased := ⟨fun _ _ => scheduled.schedule, fun side => absurd (side.symm.trans scheduled.client) (by simp)⟩

theorem Scheduled.still {w' : HandshakeWorld} (scheduled : Scheduled w.handshake) (still : w.Still w')
    (schedule : w'.handshake.schedule = w.handshake.schedule) : Scheduled w'.handshake :=
  ⟨still.client.trans scheduled.client, still.complete.trans scheduled.incomplete, schedule ▸ scheduled.schedule⟩

theorem Scheduled.anywhere (scheduled : Scheduled w.handshake) : Anywhere w := fun _ same =>
  (scheduled.still same.still same.schedule).refused

theorem finish_ends (w : HandshakeWorld) :
    Ends finish w
      (fun _ w' => w'.handshake.complete = true ∧ w'.handshake.schedule = w.handshake.schedule ∧
        w'.handshake.clientApplication = w.handshake.clientApplication)
      (fun _ w' => w.Same w') := by
  unfold finish
  rw [ends_bind]
  refine (check_same w).imp fun _ w₁ same => ?_
  exact ends_modifyHandshake.mpr ⟨rfl, same.schedule, same.clientApplication⟩

private theorem requestedFlight_same (requested : Bool) (w : HandshakeWorld) :
    Ends (requestedFlight requested) w (fun flight w' => (∀ m ∈ flight, m.epoch = 2) ∧ w.Same w')
      (fun _ w' => w.Same w') := by
  unfold requestedFlight
  rw [ends_bind, ends_getAnswers]
  split
  · rw [ends_bind]
    refine (check_same w).imp fun _ w₁ same => ?_
    exact (certificateFlight_same _ w₁).mono
      (fun _ _ outcome => ⟨outcome.1, same.trans outcome.2⟩) (fun _ _ => same.trans)
  · exact ends_pure.mpr ⟨by simp, Std.Refl.refl w⟩

private theorem finalFlight_ends (scheduled : Scheduled w.handshake) : Handles finalFlight w := by
  unfold finalFlight
  rw [Handles, ends_bind]
  refine (applicationSecrets_still w).mono (fun _ w₁ derived => ?_) (fun _ w₁ failed => ?_)
  · obtain ⟨keys, schedule, still⟩ := derived
    have anywhere := (scheduled.still still schedule).anywhere
    rw [ends_bind, ends_getHandshake, ends_bind]
    refine (requestedFlight_same _ w₁).mono (fun flight w₂ sent => ?_) (fun _ w' same => anywhere w' same _)
    rw [ends_bind]
    refine (encodedMessage_same msgFinished 2 w₂).mono (fun m w₃ finished => ?_)
      (fun _ w' same => anywhere w' (sent.2.trans same) _)
    have same₃ : w₁.Same w₃ := sent.2.trans finished.2
    rw [ends_bind]
    refine (finish_ends w₃).mono (fun _ w₄ finishes => ?_) (fun _ w' same => anywhere w' (same₃.trans same) _)
    obtain ⟨completed, schedule₄, application₄⟩ := finishes
    have keys₄ : w₄.handshake.applicationKeys = true := by
      simpa only [Handshake.applicationKeys, schedule₄, application₄, same₃.schedule,
        same₃.clientApplication] using keys
    refine ends_pure.mpr ⟨fun answer member => .inr ⟨?_, Handshake.handshakeKeys_of_applicationKeys keys₄⟩,
      fun _ => keys₄, fun incomplete => absurd (incomplete.symm.trans completed) (by simp)⟩
    rcases List.mem_append.mp member with early | last
    · exact sent.1 answer early
    · exact (List.mem_singleton.mp last) ▸ finished.1
  · exact (scheduled.still failed.2 failed.1).refused _

private theorem clientPhase_ends (phase : Phase) (m : HandshakeMessage) (scheduled : Scheduled w.handshake) :
    Handles (clientPhase phase m) w := by
  have anywhere := scheduled.anywhere
  have refused : Refused w.handshake := scheduled.refused _
  have certified : Handles (do
      throwIf (m.typ ≠ msgCertificate) .unexpectedMessage
      peerCertificate
      modifyHandshake fun h => { h with phase := .certificateVerify }
      return []) w := ends_guard refused fun _ => advance_ends anywhere peerCertificate_idle
  unfold clientPhase
  split
  · exact ends_guard refused fun _ => advance_ends anywhere check_idle
  · split
    · rw [Handles, ends_bind]
      refine (check_same w).mono (fun _ w₁ same => ?_) (fun _ w' same => anywhere w' same _)
      rw [ends_bind, ends_modifyHandshake]
      refine advance_ends (fun w' same' => anywhere w' (same.trans ?_)) check_idle
      exact same'
    · exact certified
  · exact certified
  · exact ends_guard refused fun _ => advance_ends anywhere peerCertificateVerify_idle
  · refine ends_guard refused fun _ => ?_
    rw [ends_bind]
    refine (same_of_idle peerFinished_idle w).mono (fun _ w₁ same => ?_) (fun _ w' same => anywhere w' same _)
    exact finalFlight_ends (scheduled.still same.still same.schedule)
  · exact ends_throw.mpr refused
  · exact ends_throw.mpr refused

private theorem clientHandle_ends (m : HandshakeMessage) (w : HandshakeWorld) (client : w.handshake.client = true)
    (incomplete : w.handshake.complete = false) (phased : w.handshake.Phased) : Handles (clientHandle m) w := by
  have refused : Refused w.handshake := ⟨incomplete, phased⟩
  unfold clientHandle
  rw [Handles, ends_bind, ends_getHandshake]
  refine ends_guard refused fun _ => ?_
  split
  · rename_i hello
    have waiting : ∀ w' : HandshakeWorld, w.Still w' → w'.handshake.Phased := fun w' still =>
      phased_of_hello (fun _ => still.phase.trans hello)
        (fun side => absurd (still.client.symm.trans side) (by simp [client]))
    refine ends_guard refused fun _ => ?_
    refine (serverHello_ends w).mono (fun response w' outcome => ?_)
      (fun _ w' still => ⟨still.complete.trans incomplete, waiting w' still⟩)
    rcases outcome with ⟨clear, still⟩ | ⟨rfl, client', complete', scheduled⟩
    · exact ⟨fun answer member => .inl (clear answer member),
        fun complete => absurd (complete.symm.trans (still.complete.trans incomplete)) (by simp),
          fun _ => waiting w' still⟩
    · exact Refused.answered (Scheduled.refused ⟨client'.trans client, complete'.trans incomplete, scheduled⟩ _)
  · rename_i later
    exact ends_guard refused fun _ => clientPhase_ends _ m ⟨client, incomplete, phased.client client later⟩

end Client

/-! ## The server -/

section Server

variable {w : HandshakeWorld}

/-- A server with application secrets keeps what its phase implies, whatever the phase. -/
theorem phased_of_applicationKeys (server : h.client = false) (keys : h.applicationKeys = true) (phase : Phase) :
    ({ h with phase } : Handshake).Phased :=
  ⟨fun side => absurd (side.symm.trans server) (by simp), fun _ _ => keys⟩

private theorem certificateRequest_same (clientAuth : Bool) (w : HandshakeWorld) :
    Ends (certificateRequest clientAuth) w (fun flight w' => (∀ m ∈ flight, m.epoch = 2) ∧ w.Same w')
      (fun _ w' => w.Same w') := by
  unfold certificateRequest
  split
  · rw [ends_bind]
    refine (encodedMessage_same msgCertificateRequest 2 w).imp fun m w₁ sent => ?_
    exact ends_pure.mpr ⟨by simp [sent.1], sent.2⟩
  · exact ends_pure.mpr ⟨by simp, Std.Refl.refl w⟩

theorem acceptOffer_idle (offer : Offer) : Respects Idle (modifyHandshake (acceptOffer offer)) := by
  refine respects_modify fun w => ?_
  unfold acceptOffer
  split
  · exact rfl
  · split <;> exact rfl

/-- The server's flight is answered with its secrets in place, or leaves the server at the ClientHello. -/
private theorem serverFlight_ends (offer : Offer) (w : HandshakeWorld) :
    Ends (serverFlight offer) w
      (fun response w' => (∀ m ∈ response, m.epoch = 0 ∨ m.epoch = 2) ∧ w'.handshake.applicationKeys = true ∧
        w'.handshake.client = w.handshake.client ∧ w'.handshake.complete = w.handshake.complete)
      (fun _ w' => w.Still w') := by
  unfold serverFlight
  refine check_still.next (Std.Refl.refl w) fun _ w₁ still₁ => ?_
  refine check_still.next still₁ fun _ w₂ still₂ => ?_
  refine check_still.next still₂ fun _ w₃ still₃ => ?_
  refine (still_of_idle (acceptOffer_idle offer)).next still₃ fun _ w₃ still₃ => ?_
  refine check_still.next still₃ fun _ w₄ still₄ => ?_
  rw [ends_bind, ends_modifyHandshake, ends_bind, ends_getHandshake]
  refine (encodedMessage_still msgServerHello 0 _).next still₄ fun hello w₅ sent still₅ => ?_
  refine check_still.next still₅ fun _ w₆ still₆ => ?_
  refine (startSchedule_still _ w₆).next still₆ fun _ w₇ _ still₇ => ?_
  refine check_still.next still₇ fun _ w₈ still₈ => ?_
  refine (encodedMessage_still msgEncryptedExtensions 2 w₈).next still₈ fun extensions w₉ encrypted still₉ => ?_
  rw [ends_bind]
  refine (certificateRequest_same _ w₉).mono (fun request w₁₀ requested => ?_) (fun _ _ same => still₉.trans same.still)
  have still₁₀ := still₉.trans requested.2.still
  rw [ends_bind]
  refine (certificateFlight_same true w₁₀).mono (fun certificates w₁₁ certified => ?_)
    (fun _ _ same => still₁₀.trans same.still)
  have still₁₁ := still₁₀.trans certified.2.still
  refine (encodedMessage_still msgFinished 2 w₁₁).next still₁₁ fun finished w₁₂ final still₁₂ => ?_
  rw [ends_bind]
  refine (applicationSecrets_still w₁₂).mono (fun _ w' derived => ?_) (fun _ _ failed => still₁₂.trans failed.2)
  have still' : w.Still w' := still₁₂.trans derived.2.2
  rw [ends_bind, ends_modifyHandshake]
  refine ends_pure.mpr ⟨fun m member => ?_, derived.1, still'.client, still'.complete⟩
  simp only [List.mem_append, List.mem_cons, List.not_mem_nil, or_false] at member
  rcases member with ((((rfl | rfl) | member) | member) | rfl)
  · exact .inl sent
  · exact .inr encrypted
  · exact .inr (requested.1 m member)
  · exact .inr (certified.1 m member)
  · exact .inr final

private theorem serverPhase_ends (phase : Phase) (m : HandshakeMessage) (server : w.handshake.client = false)
    (incomplete : w.handshake.complete = false) (keys : w.handshake.applicationKeys = true) :
    Handles (serverPhase phase m) w := by
  have anywhere : Anywhere w := fun w' same phase => by
    refine ⟨same.still.complete.trans incomplete, phased_of_applicationKeys (same.still.client.trans server) ?_ phase⟩
    simpa only [Handshake.applicationKeys, same.schedule, same.clientApplication] using keys
  have refused : Refused w.handshake := anywhere w rfl _
  unfold serverPhase
  split
  · exact ends_guard refused fun _ => advance_ends anywhere peerCertificate_idle
  · exact ends_guard refused fun _ => advance_ends anywhere peerCertificateVerify_idle
  · refine ends_guard refused fun _ => ?_
    rw [ends_bind]
    refine (same_of_idle peerFinished_idle w).mono (fun _ w₁ same => ?_) (fun _ w' same => anywhere w' same _)
    rw [ends_bind]
    refine (finish_ends w₁).mono (fun _ w₂ finishes => ?_) (fun _ w' same' => anywhere w' (same.trans same') _)
    obtain ⟨completed, schedule, application⟩ := finishes
    refine ends_pure.mpr ⟨by simp, fun _ => ?_, fun incomplete => absurd (incomplete.symm.trans completed) (by simp)⟩
    simpa only [Handshake.applicationKeys, schedule, application, same.schedule, same.clientApplication] using keys
  all_goals exact ends_throw.mpr refused

private theorem serverHandle_ends (m : HandshakeMessage) (w : HandshakeWorld) (server : w.handshake.client = false)
    (incomplete : w.handshake.complete = false) (phased : w.handshake.Phased) : Handles (serverHandle m) w := by
  have refused : Refused w.handshake := ⟨incomplete, phased⟩
  unfold serverHandle
  rw [Handles, ends_bind, ends_getHandshake]
  refine ends_guard refused fun _ => ?_
  split
  · rename_i hello
    refine ends_guard refused fun _ => ?_
    rw [ends_bind, ends_modifyHandshake]
    refine (serverFlight_ends _ _).mono (fun response w' outcome => ?_) (fun _ w' still => ?_)
    · obtain ⟨epochs, keys, client', complete'⟩ := outcome
      refine ⟨fun answer member => ?_, fun _ => keys, fun _ => phased_of_applicationKeys (client'.trans server) keys _⟩
      exact (epochs answer member).imp_right fun two => ⟨two, Handshake.handshakeKeys_of_applicationKeys keys⟩
    · exact ⟨still.complete.trans incomplete, phased_of_hello
        (fun side => absurd (still.client.symm.trans side) (by simp [server])) (fun _ => still.phase.trans hello)⟩
  · rename_i later
    exact ends_guard refused fun _ => serverPhase_ends _ m server incomplete (phased.server server later)

end Server

/-- One message of a running handshake: the answers have their keys, a complete handshake its
application secrets, and every other state what its phase implies. -/
theorem handle_ends (m : HandshakeMessage) (w : HandshakeWorld) (incomplete : w.handshake.complete = false)
    (phased : w.handshake.Phased) : Handles (handle m) w := by
  unfold handle
  rw [Handles, ends_bind, ends_getHandshake]
  split
  · exact clientHandle_ends m w ‹_› incomplete phased
  · exact serverHandle_ends m w (Bool.eq_false_of_not_eq_true ‹_›) incomplete phased

end Socat.Dtls13
