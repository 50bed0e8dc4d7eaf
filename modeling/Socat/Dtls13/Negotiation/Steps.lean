import Socat.Dtls13.Negotiation.Codec
import Socat.Dtls13.Negotiation.Client

/-! # What the steps of a handshake do

For each step both sides share: what it has checked when it returns, and what it leaves behind when it
fails. Only the transcript grows on the way, and it grows by the messages that were taken.
-/

namespace Socat.Dtls13

/-- A message as it stands in the transcript. -/
def HandshakeMessage.bytes (m : HandshakeMessage) : Bytes := m.typ :: (be24 m.body.length ++ m.body)

theorem HandshakeMessage.transcript_eq_ok {m : HandshakeMessage} {bytes : Bytes} :
    m.transcript = .ok bytes ↔ m.body.length ≤ maxHandshakeBody ∧ m.bytes = bytes := by
  unfold transcript
  rw [Except.ite_error_eq_ok, not_lt, WireWriter.result_eq_ok]
  refine and_congr_right fun fits => ?_
  have most : m.body.length ≤ 0xffffff := fits.trans (by decide)
  simp [HandshakeMessage.bytes, WireWriter.vector24_data most, most]

namespace Negotiation

open Machine HandshakeState

/-- The schedule after more of the transcript. -/
def KeySchedule.extended (k : KeySchedule) (bytes : Bytes) : KeySchedule :=
  { k with transcript := k.transcript ++ bytes }

namespace KeySchedule

@[simp] theorem extended_nil (k : KeySchedule) : k.extended [] = k := by simp [extended]

@[simp] theorem extended_extended (k : KeySchedule) (first second : Bytes) :
    (k.extended first).extended second = k.extended (first ++ second) := by simp [extended]

private theorem write_eq_ok {k k' : KeySchedule} {m : HandshakeMessage} (written : k.write m = .ok k') :
    k' = k.extended m.bytes := by
  unfold write at written
  split at written
  · cases written
  · rename_i wire found
    cases written
    rw [(HandshakeMessage.transcript_eq_ok.mp found).2]
    rfl

end KeySchedule

namespace HandshakeState

theorem ends_writeTranscript (h : HandshakeState) (m : HandshakeMessage) :
    Ends (writeTranscript m) h
      (fun _ h' => ∃ k, h.schedule = some k ∧ h' = { h with schedule := some (k.extended m.bytes) })
      (fun _ h' => h' = h) := by
  unfold writeTranscript
  rw [ends_bind, ends_get]
  cases scheduled : h.schedule with
  | none => rfl
  | some k =>
    cases written : k.write m with
    | error e =>
      simp only [written]
      rfl
    | ok k' =>
      simp only [written, ends_set]
      exact ⟨k, rfl, by rw [KeySchedule.write_eq_ok written]⟩

/-- Only the transcript has grown, by messages whose types are among these, in their order. -/
def Grown (types : List UInt8) (h h' : HandshakeState) : Prop :=
  ∃ sequence clientApplication serverApplication sent, (List.map HandshakeMessage.typ sent).Sublist types ∧
    h' = { h with
    sequence, clientApplication, serverApplication
    schedule := h.schedule.map (·.extended (sent.flatMap HandshakeMessage.bytes)) }

variable {types more : List UInt8} {h h' : HandshakeState}

instance : Std.Refl (Grown types) where
  refl h := ⟨h.sequence, h.clientApplication, h.serverApplication, [], List.nil_sublist _, by
    cases h with
    | mk => simp⟩

theorem Grown.append {mid : HandshakeState} (first : Grown types h mid) (second : Grown more mid h') :
    Grown (types ++ more) h h' := by
  obtain ⟨sequence, clientApplication, serverApplication, sent, among, rfl⟩ := first
  obtain ⟨sequence', clientApplication', serverApplication', later, among', rfl⟩ := second
  refine ⟨sequence', clientApplication', serverApplication', sent ++ later, ?_, ?_⟩
  · rw [List.map_append]
    exact among.append among'
  · cases h.schedule <;> simp

theorem grown_bind {α β : Type} {x : HandshakeM β} {f : β → HandshakeM α} (types more : List UInt8)
    (first : Respects (Grown types) x) (rest : ∀ b, Respects (Grown more) (f b)) :
    Respects (Grown (types ++ more)) (x >>= f) := respects_compose first rest fun _ _ _ => Grown.append

theorem Grown.state (grown : Grown types h h') : h'.state = h.state := by
  obtain ⟨_, _, _, _, _, rfl⟩ := grown
  rfl

private theorem writeTranscript_grown (m : HandshakeMessage) : Respects (Grown [m.typ]) (writeTranscript m) := fun h =>
  (ends_writeTranscript h m).mono
    (fun _ _ ⟨k, scheduled, same⟩ => ⟨h.sequence, h.clientApplication, h.serverApplication, [m], .refl _, by
      rw [same, scheduled]
      simp⟩)
    (fun _ _ same => by
      subst same
      exact Std.Refl.refl _)

theorem message_grown (typ : UInt8) (epoch : ℕ) (body : Bytes) : Respects (Grown [typ]) (message typ epoch body) := by
  unfold message
  refine grown_bind [] [typ] respects_get fun h => grown_bind [] [typ] (respects_throwIf _ _) fun _ =>
    grown_bind [typ] [] (respects_runIf (writeTranscript_grown _)) fun _ =>
      grown_bind [] [] (respects_modify fun h => ?_) fun _ => respects_pure _
  refine ⟨h.sequence + 1, h.clientApplication, h.serverApplication, [], .slnil, ?_⟩
  cases h.schedule <;> simp

/-- A message of a scheduled handshake enters the transcript. -/
theorem ends_message {h : HandshakeState} {k : KeySchedule} (scheduled : h.schedule = some k)
    (incomplete : h.complete = false) (typ : UInt8) (epoch : ℕ) (body : Bytes) :
    Ends (message typ epoch body) h
      (fun m h' => h' = { h with sequence := h.sequence + 1, schedule := some (k.extended m.bytes) })
      (fun _ h' => h' = h) := by
  unfold message
  simp only [ends_bind, ends_get, ends_throwIf, ends_runIf, ends_modify, ends_pure]
  refine ⟨fun _ => trivial, fun _ => ⟨fun _ => ?_, fun unwritten => ?_⟩⟩
  · refine (ends_writeTranscript h _).imp fun _ h' written => ?_
    obtain ⟨k', before, rfl⟩ := written
    cases Option.some.inj (scheduled.symm.trans before)
    rfl
  · exact absurd ⟨by rw [scheduled]; rfl, incomplete⟩ unwritten

/-! ## The peer's messages -/

/-- Whether the handshake is complete, its configuration and the side. -/
def standing (h : HandshakeState) := (h.complete, h.config, h.client)

/-- A refused message of an early phase changes nothing that matters. -/
abbrev Kept : HandshakeState → HandshakeState → Prop := Unchanged fun h => (h.standing, h.schedule)

/-- An accepted message enters the transcript. -/
def Advanced (m : HandshakeMessage) (h h' : HandshakeState) : Prop :=
  h'.standing = h.standing ∧ ∃ k, h.schedule = some k ∧ h'.schedule = some (k.extended m.bytes)

section

variable [CertificateService]

/-- A Certificate with the chain that `verifyPeer` passed. -/
def Presented (h : HandshakeState) (outside : Outside) (m : HandshakeMessage) (certificates : List X509) : Prop :=
  ∃ raw, parseCertificate m.body [] = .ok raw ∧ verifyPeer h.config raw h.client outside = .ok certificates

theorem ends_peerCertificate (h : HandshakeState) (outside : Outside) (m : HandshakeMessage) :
    Ends (peerCertificate outside m) h
      (fun _ h' => Advanced m h h' ∧ h.Presented outside m h'.state.peerCertificates) (fun _ => Kept h) := by
  unfold peerCertificate
  rw [ends_bind, ends_get]
  cases parsed : parseCertificate m.body [] with
  | error e => exact rfl
  | ok raw =>
    simp only
    cases verified : verifyPeer h.config raw h.client outside with
    | error e =>
      simp only [ends_bind, ends_set, ends_throw]
      exact rfl
    | ok certificates =>
      simp only [ends_bind, ends_set]
      refine (ends_writeTranscript _ m).mono ?_ ?_
      · rintro _ _ ⟨k, scheduled, rfl⟩
        exact ⟨⟨rfl, k, scheduled, rfl⟩, raw, parsed, verified⟩
      · rintro _ _ rfl
        exact rfl

variable [Digests]

/-- A CertificateVerify that the leaf key verifies over the transcript. -/
def Verified (h : HandshakeState) (m : HandshakeMessage) : Prop :=
  ∃ leaf rest k, h.state.peerCertificates = leaf :: rest ∧ h.schedule = some k ∧
    verifyCertificateVerify leaf.key signatureSchemes m.body k.transcriptSum h.client = .ok ()

theorem ends_peerCertificateVerify (h : HandshakeState) (m : HandshakeMessage) :
    Ends (peerCertificateVerify m signatureSchemes) h
      (fun _ h' => Advanced m h h' ∧ h'.state.peerCertificates = h.state.peerCertificates ∧ h.Verified m)
      (fun _ h' => h' = h) := by
  unfold peerCertificateVerify
  rw [ends_bind, ends_get]
  cases certificates : h.state.peerCertificates with
  | nil => rfl
  | cons leaf rest =>
    cases scheduled : h.schedule with
    | none => rfl
    | some k =>
      simp only
      cases verified : verifyCertificateVerify leaf.key signatureSchemes m.body k.transcriptSum h.client with
      | error e => rfl
      | ok _ =>
        refine (ends_writeTranscript _ m).imp ?_
        rintro _ _ ⟨k', scheduled', rfl⟩
        exact ⟨⟨rfl, k', scheduled', rfl⟩, certificates, leaf, rest, k, certificates, scheduled, verified⟩

end

variable [Digests]

/-- A Finished that is the MAC over the transcript. -/
def Confirmed (h : HandshakeState) (m : HandshakeMessage) : Prop :=
  ∃ k, h.schedule = some k ∧ k.finished (h.peerSecret k) = .ok m.body

/-- A Finished that was the MAC over the transcript is in it, and own messages of these types after it. -/
def Left (types : List UInt8) (m : HandshakeMessage) (h h' : HandshakeState) : Prop :=
  ∃ k, h.schedule = some k ∧ k.finished (h.peerSecret k) = .ok m.body ∧
    Grown types { h with schedule := some (k.extended m.bytes) } h'

theorem ends_peerFinished (h : HandshakeState) (m : HandshakeMessage) :
    Ends (peerFinished m) h (fun _ => Left [] m h) (fun _ h' => h' = h) := by
  unfold peerFinished
  rw [ends_bind, ends_get]
  cases scheduled : h.schedule with
  | none => rfl
  | some k =>
    simp only
    cases want : k.finished (h.peerSecret k) with
    | error e => rfl
    | ok body =>
      refine ends_guard rfl fun same => (ends_writeTranscript h m).imp ?_
      rintro _ _ ⟨k', found, rfl⟩
      cases Option.some.inj (scheduled.symm.trans found)
      exact ⟨k, scheduled, by rw [want, not_not.mp same], Std.Refl.refl _⟩

omit [Digests] in
theorem ends_finish (h : HandshakeState) (outside : Outside) :
    Ends (finish outside) h
      (fun _ h' => h' = { h with
        state.handshakeComplete := true
        complete := true
        peerCIDUpdates := h.cidNegotiated && !h.peerCID.isEmpty })
      (fun _ h' => h' = h) := by
  unfold finish
  rw [ends_bind, ends_get]
  split
  · rfl
  · rfl

theorem certificateFlight_grown (outside : Outside) (cert : Option OwnCertificate) (scheme : U16) :
    Respects (Grown [msgCertificate, msgCertificateVerify]) (certificateFlight outside cert scheme) := by
  unfold certificateFlight
  split
  · exact respects_throw _
  · refine grown_bind [msgCertificate] [msgCertificateVerify] (message_grown _ _ _) fun certificate =>
      grown_bind [] [msgCertificateVerify] respects_get fun h => ?_
    split
    · exact respects_pure _
    · exact respects_throw _
    · split
      · exact respects_throw _
      · split
        · exact respects_throw _
        · exact grown_bind [msgCertificateVerify] [] (message_grown _ _ _) fun _ => respects_pure _

/-- The messages of a certificate enter the transcript. -/
theorem ends_certificateFlight {h : HandshakeState} {k : KeySchedule} (scheduled : h.schedule = some k)
    (incomplete : h.complete = false) (outside : Outside) (cert : Option OwnCertificate) (scheme : U16) :
    Ends (certificateFlight outside cert scheme) h
      (fun flight h' => ∃ sequence, h' =
        { h with sequence, schedule := some (k.extended (flight.flatMap HandshakeMessage.bytes)) })
      (fun _ => Grown [msgCertificate, msgCertificateVerify] h) := by
  suffices returns : Ends (certificateFlight outside cert scheme) h (fun flight h' => ∃ sequence, h' =
      { h with sequence, schedule := some (k.extended (flight.flatMap HandshakeMessage.bytes)) }) (fun _ _ => True) from
    (returns.and (certificateFlight_grown outside cert scheme h)).mono (fun _ _ both => both.1) (fun _ _ both => both.2)
  unfold certificateFlight
  split
  · trivial
  · rename_i body _
    rw [ends_bind]
    refine (ends_message scheduled incomplete msgCertificate 2 body).mono (fun certificate h₁ sent => ?_)
      (fun _ _ _ => trivial)
    subst sent
    simp only [ends_bind, ends_get]
    split
    · exact ends_pure.mpr ⟨h.sequence + 1, by simp⟩
    · trivial
    · split
      · trivial
      · split
        · trivial
        · rename_i verifyBody _
          rw [ends_bind]
          have next :=
            ends_message (h := { h with sequence := h.sequence + 1, schedule := some (k.extended certificate.bytes) })
            rfl incomplete msgCertificateVerify 2 verifyBody
          refine next.mono (fun verify h₂ sent => ?_) (fun _ _ _ => trivial)
          subst sent
          exact ends_pure.mpr ⟨h.sequence + 1 + 1, by simp⟩

end HandshakeState

/-! ## The client's own steps -/

namespace ClientHandshake

theorem ends_shared {α : Type} {x : HandshakeM α} {c : ClientHandshake} {Q : α → ClientHandshake → Prop}
    {E : Err → ClientHandshake → Prop} :
    Ends (shared x) c Q E ↔ Ends x c.toHandshakeState (fun a h => Q a { c with toHandshakeState := h })
      (fun e h => E e { c with toHandshakeState := h }) := by
  unfold Ends shared
  cases x c.toHandshakeState <;> rfl

/-- Only the transcript has grown, by messages whose types are among these. -/
def Grown (types : List UInt8) (c c' : ClientHandshake) : Prop :=
  ∃ h, HandshakeState.Grown types c.toHandshakeState h ∧ c' = { c with toHandshakeState := h }

instance {types : List UInt8} : Std.Refl (Grown types) where
  refl c := ⟨c.toHandshakeState, Std.Refl.refl _, rfl⟩

theorem Grown.append {types more : List UInt8} {c mid c' : ClientHandshake} (first : Grown types c mid)
    (second : Grown more mid c') : Grown (types ++ more) c c' := by
  obtain ⟨h, grown, rfl⟩ := first
  obtain ⟨h', grown', rfl⟩ := second
  exact ⟨h', grown.append grown', rfl⟩

theorem grown_bind {α β : Type} {x : ClientM β} {f : β → ClientM α} (types more : List UInt8)
    (first : Respects (Grown types) x) (rest : ∀ b, Respects (Grown more) (f b)) :
    Respects (Grown (types ++ more)) (x >>= f) := respects_compose first rest fun _ _ _ => Grown.append

theorem shared_grown {types : List UInt8} {α : Type} {x : HandshakeM α}
    (grown : Respects (HandshakeState.Grown types) x) : Respects (Grown types) (shared x) := fun c =>
  ends_shared.mpr ((grown c.toHandshakeState).mono (fun _ h step => ⟨h, step, rfl⟩) (fun _ h step => ⟨h, step, rfl⟩))

section

variable [Digests]

private theorem applicationSecrets_grown : Respects (Grown []) applicationSecrets := by
  refine respects_get_bind fun c => ?_
  split
  · exact ends_throw.mpr (Std.Refl.refl (r := Grown []) c)
  · rename_i k scheduled
    refine ends_set.mpr ⟨_, ⟨c.sequence, k.applicationSecrets.1, k.applicationSecrets.2, [], .slnil, ?_⟩, rfl⟩
    cases c.schedule <;> simp

private theorem ownCertificate_grown (outside : Outside) [CertificateService] :
    Respects (Grown [msgCertificate, msgCertificateVerify]) (ownCertificate outside) := by
  unfold ownCertificate
  refine grown_bind [] [msgCertificate, msgCertificateVerify] respects_get fun c => respects_ite ?_ (respects_pure _)
  exact grown_bind [] [msgCertificate, msgCertificateVerify] (respects_lift _) fun chosen =>
    shared_grown (certificateFlight_grown _ _ _)

private theorem clientFinished_grown : Respects (Grown [msgFinished]) clientFinished := by
  unfold clientFinished
  refine grown_bind [] [msgFinished] respects_get fun c => ?_
  split
  · exact respects_throw _
  · exact grown_bind [] [msgFinished] (respects_lift _) fun body =>
      shared_grown (message_grown _ _ _)

/-- The messages of the client's final flight. -/
def finalTypes : List UInt8 := [msgCertificate, msgCertificateVerify, msgFinished]

/-- The final flight completes the handshake, or only adds to the transcript. -/
theorem ends_finalFlight [CertificateService] (c : ClientHandshake) (outside : Outside) :
    Ends (finalFlight outside) c (fun _ c' => c'.complete = true) (fun _ => Grown finalTypes c) := by
  unfold finalFlight
  rw [ends_bind]
  refine (applicationSecrets_grown c).mono (fun _ c₁ first => ?_) fun _ c' first =>
    first.append (Std.Refl.refl (r := Grown finalTypes) c')
  rw [ends_bind]
  refine (ownCertificate_grown outside c₁).mono (fun _ c₂ second => ?_) fun _ c' second =>
    (first.append second).append (Std.Refl.refl (r := Grown [msgFinished]) c')
  rw [ends_bind]
  refine (clientFinished_grown c₂).mono (fun _ c₃ third => ?_) fun _ _ third => (first.append second).append third
  rw [ends_bind, ends_shared]
  refine (ends_finish _ outside).mono (fun _ h same => ?_) (fun _ h same => ?_)
  · subst same
    rfl
  · subst same
    exact (first.append second).append third

end

/-! ## What a message changes at the client -/

/-- A refused message of an early phase leaves the client there. -/
abbrev Kept : ClientHandshake → ClientHandshake → Prop := Unchanged fun c => ((c.standing, c.schedule), c.phase)

/-- An accepted message takes the client to a phase. -/
def Advanced (m : HandshakeMessage) (phase : Phase) (c c' : ClientHandshake) : Prop :=
  HandshakeState.Advanced m c.toHandshakeState c'.toHandshakeState ∧ c'.phase = phase

theorem takeExtension_kept (entry : U16 × Bytes) : Respects Kept (takeExtension entry) := by
  unfold takeExtension
  refine respects_get_bind fun c => ?_
  have same : Kept c c := rfl
  refine ends_guard same fun _ => ?_
  split
  · exact ends_throwIf.mpr ⟨fun _ => same, fun _ => same⟩
  · split
    · rw [ends_bind, ends_lift]
      refine ⟨fun protocols _ => ?_, fun _ _ => same⟩
      split
      · rw [ends_bind, ends_throwIf]
        exact ⟨fun _ => same, fun _ => ends_set.mpr rfl⟩
      · exact same
    · split
      · rw [ends_bind, ends_lift]
        exact ⟨fun _ _ => same, fun _ _ => same⟩
      · exact same

private theorem takeExtensions_kept (entries : List (U16 × Bytes)) : Respects Kept (takeExtensions entries) := by
  induction entries with
  | nil => exact respects_pure _
  | cons entry rest ih => exact respects_bind (takeExtension_kept entry) fun _ => ih

theorem ends_takeEncryptedExtensions (c : ClientHandshake) (m : HandshakeMessage) :
    Ends (takeEncryptedExtensions m) c
      (fun _ c' => m.typ = msgEncryptedExtensions ∧ Advanced m .certificateRequest c c')
      (fun _ c' => Kept c c') := by
  have same : Kept c c := rfl
  unfold takeEncryptedExtensions encryptedExtensions
  simp only [ends_bind, ends_throwIf, ends_lift]
  refine ⟨fun _ => same, fun typ => ⟨fun _ => same, fun _ => ⟨fun ext _ => ?_, fun _ _ => same⟩⟩⟩
  refine (takeExtensions_kept ext.entries c).imp fun _ c₁ kept => ?_
  rw [ends_shared]
  refine (ends_writeTranscript _ m).mono (fun _ h written => ?_) (fun _ h same => ?_)
  · obtain ⟨k, scheduled, rfl⟩ := written
    have schedule : c₁.schedule = c.schedule := congrArg (·.1.2) kept
    exact ⟨not_not.mp typ, ⟨congrArg (·.1.1) kept, k, schedule.symm.trans scheduled, rfl⟩, rfl⟩
  · subst same
    exact kept

theorem ends_takeCertificateRequest (c : ClientHandshake) (m : HandshakeMessage) :
    Ends (takeCertificateRequest m) c (fun _ c' => Advanced m .certificate c c') (fun _ c' => Kept c c') := by
  unfold takeCertificateRequest
  split
  · exact rfl
  · simp only [ends_bind, ends_modify]
    rw [ends_shared]
    refine (ends_writeTranscript _ m).mono (fun _ h written => ?_) (fun _ h same => ?_)
    · obtain ⟨k, scheduled, rfl⟩ := written
      exact ⟨⟨rfl, k, scheduled, rfl⟩, rfl⟩
    · subst same
      exact rfl

theorem ends_takeCertificate [CertificateService] (c : ClientHandshake) (outside : Outside) (m : HandshakeMessage) :
    Ends (takeCertificate outside m) c
      (fun _ c' => m.typ = msgCertificate ∧ Advanced m .certificateVerify c c' ∧
        c.Presented outside m c'.state.peerCertificates)
      (fun _ => Kept c) := by
  refine ends_guard rfl fun typ => ?_
  rw [ends_bind, ends_shared]
  refine (ends_peerCertificate _ outside m).mono (fun _ h taken => ?_) (fun _ h => congrArg (·, _))
  exact ⟨not_not.mp typ, ⟨taken.1, rfl⟩, taken.2⟩

theorem ends_takeCertificateVerify [CertificateService] [Digests] (c : ClientHandshake) (m : HandshakeMessage) :
    Ends (takeCertificateVerify m) c
      (fun _ c' => m.typ = msgCertificateVerify ∧ Advanced m .finished c c' ∧
        c'.state.peerCertificates = c.state.peerCertificates ∧ c.Verified m)
      (fun _ c' => c' = c) := by
  refine ends_guard rfl fun typ => ?_
  rw [ends_bind, ends_shared]
  refine (ends_peerCertificateVerify _ m).mono (fun _ h taken => ?_) (fun _ h same => ?_)
  · exact ⟨not_not.mp typ, ⟨taken.1, rfl⟩, taken.2⟩
  · subst same
    rfl

/-- A Finished completes the handshake; refused, it stays in the transcript if its MAC was right. -/
theorem ends_takeFinished [CertificateService] [Digests] (c : ClientHandshake) (outside : Outside)
    (m : HandshakeMessage) :
    Ends (takeFinished outside m) c
      (fun _ c' => m.typ = msgFinished ∧ c'.complete = true ∧ c.Confirmed m)
      (fun _ c' => c' = c ∨ m.typ = msgFinished ∧
        ∃ h, Left finalTypes m c.toHandshakeState h ∧ c' = { c with toHandshakeState := h }) := by
  refine ends_guard (.inl rfl) fun typ => ?_
  rw [ends_bind, ends_shared]
  refine (ends_peerFinished _ m).mono (fun _ h left => ?_) (fun _ h same => ?_)
  · obtain ⟨k, scheduled, matched, grown⟩ := left
    refine (ends_finalFlight _ outside).mono (fun _ c' complete => ?_) (fun _ c' more => ?_)
    · exact ⟨not_not.mp typ, complete, k, scheduled, matched⟩
    · obtain ⟨h', grown', rfl⟩ := more
      exact .inr ⟨not_not.mp typ, h', ⟨k, scheduled, matched, grown.append grown'⟩, rfl⟩
  · subst same
    exact .inl rfl

end ClientHandshake

end Negotiation

end Socat.Dtls13
