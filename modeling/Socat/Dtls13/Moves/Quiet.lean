import Socat.Dtls13.Moves.Taking

/-! # What leaves flights and the working MTU alone

Most of a session neither sends a handshake message nor looks at the packet size. `Calm` says that a
computation keeps the working MTU and the configured one, `Silent` that it touches neither the flights nor
the handshake records that went out. Sending other records, key and connection ID management and path
validation are both.
-/

namespace Socat.Dtls13

open Machine

/-- The configuration, the working MTU and its reductions. -/
def World.sizing (w : World) :=
  (w.session.handshake.config, w.session.working.pathMTU, w.session.working.reductions)

abbrev World.Calm : World → World → Prop := Unchanged World.sizing

theorem World.Calm.fields {w w' : World} (calm : w.Calm w') :
    w'.session.handshake.config = w.session.handshake.config ∧ w'.session.working.pathMTU = w.session.working.pathMTU ∧
      w'.session.working.reductions = w.session.working.reductions := by
  simpa only [Unchanged, World.sizing, Prod.mk.injEq] using calm

theorem World.Calm.effectiveMTU {w w' : World} (calm : w.Calm w') :
    w'.session.effectiveMTU = w.session.effectiveMTU := by
  unfold Session.effectiveMTU Session.mtuCeiling
  rw [calm.fields.1, calm.fields.2.1]

/-- The handshake records that went out, newest first. -/
def World.flown (w : World) : List Packet := w.history.wire.filter fun p => p.typ == contentHandshake

/-- Where the handshake stands, the flights in its slots (one without messages in an empty slot), those that were
answered, and what was sent. -/
structure Ledger where
  client : Bool
  complete : Bool
  phase : Phase
  sequence : ℕ
  held : Slot → Flight
  answered : List (HandshakeMessage × List HandshakeMessage)
  flown : List Packet

def World.ledger (w : World) : Ledger where
  client := w.session.handshake.client
  complete := w.session.handshake.complete
  phase := w.session.handshake.phase
  sequence := w.session.handshake.sequence
  held slot := (w.session.flight slot).getD default
  answered := w.history.answered
  flown := w.flown

abbrev World.Silent : World → World → Prop := Unchanged World.ledger

abbrev World.Quiet : World → World → Prop := Unchanged fun w => (w.sizing, w.ledger)

theorem World.Quiet.calm {w w' : World} (quiet : w.Quiet w') : w.Calm w' := congrArg Prod.fst quiet

theorem World.Quiet.silent {w w' : World} (quiet : w.Quiet w') : w.Silent w' := congrArg Prod.snd quiet

variable {α : Type} {R : World → World → Prop} {change : Session → Session} {typ : UInt8}
  {send : Packet → SessionM Unit}

open World (Quiet Silent Calm)

theorem calm_of_quiet {x : SessionM α} (quiet : Respects Quiet x) : Respects Calm x :=
  quiet.weaken fun _ _ => Quiet.calm

theorem silent_of_quiet {x : SessionM α} (quiet : Respects Quiet x) : Respects Silent x :=
  quiet.weaken fun _ _ => Quiet.silent

theorem respects_update {ref : FlightRef World} (stores : ∀ f w, R w (ref.store f w))
    (change : Flight → Flight) : Respects R (ref.update change) :=
  respects_modify fun w => stores _ w

section Transmission

variable {σ : Type} {R : σ → σ → Prop} [Std.Refl R] [IsTrans σ R]

variable {ref : FlightRef σ} {send : ℕ → Bytes → EStateM Err σ RecordNumber} {now : Time} {onlyNew : Bool}
  (records : ∀ w onlyNew index start stop number, number ∉ (ref.load w).sent →
    R w (ref.store ((ref.load w).record now onlyNew index start stop number) w))
  (sends : ∀ epoch body, Respects R (send epoch body))
include records sends

theorem respects_sendRange (index : ℕ) (m : HandshakeMessage) (start stop : ℕ) :
    Respects R (ref.sendRange now send onlyNew index m start stop) := by
  unfold FlightRef.sendRange
  refine respects_bind respects_get fun w => respects_ite (respects_throw _) ?_
  split
  · exact respects_throw _
  · refine respects_bind (sends _ _) fun number => respects_get_bind fun w => ?_
    rw [ends_ite, ends_ite]
    split_ifs with _ known
    · exact Std.Refl.refl w
    · exact Std.Refl.refl w
    · exact records w onlyNew index start stop number known

end Transmission

/-- What a quiet change of the session keeps. -/
def Session.kept (s : Session) := (s.handshake, s.working, s.flight)

/-- A change of the session that leaves flights and the working MTU alone. -/
theorem quiet_modifySession (kept : ∀ s, (change s).kept = s.kept) : Respects Quiet (modifySession change) := by
  refine respects_modify fun w => ?_
  obtain ⟨handshake, working, flight⟩ : _ ∧ _ ∧ _ := by simpa only [Session.kept, Prod.mk.injEq] using kept w.session
  simp only [Quiet, Unchanged, World.sizing, World.ledger, handshake, working, flight]
  rfl

theorem mtuOnly_silent {w : World} {s : Session} (only : w.session.MTUOnly s) : w.Silent { w with session := s } := by
  rw [← only]
  rfl

/-- A record of another content type is not one of the handshake. -/
theorem deliver_silent (w : World) {p : Packet} (other : p.typ ≠ contentHandshake) : w.Silent (w.deliver p) := by
  have flown : (w.deliver p).flown = w.flown := by
    have skipped : (p.typ == contentHandshake) = false := by simpa using other
    exact List.filter_cons_of_neg (by simp [skipped])
  simp only [Unchanged, World.ledger, flown]
  rfl

theorem transport_quiet {p : Packet} (other : p.typ ≠ contentHandshake) : Respects Quiet (transport p) :=
  fun w => transport_ends (fun _ => congrArg (_, ·) (deliver_silent w other))
    fun _ _ => rfl

theorem setLocal_quiet : Respects Quiet setLocal := fun _ =>
  setLocal_ends (fun _ => rfl) fun _ => rfl

theorem randRead_quiet (n : ℕ) : Respects Quiet (randRead n) := fun w =>
  randRead_ends (fun _ _ _ => rfl) fun _ => Std.Refl.refl w

private theorem installPair_quiet (epoch : ℕ) (client server : Bytes) :
    Respects Quiet (installPair epoch client server) := by
  refine respects_session fun s => respects_ite (respects_pure _) ?_
  dsimp only
  split
  · exact respects_throw _
  · exact respects_throw _
  · exact quiet_modifySession fun _ => rfl

private theorem usedLocalCID_quiet (cid : Bytes) : Respects Quiet (usedLocalCID cid) :=
  respects_session fun _ => respects_ite (respects_pure _) <|
    respects_bind setLocal_quiet fun _ => quiet_modifySession fun _ => rfl

theorem drawCIDs_quiet (existing : List Bytes) (size count : ℕ) :
    ∀ fuel ids, Respects Quiet (drawCIDs existing size count fuel ids) := by
  intro fuel
  induction fuel with
  | zero => exact fun _ => respects_throw _
  | succ fuel ih =>
    exact fun ids => respects_ite (respects_pure _) (respects_bind (randRead_quiet _) fun _ => ih _)

theorem retireHandshake_quiet (now : Time) : Respects Quiet (modifySession fun s => s.retireHandshake now) := by
  refine respects_modify fun w => ?_
  unfold Session.retireHandshake
  dsimp only
  split_ifs <;> exact rfl

theorem addFragments_quiet (number : RecordNumber) (body : Bytes) :
    Respects Quiet (addFragments number body) := by
  intro w
  refine ends_bind.mpr (ends_get.mpr (ends_bind.mpr (ends_set.mpr (ends_lift.mpr ⟨?_, ?_⟩))))
  · exact fun _ _ => rfl
  · exact fun _ _ => rfl

theorem popMessage_quiet : Respects Quiet popMessage := fun _ => rfl

theorem receiveAlert_quiet (number : RecordNumber) (body : Bytes) (encrypted : Bool) :
    Respects Quiet (receiveAlert number body encrypted) := by
  unfold receiveAlert
  split
  · refine respects_ite (quiet_modifySession fun s => ?_) (respects_throwIf _ _)
    unfold Session.notePeerClosed
    split <;> rfl
  · exact respects_throwIf _ _

theorem receiveData_quiet (number : RecordNumber) (body : Bytes) : Respects Quiet (receiveData number body) :=
  respects_session fun _ => respects_ite
    (respects_bind (quiet_modifySession fun _ => rfl) fun _ => respects_pure _)
    (respects_pure _)

theorem expireHandshakeRead_quiet (now : Time) :
    Respects Quiet (modifySession fun s => s.expireHandshakeRead now) := by
  refine quiet_modifySession fun s => ?_
  unfold Session.expireHandshakeRead
  split <;> rfl

theorem installKeys_quiet : Respects Quiet installKeys := by
  refine respects_session fun s => ?_
  split
  · exact respects_pure _
  · exact respects_bind (installPair_quiet _ _ _) fun _ => installPair_quiet _ _ _

variable [Crypto]

/-! ## Sending -/

theorem sendRecordLimited_quiet {epoch : ℕ} {body cid : Bytes} {padding limit : ℕ}
    (sends : ∀ p : Packet, p.typ = typ → Respects Quiet (send p)) :
    Respects Quiet (sendRecordLimited epoch typ body cid padding limit send) := fun w =>
  sendRecordLimited_ends (fun _ => Std.Refl.refl w) fun _ _ _ _ =>
    (sends _ rfl _).mono (fun _ _ => Unchanged.trans rfl)
      (fun _ _ => Unchanged.trans rfl)

theorem sendRecordWith_quiet {epoch : ℕ} {body cid : Bytes}
    (sends : ∀ p : Packet, p.typ = typ → Respects Quiet (send p)) :
    Respects Quiet (sendRecordWith epoch typ body cid send) :=
  respects_session fun _ => sendRecordLimited_quiet sends

theorem sendRecord_quiet (other : typ ≠ contentHandshake) (epoch : ℕ) (body : Bytes) :
    Respects Quiet (sendRecord epoch typ body) :=
  respects_session fun _ => sendRecordWith_quiet fun _ same => transport_quiet (same ▸ other)

theorem acknowledges_quiet : Acknowledges Quiet where
  change only := quiet_modifySession fun s => by
    rw [← only s]
    rfl
  send _ _ := sendRecord_quiet (by decide) _ _

theorem sendACK_quiet : Respects Quiet sendACK := acknowledges_quiet.sendACK

/-! ## Paths -/

theorem routes_quiet : Routes Quiet where
  change only := respects_modify fun w => by
    rw [← only w.session]
    rfl
  note only := respects_modify fun w => by
    rw [← only w.history]
    rfl
  random := randRead_quiet
  transport := transport_quiet
  send := sendRecordLimited_quiet

/-! ## Keys and post-handshake messages -/

theorem switchWriteKeys_quiet : Respects Quiet switchWriteKeys := by
  refine respects_session fun s => ?_
  split
  · exact respects_throw _
  split
  · exact respects_throw _
  · exact quiet_modifySession fun _ => rfl

private theorem receiveKeyUpdate_quiet (m : HandshakeMessage) : Respects Quiet (receiveKeyUpdate m) := by
  refine respects_session fun s => ?_
  split
  · refine respects_ite (respects_throw _) (respects_ite (respects_throw _) ?_)
    split
    · exact respects_bind (fun _ => rfl) fun _ => respects_throw _
    split
    · exact respects_throw _
    · exact respects_bind (respects_modify fun _ => rfl) fun _ => sendACK_quiet
  · exact respects_throw _

theorem receivePost_quiet (m : HandshakeMessage) : Respects Quiet (receivePost m) :=
  respects_session fun _ => respects_guard fun _ =>
    respects_ite (receiveKeyUpdate_quiet m) <|
      respects_ite (respects_receiveTicket sendACK_quiet m) <|
        respects_ite (respects_receiveCIDs sendACK_quiet routes_quiet m) <|
          respects_ite (respects_receiveCIDRequest sendACK_quiet routes_quiet m) (respects_throw _)

theorem alertError_quiet (opening : Bool) (e : Err) : Respects Quiet (alertError opening e) :=
  respects_session fun _ => respects_ite (respects_pure _) <|
    respects_bind (respects_attempt (sendRecord_quiet (by decide) _ _)) fun _ => respects_pure _

/-! ## Path MTU discovery and incoming records -/

omit [Crypto] in
theorem silent_mtuOnly (only : ∀ s : Session, s.MTUOnly (change s)) :
    Respects Silent (modifySession change) := respects_modify fun w => mtuOnly_silent (only w.session)

theorem tickMTUProbe_silent (now : Time) : Respects Silent (tickMTUProbe now) :=
  Discovers.tickMTUProbe ⟨fun only => silent_mtuOnly fun s => (only s).mtuOnly,
    fun _ _ _ => silent_of_quiet (routes_quiet.sendMTUProbe _ _ _),
      fun _ _ _ _ => silent_mtuOnly fun _ => Session.mtuOnly_probeRefused,
    fun _ => silent_mtuOnly fun _ => Session.mtuOnly_expireMTUProbe⟩ now

theorem openRecord_quiet (r : Record) (hasCID : Bool) : Respects Quiet (openRecord r hasCID) := fun _ =>
  openRecord_ends rfl (fun _ => rfl) (fun _ => rfl) (fun _ _ _ => ⟨rfl, fun _ => rfl⟩)
    fun _ _ _ _ _ => usedLocalCID_quiet _ _

theorem receiveRRC_silent (number : RecordNumber) (body : Bytes) (sender : PacketPath) (size : ℕ) (now : Time) :
    Respects Silent (receiveRRC number body sender size now) :=
  respects_session fun _ => respects_guard fun _ =>
    respects_bind (silent_of_quiet (routes_quiet.receivePath sender body size now)) fun _ =>
      silent_mtuOnly fun _ => Session.mtuOnly_receiveMTUProbe

end Socat.Dtls13
