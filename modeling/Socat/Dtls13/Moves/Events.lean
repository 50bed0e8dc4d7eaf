import Socat.Dtls13.Moves.Receive

/-! # Events as moves

Every event of the driver is a sequence of moves. An event that ends the association may leave one
thing undone, which `Breaks` lists; an event after which the association runs leaves every
outstanding flight with a timer and a pending key update waiting for some message.
-/

namespace Socat.Dtls13

open Machine

variable [Crypto]

/-! ## Timers -/

private theorem tick_breaks (now : Time) : Obeys breaking (tick now) := by
  unfold tick
  refine obeys_bind (Obeys.actingBreaks (expireHandshakeRead_acts now)) fun _ => ?_
  refine obeys_bind (Respects.breaking (tickMTUProbe_sends now)) fun _ => ?_
  refine obeys_bind (Respects.breaking (routes_sends.tickPath now)) fun _ => ?_
  refine obeys_bind (obeys_session fun _ =>
    Respects.breaking (respects_runIf (acknowledges_sends.sendScheduledACK now))) fun _ => ?_
  refine obeys_bind (Respects.breaking (repeats_sends.expireOutbound now)) fun _ => ?_
  refine obeys_bind (Respects.breaking (repeats_sends.retransmitExpired _ now)) fun _ => ?_
  refine obeys_bind (Respects.breaking (repeats_sends.retransmitExpired _ now)) fun _ => ?_
  refine obeys_bind (Respects.breaking (repeats_sends.retransmitExpired _ now)) fun _ => ?_
  exact Obeys.actingBreaks (advancePost_acts now)

/-! ## Alerts and the end of the handshake -/

private theorem alertError_sends (opening : Bool) (e : Err) : Respects sending.done (alertError opening e) :=
  respects_session fun _ => respects_ite (respects_pure _) <|
    respects_bind (respects_attempt (sendRecord_sends _ _ _)) fun _ => respects_pure _

variable {w : World}

/-- An error is followed by its alert. -/
theorem alerted_breaks {k : Endpoint} {opening : Bool} (broken : Breaks k w.endpoint) (e : Err) :
    Ends (do alertError opening e; throw e : SessionM Unit) w (fun _ w' => Acts k w'.endpoint)
      (fun _ w' => Breaks k w'.endpoint) := by
  rw [ends_bind]
  exact (alertError_sends opening e w).mono (fun _ _ => broken.send) (fun _ _ => broken.send)

private theorem driveProcess_breaks (now : Time) : Obeys breaking (driveProcess now) := by
  intro w good
  unfold driveProcess
  rw [ends_bind, ends_attempt]
  exact (processHandshakes_breaks now w good).mono (fun _ _ => id)
    (fun e _ broken => alerted_breaks broken e)

private theorem receivePacket_breaks (datagram : Bytes) (sender : PacketPath) (now : Time) :
    Obeys breaking (receivePacket datagram sender now) := by
  intro w good
  unfold receivePacket
  rw [ends_bind, ends_attempt]
  exact (receiveFrom_breaks datagram sender now w good).mono (fun _ _ => id)
    (fun e _ broken => alerted_breaks broken e)

private theorem becomeReady_sends (canProbe : Bool) : Respects sending.done (becomeReady canProbe) :=
  respects_session fun _ => respects_ite
    (respects_bind sendACK_sends fun _ => sends_modifySession fun _ => rfl) (respects_pure _)

private theorem commandCloseWrite_sends : Respects sending.done commandCloseWrite :=
  respects_session fun _ => respects_ite (respects_pure _) <|
    respects_bind (sendRecord_sends _ _ _) fun _ => respects_pure _

private theorem teardown_sends : Respects sending.done teardown := by
  refine respects_session fun s => ?_
  split
  · refine respects_bind (respects_attempt (respects_session fun _ => ?_)) fun _ => respects_pure _
    exact sendRecordLimited_sends fun _ same => routes_sends.transport (same ▸ by decide)
  · exact respects_pure _

private theorem driveStart_breaks (messages : List HandshakeMessage) (now : Time) :
    Obeys breaking (driveStart messages now) := by
  intro w good
  unfold driveStart
  rw [ends_session, ends_runIf]
  refine ⟨fun incomplete => ?_, fun _ => .refl _⟩
  have idle : w.endpoint.updating = false := Bool.eq_false_iff.mpr fun updating =>
    absurd (incomplete.symm.trans (good.finished updating).1) (by simp)
  refine startFlight_breaks idle fun t installs _ m member => ?_
  obtain ⟨original, -, rfl⟩ := List.mem_map.mp member
  exact (Installs.kept installs (good.kept incomplete)).1

/-! ## User data -/

private theorem sendApplication_sends (body : Bytes) : Respects sending.done (sendApplication body) := by
  refine respects_session fun s => respects_bind (respects_attempt (sendRecord_sends _ _ _)) fun outcome => ?_
  split
  · exact sends_mtuOnly fun _ => Session.mtuOnly_noteMTUActivity
  · exact respects_bind (respects_runIf (sends_mtuOnly fun _ => Session.mtuOnly_onApplicationTooBig))
      fun _ => respects_throw _

theorem application_sends (body : Bytes) : Respects sending.done (application body) := by
  refine respects_session fun s => respects_guard fun _ => respects_guard fun _ => respects_guard fun _ => ?_
  split
  · exact respects_throw _
  · rename_i keys _
    generalize keys.recordLimit - 1024 = limit
    exact respects_ite (respects_bind (sends_modifySession fun _ => rfl) fun _ => respects_throw _)
      (sendApplication_sends body)

private theorem commandWrite_acts (body : Bytes) (now : Time) : Obeys acting (commandWrite body now) := by
  refine obeys_bind (Respects.acting (respects_attempt (application_sends body))) fun outcome => ?_
  split
  · exact obeys_pure _
  · exact obeys_bind (advancePost_acts now) fun _ => obeys_throw _
  · exact obeys_throw _

theorem provideCIDs_acts (count : ℕ) (immediate : Bool) (now : Time) :
    Obeys acting (provideCIDs count immediate now) := fun _ _ =>
  provideCIDs_ends.imp fun _ _ outcome => outcome.1

/-! ## Events -/

/-- A command acts even when it fails. -/
theorem drive_acts {event : Event} (command : event.fatal = false) : Obeys acting (drive event) := by
  cases event with
  | write body now => exact commandWrite_acts body now
  | updateKeys requestPeer now => exact requestKeyUpdate_acts requestPeer now
  | rotateCID now => exact provideCIDs_acts _ _ now
  | closeWrite => exact Respects.acting commandCloseWrite_sends
  | start | process | receive | tick | ready | close => cases command

theorem drive_breaks (event : Event) : Obeys breaking (drive event) := by
  cases event with
  | start messages now => exact driveStart_breaks messages now
  | process now => exact driveProcess_breaks now
  | receive datagram sender now => exact receivePacket_breaks datagram sender now
  | tick now => exact tick_breaks now
  | ready canProbe => exact Respects.breaking (becomeReady_sends canProbe)
  | close => exact Respects.breaking teardown_sends
  | write | updateKeys | rotateCID | closeWrite => exact Obeys.actingBreaks (drive_acts rfl)

/-! ## Runs -/

theorem Lapse.good {k k' : Endpoint} (lapse : Lapse k k') (good : k.Good) : k'.Good := by
  obtain ⟨flagged, finished, kept, phased⟩ := good
  have idle : k.handshake.complete = false → k.updating ≠ true := fun incomplete updating =>
    absurd (incomplete.symm.trans (finished updating).1) (by simp)
  cases lapse with
  | unsecured handshake incomplete later =>
    exact ⟨flagged, fun updating => absurd updating (idle incomplete), fun _ => kept incomplete, later⟩
  | unkeyed messages incomplete =>
    refine ⟨fun outstanding => flagged ?_, fun updating => absurd updating (idle incomplete), kept, phased⟩
    have other : Slot.post .keyUpdate ≠ .outbound := by simp
    exact (Endpoint.outstanding_of_update rfl other).mp outstanding
  | _ => exact ⟨flagged, finished, kept, phased⟩

/-- Called in any order, the methods of a session make moves and perhaps one lapse. -/
theorem operate_breaks {op : Operation} (good : w.endpoint.Good) :
    Ends (operate op) w (fun _ w' => Breaks w.endpoint w'.endpoint)
      (fun _ w' => Breaks w.endpoint w'.endpoint) := by
  have acted : ∀ {x : SessionM Unit}, Obeys breaking x →
      Ends x w (fun _ w' => Breaks w.endpoint w'.endpoint)
        (fun _ w' => Breaks w.endpoint w'.endpoint) :=
    fun obeys => (obeys w good).imp fun _ _ => Acts.breaks
  have sent : ∀ {x : SessionM Unit}, Respects sending.done x →
      Ends x w (fun _ w' => Breaks w.endpoint w'.endpoint)
        (fun _ w' => Breaks w.endpoint w'.endpoint) :=
    fun obeys => acted (Respects.breaking obeys)
  cases op with
  | event event => exact acted (drive_breaks event)
  | installKeys =>
    refine installKeys_ends.mono (fun _ w' installed => ?_) (fun _ w' failed => ?_)
    · obtain ⟨t, rfl, installs, -⟩ := installed
      exact (Installs.acts installs).breaks
    · obtain ⟨t, rfl, installs⟩ := failed
      exact (Installs.acts installs).breaks
  | startFlight messages now =>
    simp only [operate]
    rw [ends_session, ends_runIf]
    exact ⟨fun incomplete => startFlight_unkeyed incomplete, fun _ => (Acts.refl _).breaks⟩
  | transmit slot now => exact sent (retransmit_sends slot now)
  | retransmitExpired slot now => exact sent (repeats_sends.retransmitExpired slot now)
  | sendACK => exact sent sendACK_sends
  | sendScheduledACK now => exact sent (acknowledges_sends.sendScheduledACK now)
  | application body => exact sent (application_sends body)
  | alert epoch body => exact sent (respects_bind (sendRecord_sends _ _ _) fun _ => respects_pure ())
  | challenge now => exact sent (routes_sends.challenge now)
  | sendMessage dest typ cookie credit => exact sent (routes_sends.sendMessage dest typ cookie credit)
  | sendMTUProbe datagramSize now kind => exact sent (routes_sends.sendMTUProbe datagramSize now kind)
  | advancePost now => exact acted (Obeys.actingBreaks (advancePost_acts now))
  | provideCIDs count immediate now => exact acted (Obeys.actingBreaks (provideCIDs_acts count immediate now))
  | discardHandshakeRead =>
    exact ends_modifySession.mpr (Acts.breaks (Move.acts .discardRead rfl rfl))
  | receiveFrom datagram sender now =>
    exact acted (obeys_bind (receiveFrom_breaks datagram sender now) fun _ => obeys_pure ())

/-- An invariant of moves and lapses holds after every operation, whatever its outcome. -/
theorem Step.invariant {P : Endpoint → Prop}
    (move : ∀ k k', k.Good → P k → Move k k' → P k')
    (lapse : ∀ k k', k.Good → P k → Lapse k k' → P k') {w' : World} (step : Step w w')
    (good : w.endpoint.Good) (inv : P w.endpoint) : w'.endpoint.Good ∧ P w'.endpoint := by
  have moved : ∀ {k k'}, Moves k k' → k.Good → P k → k'.Good ∧ P k' := by
    intro k k' moves good inv
    induction moves with
    | refl => exact ⟨good, inv⟩
    | tail _ last ih => exact ⟨last.good ih.1, move _ _ ih.1 ih.2 last⟩
  have broken : ∀ w' : World, Breaks w.endpoint w'.endpoint →
      w'.endpoint.Good ∧ P w'.endpoint := by
    rintro w' ⟨k₁, k₂, moves, lapsed, sends⟩
    obtain ⟨good₁, inv₁⟩ := moved moves good inv
    exact moved sends.moves (lapsed.good good₁) (lapse _ _ good₁ inv₁ lapsed)
  obtain ⟨op, env⟩ := step
  have started : (w.withEnv env).endpoint.Good := good
  exact Ends.final (P := fun w' => w'.endpoint.Good ∧ P w'.endpoint)
    ((operate_breaks started).mono (fun _ w' breaks => broken w' breaks) (fun _ w' breaks => broken w' breaks))

theorem Steps.invariant {P : Endpoint → Prop}
    (move : ∀ k k', k.Good → P k → Move k k' → P k')
    (lapse : ∀ k k', k.Good → P k → Lapse k k' → P k') {w' : World}
    (steps : Steps w w') (good : w.endpoint.Good) (inv : P w.endpoint) :
    w'.endpoint.Good ∧ P w'.endpoint := by
  induction steps with
  | refl => exact ⟨good, inv⟩
  | tail _ step ih => exact step.invariant move lapse ih.1 ih.2

omit [Crypto] in
theorem Fresh.good (fresh : Fresh w.session) : w.endpoint.Good := by
  refine ⟨?_, fun updating => ?_, fun _ => ⟨?_, fun installed => ?_⟩,
    fun _ => Handshake.phased_peerCID.mpr fresh.phased⟩
  · rintro ⟨f, listed, -⟩
    obtain ⟨flight, present, -⟩ := flights_post.mp listed
    rw [fresh.post] at present
    cases present
  · exact absurd (fresh.idle.symm.trans updating) (by simp)
  · obtain ⟨sequence, write⟩ := fresh.write
    change 0 ∈ w.session.epochs.write
    rw [write, AList.mem_keys, AList.keys_singleton]
    exact List.mem_singleton_self 0
  · change 2 ∈ w.session.epochs.installed at installed
    rw [fresh.installed] at installed
    cases installed

end Socat.Dtls13
