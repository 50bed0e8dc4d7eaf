import Socat.Dtls13.Moves.Quiet

/-! # What every event shares

Everything but the processing of a handshake message is made of a few parts: starting an operation, acknowledging
and repeating flights, discovering the path MTU, and steps that are quiet. A relation that these parts respect is
respected by the timers and by the commands of the user.
-/

namespace Socat.Dtls13

open Machine

variable [Crypto]

theorem respects_acknowledgeFlight {R : World → World → Prop} [Std.Refl R] [IsTrans World R]
    (acknowledge : ∀ {w : World} {slot f records authenticated now}, w.session.flight slot = some f →
      R w (slot.ref.store (f.acknowledge records authenticated now).2 w))
    (noteRTT : ∀ sample slot, Respects R (noteRTT sample slot)) (transmit : ∀ slot now, Respects R (transmit slot now))
    (slot : Slot) (records : List RecordNumber) (authenticated : Bool) (now : Time) :
    Respects R (acknowledgeFlight slot records authenticated now) := by
  refine respects_getSession_bind fun w => ?_
  split
  · exact ends_pure.mpr (Std.Refl.refl w)
  · rw [ends_bind, ends_update]
    exact Respects.from (respects_bind (noteRTT _ slot) fun _ => respects_runIf (transmit slot now)) (acknowledge ‹_›)

/-- The parts respect a relation. -/
structure Upkeep (R : World → World → Prop) : Prop where
  quiet : ∀ {α : Type} {x : SessionM α}, Respects World.Quiet x → Respects R x
  startPost : ∀ typ body now, body.length ≤ maxHandshakeBody → Respects R (startPost typ body now)
  dropComplete : Respects R (modifySession Session.dropComplete)
  acknowledgeFlight : ∀ slot records authenticated now,
    Respects R (acknowledgeFlight slot records authenticated now)
  expireOutbound : ∀ now, Respects R (expireOutbound now)
  retransmitExpired : ∀ slot now, Respects R (retransmitExpired slot now)
  tickMTUProbe : ∀ now, Respects R (tickMTUProbe now)
  applicationTooBig : Respects R (modifySession Session.onApplicationTooBig)

/-- The event neither opens the handshake nor takes messages in. -/
def Event.apart : Event → Bool
  | .start .. | .process _ | .receive .. => false
  | _ => true

namespace Upkeep

variable {R : World → World → Prop}

theorem modifySession (upkeep : Upkeep R) {change : Session → Session}
    (kept : ∀ s, (change s).kept = s.kept) : Respects R (Dtls13.modifySession change) :=
  upkeep.quiet (quiet_modifySession kept)

variable [Std.Refl R] [IsTrans World R]

/-! ## Post-handshake operations -/

section

variable (upkeep : Upkeep R)
include upkeep

private theorem requestCIDs (count : UInt8) (now : Time) : Respects R (requestCIDs count now) :=
  respects_session fun _ => respects_guard fun _ =>
    respects_guard fun _ =>
      respects_bind (upkeep.startPost _ _ now (by simp [maxHandshakeBody])) fun _ =>
        upkeep.modifySession fun _ => rfl

private theorem offerCIDs (ids : List Bytes) (immediate : Bool) (now : Time) :
    Respects R (offerCIDs ids immediate now) := by
  refine respects_session fun s => ?_
  split
  · exact respects_throw _
  rename_i body encoded
  have changed : ∀ change : World → World, (∀ w : World, w.Quiet (change w)) →
      Respects R (modify change : SessionM Unit) :=
    fun _ quiet => upkeep.quiet (respects_modify quiet)
  refine respects_bind (upkeep.quiet setLocal_quiet) fun _ =>
    respects_bind (changed _ fun _ => rfl) fun _ =>
      respects_bind (respects_attempt (upkeep.startPost _ _ now ((encodeCIDs_length_le encoded).trans (by decide))))
        fun outcome =>
        respects_session fun s => ?_
  split
  · exact respects_pure _
  · exact respects_ite (respects_throw _) <| respects_bind (upkeep.quiet setLocal_quiet) fun _ =>
      respects_bind (changed _ fun _ => rfl) fun _ => respects_throw _

theorem provideCIDs (count : ℕ) (immediate : Bool) (now : Time) : Respects R (provideCIDs count immediate now) :=
  respects_session fun _ => respects_guard fun _ =>
    respects_guard fun _ =>
      respects_bind (upkeep.modifySession fun _ => rfl) fun _ =>
        respects_bind respects_get fun _ => respects_bind (upkeep.quiet (drawCIDs_quiet _ _ _ _ _)) fun _ =>
          upkeep.offerCIDs _ _ now

private theorem respondCIDRequest (now : Time) : Respects R (respondCIDRequest now) := by
  refine respects_session fun s => ?_
  split
  · exact respects_pure _
  refine respects_ite (respects_pure _) ?_
  refine respects_bind (upkeep.modifySession fun _ => rfl) fun _ =>
    respects_session fun _ => respects_ite (upkeep.provideCIDs _ _ now) ?_
  exact respects_bind (upkeep.modifySession fun _ => rfl) fun _ => upkeep.provideCIDs _ _ now

private theorem startKeyUpdate (now : Time) : Respects R (startKeyUpdate now) := by
  have started : ∀ request, Respects R (Dtls13.modifySession fun s => s.keyUpdateStarted request) :=
    fun _ => upkeep.modifySession fun _ => rfl
  refine respects_session fun s =>
    respects_ite (respects_pure _) (respects_ite (respects_throw _) ?_)
  refine respects_bind (respects_attempt (upkeep.startPost _ _ now (by simp [maxHandshakeBody]))) fun outcome =>
    respects_session fun s => ?_
  split
  · exact started _
  · exact respects_ite (respects_throw _) (respects_bind (started _) fun _ => respects_throw _)

private theorem startCIDRequest (now : Time) : Respects R (startCIDRequest now) :=
  respects_session fun _ => respects_ite
    (respects_bind (upkeep.modifySession fun _ => rfl) fun _ =>
      respects_runIf (upkeep.requestCIDs _ now))
    (respects_pure _)

theorem advancePost (now : Time) : Respects R (advancePost now) :=
  respects_session fun _ => respects_ite (respects_pure _) <|
    respects_bind (upkeep.quiet (retireHandshake_quiet now)) fun _ =>
      respects_session fun _ => respects_ite (respects_pure _) <|
        respects_bind (respects_runIf (upkeep.quiet switchWriteKeys_quiet)) fun _ =>
          respects_bind upkeep.dropComplete fun _ => respects_bind (upkeep.startKeyUpdate now) fun _ =>
            respects_bind (upkeep.respondCIDRequest now) fun _ => upkeep.startCIDRequest now

private theorem requestKeyUpdate (requestPeer : Bool) (now : Time) : Respects R (requestKeyUpdate requestPeer now) :=
  respects_session fun _ => respects_guard fun _ =>
    respects_guard fun _ =>
      respects_bind (upkeep.modifySession fun _ => rfl) fun _ => upkeep.advancePost now

private theorem acknowledgePost (records : List RecordNumber) (authenticated : Bool) (now : Time) :
    Respects R (acknowledgePost records authenticated now) :=
  respects_bind (upkeep.acknowledgeFlight _ _ _ now) fun _ =>
    respects_bind (upkeep.acknowledgeFlight _ _ _ now) fun _ =>
      respects_bind (upkeep.acknowledgeFlight _ _ _ now) fun _ => upkeep.advancePost now

theorem receiveACK (body : Bytes) (encrypted : Bool) (now : Time) : Respects R (receiveACK body encrypted now) := by
  unfold Dtls13.receiveACK
  split
  · exact respects_pure _
  · exact respects_bind (upkeep.acknowledgeFlight _ _ _ now) fun _ => upkeep.acknowledgePost _ _ now

theorem finishReceive (now : Time) : Respects R (finishReceive now) :=
  respects_bind (upkeep.advancePost now) fun _ => respects_session fun _ =>
    respects_runIf (upkeep.quiet sendACK_quiet)

/-! ## Timers and commands -/

private theorem tick (now : Time) : Respects R (tick now) := by
  have tickACK : Respects R (tickACK now) :=
    respects_session fun _ => respects_runIf (upkeep.quiet (acknowledges_quiet.sendScheduledACK now))
  exact respects_bind (upkeep.quiet (expireHandshakeRead_quiet now)) fun _ =>
    respects_bind (upkeep.tickMTUProbe now) fun _ => respects_bind (upkeep.quiet (routes_quiet.tickPath now)) fun _ =>
    respects_bind tickACK fun _ => respects_bind (upkeep.expireOutbound now) fun _ =>
    respects_bind (upkeep.retransmitExpired _ now) fun _ => respects_bind (upkeep.retransmitExpired _ now) fun _ =>
    respects_bind (upkeep.retransmitExpired _ now) fun _ => upkeep.advancePost now

private theorem sendApplication (body : Bytes) : Respects R (sendApplication body) := by
  refine respects_session fun s =>
    respects_bind (respects_attempt (upkeep.quiet (sendRecord_quiet (by decide) _ _))) fun outcome => ?_
  split
  · exact upkeep.modifySession fun _ => rfl
  · exact respects_bind (respects_runIf upkeep.applicationTooBig) fun _ => respects_throw _

theorem application (body : Bytes) : Respects R (application body) := by
  refine respects_session fun s => respects_guard fun _ =>
    respects_guard fun _ => respects_guard fun _ => ?_
  split
  · exact respects_throw _
  split
  · exact respects_bind (upkeep.modifySession fun _ => rfl) fun _ => respects_throw _
  · exact upkeep.sendApplication body

private theorem becomeReady (canProbe : Bool) : Respects R (becomeReady canProbe) :=
  respects_session fun _ => respects_ite
    (respects_bind (upkeep.quiet sendACK_quiet) fun _ =>
      upkeep.quiet fun _ => rfl)
    (respects_pure _)

private theorem commandWrite (body : Bytes) (now : Time) : Respects R (commandWrite body now) := by
  refine respects_bind (respects_attempt (upkeep.application body)) fun outcome => ?_
  split
  · exact respects_pure _
  · exact respects_bind (upkeep.advancePost now) fun _ => respects_throw _
  · exact respects_throw _

private theorem commandCloseWrite : Respects R commandCloseWrite :=
  respects_session fun _ => respects_ite (respects_pure _) <|
    respects_bind (upkeep.quiet (sendRecord_quiet (by decide) _ _)) fun _ => respects_pure _

private theorem teardown : Respects R teardown :=
  respects_session fun _ => respects_ite
    (respects_bind (respects_attempt (upkeep.quiet
      (sendRecordWith_quiet fun _ same => transport_quiet (same ▸ by decide)))) fun _ => respects_pure _)
    (respects_pure _)

theorem drive {event : Event} (apart : event.apart = true) : Respects R (drive event) := by
  cases event with
  | start | process | receive => cases apart
  | tick now => exact upkeep.tick now
  | ready canProbe => exact upkeep.becomeReady canProbe
  | write body now => exact upkeep.commandWrite body now
  | updateKeys requestPeer now => exact upkeep.requestKeyUpdate requestPeer now
  | rotateCID now => exact upkeep.provideCIDs 1 true now
  | closeWrite => exact upkeep.commandCloseWrite
  | close => exact upkeep.teardown

end

end Upkeep

end Socat.Dtls13
