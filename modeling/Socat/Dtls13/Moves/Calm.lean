import Socat.Dtls13.Moves.Drafting
import Socat.Dtls13.Moves.Quiet

/-! # What leaves the working MTU alone

Sending a flight and the handshake handlers do not change the working MTU and the configured one.
-/

namespace Socat.Dtls13

open Machine

private theorem transport_calm (p : Packet) : Respects World.Calm (transport p) := fun _ =>
  transport_ends (fun _ => rfl) fun _ _ => rfl

theorem store_calm (slot : Slot) (f : Flight) (w : World) : w.Calm (slot.ref.store f w) := by
  cases slot <;> exact rfl

theorem update_calm (slot : Slot) (change : Flight → Flight) :
    Respects World.Calm (slot.ref.update change) := respects_update (store_calm slot) change

theorem noteRTT_calm (sample : Duration) (slot : Slot) : Respects World.Calm (noteRTT sample slot) :=
  respects_ite (respects_pure _) <|
    respects_bind (fun _ => rfl) fun _ =>
      respects_session fun _ => update_calm _ _

theorem issue_calm {w : World} {typ : PostType} {f : Flight} : w.Calm (w.issue typ f) := rfl

theorem settlePost_calm {w : World} {typ : PostType} {now : Time} : w.Calm (w.settlePost typ now) := by
  unfold World.settlePost
  split
  · exact Std.Refl.refl w
  · split_ifs <;> exact rfl

theorem callHandler_calm (m : HandshakeMessage) : Respects World.Calm (callHandler m) := by
  intro w
  have written := handle_drafting m ⟨w.session.handshake, w.env.handshakes.headD {}⟩
  refine ends_bind.mpr (ends_get.mpr ?_)
  split
  · obtain ⟨_, -, drafts⟩ := written.ok ‹_›
    exact congrArg (·, _, _) (congrArg Prod.fst drafts.fixed)
  · exact congrArg (·, _, _) (congrArg Prod.fst (written.error ‹_›))

variable [Crypto]

/-! ## Sending -/

private theorem sendRecordLimited_calm {epoch : ℕ} {typ : UInt8} {body cid : Bytes} {padding limit : ℕ}
    {send : Packet → SessionM Unit} (sends : ∀ p, Respects World.Calm (send p)) :
    Respects World.Calm (sendRecordLimited epoch typ body cid padding limit send) := fun w =>
  sendRecordLimited_ends (fun _ => Std.Refl.refl w) fun _ _ _ _ =>
    (sends _ _).mono (fun _ _ => Unchanged.trans rfl)
      (fun _ _ => Unchanged.trans rfl)

private theorem sendRecordWith_calm {epoch : ℕ} {typ : UInt8} {body cid : Bytes}
    {send : Packet → SessionM Unit} (sends : ∀ p, Respects World.Calm (send p)) :
    Respects World.Calm (sendRecordWith epoch typ body cid send) :=
  respects_session fun _ => sendRecordLimited_calm sends

private theorem sendRecord_calm (epoch : ℕ) (typ : UInt8) (body : Bytes) :
    Respects World.Calm (sendRecord epoch typ body) :=
  respects_session fun _ => sendRecordWith_calm transport_calm

theorem flightTransmit_calm (slot : Slot) (now : Time) (capacity : ℕ) :
    Respects World.Calm (slot.ref.transmit now capacity fun epoch body =>
      sendRecord epoch contentHandshake body) :=
  respects_transmit (fun w _ _ _ _ _ _ => respects_sendRange (fun w _ _ _ _ _ _ => store_calm slot _ w)
    (fun _ _ => sendRecord_calm _ _ _) _ _ _ _ w) (fun w => store_calm slot _ w) _

end Socat.Dtls13
