import Socat.Dtls13.Moves.Paths

/-! # Post-handshake messages as moves

A message leaves the reassembler before it is looked at. Taking it out and updating the read keys count as
one move; the other messages only change connection IDs and have an acknowledgement sent.
-/

namespace Socat.Dtls13

open Machine

/-! ## Connection IDs and tickets -/

namespace Session

variable {s s' : Session}

theorem RoutingOnly.trans {s'' : Session} (first : RoutingOnly s s') (second : RoutingOnly s' s'') :
    RoutingOnly s s'' := by
  unfold RoutingOnly at *
  rw [← second, ← first]

private theorem routingOnly_foldl_addSpare (ids : List Bytes) (s : Session) : RoutingOnly s (ids.foldl addSpare s) := by
  induction ids generalizing s with
  | nil => rfl
  | cons id rest ih =>
    have added : RoutingOnly s (s.addSpare id) := by
      unfold addSpare
      split <;> rfl
    exact added.trans (ih _)

private theorem routingOnly_takeCIDs (ids : List Bytes) (immediate : Bool) :
    RoutingOnly s (s.takeCIDs ids immediate) := by
  unfold takeCIDs
  split
  · rfl
  · exact (routingOnly_foldl_addSpare ids s).trans rfl

end Session

variable [Crypto]

section

variable {R : World → World → Prop} [Std.Refl R] [IsTrans World R] (acks : Respects R sendACK)
include acks

theorem respects_receiveTicket (m : HandshakeMessage) : Respects R (receiveTicket m) := by
  refine respects_session fun s => respects_guard fun _ => ?_
  split
  · exact respects_throw _
  · exact acks

variable (routes : Routes R)
include routes

theorem respects_receiveCIDs (m : HandshakeMessage) : Respects R (receiveCIDs m) := by
  refine respects_session fun s => respects_guard fun _ => ?_
  split
  · exact respects_throw _
  · exact respects_bind (routes.change fun _ => Session.routingOnly_takeCIDs _ _) fun _ => acks

theorem respects_receiveCIDRequest (m : HandshakeMessage) : Respects R (receiveCIDRequest m) := by
  refine respects_session fun s => respects_guard fun _ => ?_
  split
  · exact respects_guard fun _ => respects_bind (routes.change fun _ => rfl) fun _ => acks
  · exact respects_throw _

end

/-! ## Processing -/

/-- The world after a message was taken out of the reassembler. -/
def World.popped (w : World) (reassembly : Reassembler) (reserve : List Bool) : World :=
  { w with session.reassembly := reassembly, env.reserve := reserve }

variable {w : World} {m : HandshakeMessage} {reassembly : Reassembler} {reserve : List Bool}

theorem popped_acts (pops : Pops w.endpoint m reassembly) :
    Acts w.endpoint (w.popped reassembly reserve).endpoint :=
  Move.acts (.pop m reassembly pops) rfl rfl

/-- What is sent after a message was taken. -/
theorem took_of_sends {k : Endpoint} {x : SessionM Unit} (acts : Acts k w.endpoint)
    (sends : Respects sending.done x) : Ends x w
    (fun _ w' => Acts k w'.endpoint) (fun _ w' => Breaks k w'.endpoint) :=
  (sends w).mono (fun _ _ sends => acts.trans sends.acts)
    (fun _ _ sends => (acts.trans sends.acts).breaks)

private theorem receiveKeyUpdate_took (takes : Takes w.endpoint m reassembly) (typ : m.typ = msgKeyUpdate) :
    Took w (w.popped reassembly reserve) (receiveKeyUpdate m) := by
  have refused : Breaks w.endpoint (w.popped reassembly reserve).endpoint := (popped_acts takes.pops).breaks
  unfold receiveKeyUpdate
  rw [Took, ends_session]
  split
  · split
    · exact ends_throw.mpr refused
    split
    · exact ends_throw.mpr refused
    split
    · rename_i absent
      rw [ends_bind, ends_note]
      exact ends_throw.mpr ⟨_, _, .refl, .missing m reassembly takes (AList.lookup_eq_none.mp absent), .refl⟩
    rename_i r found
    split
    · exact ends_throw.mpr refused
    rename_i keys updated
    rw [ends_bind, ends_modifySession]
    exact took_of_sends (Move.acts (.takeKeyUpdate m reassembly r keys takes typ found updated) rfl rfl) sendACK_sends
  · exact ends_throw.mpr refused

theorem receivePost_took (pops : Pops w.endpoint m reassembly) :
    Took w (w.popped reassembly reserve) (receivePost m) := by
  have popped : Acts w.endpoint (w.popped reassembly reserve).endpoint := popped_acts pops
  unfold receivePost
  rw [Took, ends_session]
  refine ends_guard popped.breaks fun current => ?_
  simp only [not_or, Nat.not_lt, not_not] at current
  split
  · exact receiveKeyUpdate_took ⟨pops, current.1, current.2⟩ ‹_›
  split
  · exact took_of_sends popped (respects_receiveTicket sendACK_sends m)
  split
  · exact took_of_sends popped (respects_receiveCIDs sendACK_sends routes_sends m)
  split
  · exact took_of_sends popped (respects_receiveCIDRequest sendACK_sends routes_sends m)
  · exact ends_throw.mpr popped.breaks

end Socat.Dtls13
