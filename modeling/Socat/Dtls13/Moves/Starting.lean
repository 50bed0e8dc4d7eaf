import Socat.Dtls13.Moves.Acting

/-! # Starting a post-handshake message

`startPost` either leaves the endpoint as if nothing had been issued, up to packets that were
numbered in vain, or issues its message and leaves the flight with a timer.
-/

namespace Socat.Dtls13

open Machine

/-- The flight of a slot, if outstanding, has a timer. -/
def Endpoint.TimedAt (k : Endpoint) (slot : Slot) : Prop :=
  ∀ f, k.flights slot = some f → f.complete = false → f.armed = true

variable {k : Endpoint} {w : World} {typ : PostType} {f : FlightCore}

theorem SendFrame.timedAt {k' : Endpoint} (frame : SendFrame k k') {slot : Slot} (timed : k.TimedAt slot) :
    k'.TimedAt slot := by
  intro f' present incomplete
  obtain ⟨f, before, framed⟩ := frame.flightBefore present
  exact framed.armed (timed f before (framed.complete ▸ incomplete))

theorem newFlight_core {messages : List HandshakeMessage} {interval : Duration} {f : Flight}
    (created : newFlight messages interval = .ok f) :
    f.core = ⟨messages.map OutboundMessage.start, ∅, false, false⟩ := by
  unfold newFlight at created
  split at created
  · contradiction
  · split at created
    · contradiction
    · cases created
      rfl

theorem newFlight_single (m : HandshakeMessage) (interval : Duration)
    (small : m.body.length ≤ maxHandshakeBody) : ∃ f, newFlight [m] interval = .ok f := by
  unfold newFlight
  rw [if_neg (by simp [maxPendingMessages]), if_neg]
  · exact ⟨_, rfl⟩
  · simp
    omega

/-! ## Transmission sets the timer -/

private theorem timedAt_armed (slot : Slot) (now : Time) (w : World) :
    (slot.ref.store ((slot.ref.load w).armed now) w).endpoint.TimedAt slot := by
  cases present : w.session.flight slot with
  | none =>
    rw [endpoint_store_absent slot _ w present]
    intro f listed
    simp [World.endpoint, present] at listed
  | some f₀ =>
    rw [endpoint_store slot _ w present]
    intro f listed _
    simp only [Endpoint.setFlight, Function.update_self, Option.some.injEq] at listed
    subst listed
    exact bne_iff_ne.mpr (Nat.ne_of_gt (Nat.add_pos_right now (slot.ref.load w).positive))

private theorem ends_any {ε σ α : Type} {s : σ} (x : EStateM ε σ α) : Ends x s (fun _ _ => True) (fun _ _ => True) := by
  unfold Ends
  split <;> trivial

private theorem flightTransmit_timed [Crypto] (slot : Slot) (now : Time) (capacity : ℕ) (w : World) :
    Ends (slot.ref.transmit now capacity sendHandshake) w
      (fun _ w' => w'.endpoint.TimedAt slot) (fun _ _ => True) := by
  unfold FlightRef.transmit
  rw [ends_bind, ends_get]
  split
  · rename_i complete
    intro f listed incomplete
    cases present : w.session.flight slot with
    | none => simp [World.endpoint, present] at listed
    | some f₀ =>
      simp only [World.endpoint, present, Option.map_some, Option.some.injEq] at listed
      subst listed
      simp [Slot.ref, present] at complete
      simp [Flight.core, complete] at incomplete
  · split
    · exact ends_throw.mpr trivial
    · rw [ends_bind]
      refine (ends_any _).imp fun count w' _ => ?_
      split
      · rw [ends_bind]
        exact (ends_any _).imp fun _ w' _ => timedAt_armed slot now w'
      · exact timedAt_armed slot now w'

theorem transmit_timed [Crypto] (slot : Slot) (now : Time) (w : World) :
    Ends (transmit slot now) w (fun _ w' => w'.endpoint.TimedAt slot) (fun _ _ => True) := by
  unfold transmit
  generalize maxMTUReductions + 1 = fuel
  induction fuel generalizing w with
  | zero => exact ends_throw.mpr trivial
  | succ fuel ih =>
    unfold transmitLoop
    rw [ends_session, ends_bind, ends_attempt]
    refine (flightTransmit_timed slot now _ w).mono (fun _ w' timed => ?_) (fun e w' _ => ?_)
    · rw [ends_session, ends_runIf]
      refine ⟨fun _ => ?_, fun _ => timed⟩
      exact (sendACK_sends w').mono (fun _ _ sends => sends.frame.timedAt timed) (fun _ _ _ => trivial)
    · rw [ends_session]
      dsimp only
      split
      · split
        · exact ends_throw.mpr trivial
        · rw [ends_bind, ends_modifySession]
          exact ih _
      · exact ends_throw.mpr trivial

/-! ## The outcome of `startPost` -/

/-- The message was issued, and its flight has a timer. -/
def Started [Crypto] (k : Endpoint) (typ : PostType) (k' : Endpoint) : Prop :=
  ∃ f, Issuing k typ f ∧ Sends (k.issue typ f) k' ∧ k'.TimedAt (.post typ)

private theorem endpoint_issue {f : Flight} : (({ w with session.handshake := { w.session.handshake with
        sequence := w.session.handshake.sequence + 1 } } : World).issue typ f).endpoint
      = w.endpoint.issue typ f.core :=
  congrArg (fun flights => { w.endpoint with
    handshake := { w.endpoint.handshake with sequence := w.endpoint.handshake.sequence + 1 }
    flights }) (flights_setFlight w (some f) (.post typ))

/-- The flight an issued message got, after any sending. -/
theorem flight_after_issue {k' : Endpoint} (single : f.messages.length = 1)
    (frame : SendFrame (k.issue typ f) k') :
    ∃ f', k'.flights (.post typ) = some f' ∧ f'.messages.length = 1 ∧ f'.complete = f.complete := by
  have issued : (k.issue typ f).flights (.post typ) = some f := Function.update_self ..
  obtain ⟨f', after, framed⟩ := frame.flight issued
  have length := congrArg List.length framed.messages
  rw [List.length_map, List.length_map, single] at length
  exact ⟨f', after, length, framed.complete⟩

/-- Undoing an issue that sent nothing. -/
theorem vacate_issue_overlay (vacant : k.flights (.post typ) = none) :
    ((k.issue typ f).vacate (.post typ)).overlay k = k := by
  have flights : Function.update (Function.update k.flights (.post typ) (some f)) (.post typ) none
      = k.flights := by
    rw [Function.update_idem, Function.update_eq_self_iff.mpr vacant.symm]
  simp only [Endpoint.vacate, Endpoint.overlay, Endpoint.issue, Endpoint.setFlight, flights]

theorem flights_post : w.endpoint.flights (.post typ) = some f ↔
      ∃ flight, w.session.post typ = some flight ∧ flight.core = f := by
  simp [World.endpoint, Session.flight]

private theorem endpoint_settlePost_unsent {flight : Flight} (now : Time)
    (single : f.messages.length = 1) (frame : SendFrame (k.issue typ f) w.endpoint)
    (present : w.session.post typ = some flight) (empty : flight.sent.entries = []) :
    (w.settlePost typ now).endpoint = (w.endpoint.vacate (.post typ)).overlay k := by
  obtain ⟨f', listed, length, -⟩ := flight_after_issue single frame
  have held : w.endpoint.flights (.post typ) = some flight.core := flights_post.mpr ⟨_, present, rfl⟩
  have core : f' = flight.core := Option.some.inj (listed.symm.trans held)
  have one : flight.messages.length = 1 := by
    rw [core] at length
    exact length
  have settled : w.settlePost typ now = { w with
      session.post := Function.update w.session.post typ none
      session.handshake.sequence := w.session.handshake.sequence - 1 } := by
    simp only [World.settlePost, present, empty, if_true, one]
  have handshake : { w.session.handshake with peerCID := [] }
      = { k.handshake with sequence := k.handshake.sequence + 1 } := frame.handshake
  have sequence : w.session.handshake.sequence = k.handshake.sequence + 1 :=
    congrArg Handshake.sequence handshake
  have restored : ({ w.session.handshake with
      sequence := w.session.handshake.sequence - 1, peerCID := [] } : Handshake) = k.handshake := by
    have same := congrArg (fun h : Handshake => { h with sequence := k.handshake.sequence }) handshake
    rw [sequence]
    exact same
  rw [settled]
  simp only [World.endpoint, Endpoint.vacate, Endpoint.overlay, Endpoint.mk.injEq, true_and, and_true]
  exact ⟨restored, flights_setFlight w none (.post typ), frame.updating⟩

theorem Endpoint.setFlight_eq_self {slot : Slot} (present : k.flights slot = some f) : k.setFlight slot f = k := by
  have same : Function.update k.flights slot (some f) = k.flights := by
    rw [← present, Function.update_eq_self]
  rw [Endpoint.setFlight, same]

/-- After a failed transmission a flight that sent something has a timer. -/
theorem settlePost_sent {flight : Flight} (now : Time) (present : w.session.post typ = some flight)
    (sent : flight.sent.entries ≠ []) :
    (w.settlePost typ now).endpoint = w.endpoint.setFlight (.post typ) { flight.core with armed := true } := by
  have unchanged : w.endpoint.setFlight (.post typ) flight.core = w.endpoint :=
    Endpoint.setFlight_eq_self (flights_post.mpr ⟨_, present, rfl⟩)
  by_cases unset : flight.deadline = 0
  · have settled : w.settlePost typ now
        = (Slot.post typ).ref.store { flight with deadline := now + flight.interval } w := by
      simp [World.settlePost, present, sent, unset, Slot.ref, Session.setFlight, Session.flight]
    have armed : ({ flight with deadline := now + flight.interval } : Flight).core
        = { flight.core with armed := true } := by
      have set : (now + flight.interval != 0) = true :=
        bne_iff_ne.mpr (Nat.ne_of_gt (Nat.add_pos_right now flight.positive))
      simp [Flight.core, set]
    rw [settled, endpoint_store (.post typ) _ w present, armed]
  · have settled : w.settlePost typ now = w := by
      simp [World.settlePost, present, sent, unset]
    have armed : ({ flight.core with armed := true } : FlightCore) = flight.core := by
      simp [Flight.core, bne_iff_ne.mpr unset]
    rw [settled, armed, unchanged]

theorem outstanding_outbound : w.endpoint.Outstanding .outbound ↔ w.session.flightPending = true := by
  cases present : w.session.outbound <;>
    simp [Endpoint.Outstanding, World.endpoint, Session.flight, Session.flightPending, present,
      Flight.core]

theorem outstanding_post :
    w.endpoint.Outstanding (.post typ) ↔ (w.session.post typ).any (fun f => !f.complete) = true := by
  cases present : w.session.post typ <;>
    simp [Endpoint.Outstanding, World.endpoint, Session.flight, present, Flight.core]

/-- The message of `startPost` is numbered and has a flight: what its transmission leads to. -/
theorem startPost_transmitted [Crypto] {now : Time} (issuing : Issuing k typ f)
    (issued : w.endpoint = k.issue typ f) : Ends (transmit (.post typ) now) w
      (fun _ w' => Started k typ w'.endpoint)
      (fun _ w' => Sends k (w'.settlePost typ now).endpoint ∨
        (Started k typ (w'.settlePost typ now).endpoint ∧
          ¬(w'.settlePost typ now).endpoint.Unsent (.post typ))) := by
  have single : f.messages.length = 1 := by
    obtain ⟨body, rfl⟩ := issuing.flight
    rfl
  refine ((retransmit_sends (.post typ) now w).and
    (transmit_timed (.post typ) now w)).mono (fun _ w' outcome => ?_) (fun _ w' outcome => ?_)
  · obtain ⟨sends, timed⟩ := outcome
    exact ⟨f, issuing, issued ▸ sends, timed⟩
  · obtain ⟨sends, -⟩ := outcome
    have sent : Sends (k.issue typ f) w'.endpoint := issued ▸ sends
    obtain ⟨f', listed, -, -⟩ := flight_after_issue single sent.frame
    obtain ⟨flight, present, rfl⟩ := flights_post.mp listed
    by_cases empty : flight.sent.entries = []
    · left
      have withdrawn := (sent.vacate ⟨flight.core, listed, empty⟩).overlay k
      rw [vacate_issue_overlay issuing.vacant] at withdrawn
      rw [endpoint_settlePost_unsent now single sent.frame present empty]
      exact withdrawn
    · right
      rw [settlePost_sent now present empty]
      refine ⟨⟨f, issuing, sent.tail (.arm _ _ listed), fun g stored _ => ?_⟩, ?_⟩
      · simp only [Endpoint.setFlight, Function.update_self, Option.some.injEq] at stored
        rw [← stored]
      · rintro ⟨g, stored, none⟩
        simp only [Endpoint.setFlight, Function.update_self, Option.some.injEq] at stored
        rw [← stored] at none
        exact empty none

theorem startPost_ends [Crypto] {body : Bytes} {now : Time} (small : body.length ≤ maxHandshakeBody)
    (clear : ∀ f, w.endpoint.flights (.post typ) = some f → f.complete = false) :
    Ends (startPost typ body now) w
      (fun _ w' => Started w.endpoint typ w'.endpoint)
      (fun _ w' => Sends w.endpoint w'.endpoint ∨
        (Started w.endpoint typ w'.endpoint ∧ ¬w'.endpoint.Unsent (.post typ))) := by
  unfold startPost
  rw [ends_session]
  split
  · exact ends_throw.mpr (.inl .refl)
  rename_i admitted
  simp only [not_or, Bool.not_eq_false, Bool.not_eq_true] at admitted
  obtain ⟨complete, idle, acknowledged⟩ := admitted
  split
  · exact ends_throw.mpr (.inl .refl)
  rename_i free
  have vacant : w.endpoint.flights (.post typ) = none := by
    by_contra occupied
    obtain ⟨f, present⟩ := Option.ne_none_iff_exists'.mp occupied
    exact free (outstanding_post.mp ⟨f, present, clear f present⟩)
  unfold Handshake.message
  split
  · exact ends_throw.mpr (.inl .refl)
  rename_i m handshake numbered
  split at numbered
  · contradiction
  cases numbered
  rw [ends_bind, ends_modifySession]
  obtain ⟨flight, created⟩ := newFlight_single
    ⟨typ.code, w.session.handshake.sequence, w.session.currentWriteEpoch, body⟩
    w.session.retransmitTimer small
  rw [created]
  simp only [ends_bind, ends_modify, ends_attempt]
  refine (startPost_transmitted ?_ endpoint_issue).imp fun _ _ => id
  exact ⟨complete, idle, fun outstanding => by simp [outstanding_outbound.mp outstanding] at acknowledged,
    vacant, body, newFlight_core created⟩

end Socat.Dtls13
