import Socat.Dtls13.Moves.Endpoint
import Socat.Machine.Discipline

/-! # Sending is made of send moves

Records, acknowledgements and flights change an endpoint by `SendMove`s only, whether the send
callback accepts a packet or not.
-/

namespace Socat.Dtls13

open Machine

/-! ## Endpoints of changed worlds -/

theorem flight_setFlight (s : Session) (f : Option Flight) (slot : Slot) :
    (s.setFlight f slot).flight = Function.update s.flight slot f := by
  funext other
  cases slot with
  | outbound => cases other <;> simp [Session.setFlight, Session.flight]
  | post typ =>
    cases other with
    | outbound => simp [Session.setFlight, Session.flight]
    | post typ' => by_cases same : typ' = typ <;> simp [Session.setFlight, Session.flight, Function.update, same]

theorem flights_setFlight (w : World) (f : Option Flight) (slot : Slot) :
    ({ w with session := w.session.setFlight f slot } : World).endpoint.flights
      = Function.update w.endpoint.flights slot (f.map Flight.core) := by
  funext other
  have flight := congrFun (flight_setFlight w.session f slot) other
  refine (congrArg (Option.map Flight.core) flight).trans ?_
  exact Function.apply_update (fun _ => Option.map Flight.core) ..

theorem endpoint_setFlight (w : World) (f : Flight) (slot : Slot) :
    ({ w with session := w.session.setFlight (some f) slot } : World).endpoint = w.endpoint.setFlight slot f.core := by
  have flights := flights_setFlight w (some f) slot
  cases slot <;> exact congrArg (fun flights => { w.endpoint with flights }) flights

section Present

variable {slot : Slot} {w : World} {f₀ : Flight} (present : w.session.flight slot = some f₀)
include present

theorem Slot.load_of_present : slot.ref.load w = f₀ := by
  simp [Slot.ref, present]

theorem Slot.store_of_present (f : Flight) :
    slot.ref.store f w = { w with session := w.session.setFlight (some f) slot } := by
  simp [Slot.ref, present]

end Present

theorem endpoint_store (slot : Slot) (f : Flight) (w : World) {f₀ : Flight}
    (present : w.session.flight slot = some f₀) :
    (slot.ref.store f w).endpoint = w.endpoint.setFlight slot f.core := by
  rw [Slot.store_of_present present]
  exact endpoint_setFlight w f slot

theorem endpoint_store_absent (slot : Slot) (f : Flight) (w : World)
    (absent : w.session.flight slot = none) : slot.ref.store f w = w := by
  cases slot with
  | outbound =>
    simp only [Session.flight] at absent
    simp [Slot.ref, Session.setFlight, Session.flight, absent]
    rw [← absent]
  | post typ =>
    simp only [Session.flight] at absent
    simp [Slot.ref, Session.setFlight, Session.flight, absent]
    rw [Function.update_eq_self_iff.mpr absent.symm]

/-! ## Rules for the session's primitives -/

variable {change : Session → Session} {Q : Unit → World → Prop} {slot : Slot} {epoch : ℕ} {typ : UInt8}
  {body : Bytes}

section Rules

variable {w : World} {E : Err → World → Prop}

@[simp] theorem ends_getSession {Q : Session → World → Prop} : Ends getSession w Q E ↔ Q w.session w := Iff.rfl

theorem ends_session {α : Type} {f : Session → SessionM α} {Q : α → World → Prop} :
    Ends (getSession >>= f) w Q E ↔ Ends (f w.session) w Q E := ends_bind

@[simp] theorem ends_modifySession :
    Ends (modifySession change) w Q E ↔ Q () { w with session := change w.session } := Iff.rfl

@[simp] theorem ends_note {change : History → History} :
    Ends (note change) w Q E ↔ Q () { w with history := change w.history } := Iff.rfl

@[simp] theorem ends_update {change : Flight → Flight} :
    Ends (slot.ref.update change) w Q E ↔ Q () (slot.ref.store (change (slot.ref.load w)) w) := Iff.rfl

theorem transport_ends {p : Packet} (sent : ∀ env, Q () { w.deliver p with env })
    (refused : ∀ env cause, E (.transport cause) { w with env }) : Ends (transport p) w Q E := by
  unfold transport
  rw [ends_bind, ends_get]
  split
  · simp only [ends_bind, ends_set, ends_throw]
    exact refused _ _
  · simp only [ends_set]
    exact sent _

theorem setLocal_ends (called : ∀ env, Q () { w with env }) (refused : ∀ env, E .setLocal { w with env }) :
    Ends setLocal w Q E := by
  unfold setLocal
  rw [ends_bind, ends_get]
  split
  · exact ends_pure.mpr (called w.env)
  · simp only [ends_bind, ends_set, ends_throwIf]
    exact ⟨fun _ => refused _, fun _ => called _⟩

theorem randRead_ends {n : ℕ} {Q : Bytes → World → Prop}
    (drawn : ∀ bytes env, bytes.length = n → Q bytes { w with env })
    (exhausted : w.env.random.length < n → E .random w) : Ends (randRead n) w Q E := by
  unfold randRead
  rw [ends_bind, ends_get]
  split
  · exact ends_throw.mpr (exhausted ‹_›)
  · rename_i enough
    simp only [ends_bind, ends_set, ends_pure]
    exact drawn _ _ (by simp; omega)

variable [Crypto]

/-- A record is skipped, counted as a failure, or opened. -/
theorem openRecord_ends {r : Record} {hasCID : Bool} {Q : Option (RecordNumber × UInt8 × Bytes) → World → Prop}
    (skipped : Q none w) (failed : ∀ e, E e w) (plain : r.encrypted = false → Q (some (r.number, r.typ, r.body)) w)
    (counted : ∀ epoch keys, w.session.epochs.read.lookup epoch = some keys →
      let w' := { w with session.epochs := w.session.epochs.countFailure epoch keys }
      Q none w' ∧ ∀ e, E e w')
    (opened : ∀ epoch keys o window, Opens w.endpoint r epoch keys o window →
      Ends (usedLocalCID r.cid) { w with session.epochs := w.session.epochs.authenticate epoch keys window }
        (fun _ w' => Q (some (o.number, o.typ, o.body)) { w' with history.opened := o :: w'.history.opened }) E) :
    Ends (openRecord r hasCID) w Q E := by
  unfold openRecord
  rw [ends_session]
  split
  · refine ends_pure.mpr ?_
    split
    · exact plain ‹_›
    · exact skipped
  rename_i encrypted
  split
  · exact ends_pure.mpr skipped
  split
  · exact ends_pure.mpr skipped
  rename_i epoch selected
  split
  · exact ends_pure.mpr skipped
  rename_i keys found
  split
  · rw [ends_bind, ends_modifySession, ends_bind, ends_throwIf]
    exact ⟨fun _ => (counted epoch keys found).2 _, fun _ => ends_pure.mpr (counted epoch keys found).1⟩
  · exact ends_pure.mpr skipped
  · exact ends_throw.mpr (failed _)
  · rename_i number typ body window decoded
    rw [ends_bind, ends_modifySession, ends_bind]
    exact opened epoch keys ⟨number, typ, body, r.cid⟩ window
      ⟨by simpa using encrypted, selected, found, decoded, rfl⟩

/-- A record fails before it has a number, or it is numbered and handed to the callback. -/
theorem sendRecordLimited_ends {cid : Bytes} {padding limit : ℕ} {send : Packet → SessionM Unit}
    {Q : RecordNumber → World → Prop} (unsent : ∀ e, E e w)
    (handed : ∀ e bytes, w.session.epochs.write.lookup epoch = some e →
      e.encode epoch typ body cid padding = .ok bytes →
      Ends (send ⟨⟨epoch, e.sequence⟩, typ, body, cid, padding, bytes, e.keys⟩)
        (w.hand ⟨⟨epoch, e.sequence⟩, typ, body, cid, padding, bytes, e.keys⟩ e)
        (fun _ => Q ⟨epoch, e.sequence⟩) E) :
    Ends (sendRecordLimited epoch typ body cid padding limit send) w Q E := by
  unfold sendRecordLimited
  rw [ends_session]
  split
  · exact ends_throw.mpr (unsent _)
  · rename_i e found
    split
    · exact ends_throw.mpr (unsent _)
    · rename_i bytes encoded
      split
      · exact ends_throw.mpr (unsent _)
      · simp only [ends_bind, ends_modify, ends_pure]
        exact handed e bytes found encoded

/-- The packet a successful numbering hands out. -/
theorem sendRecord_ends {Q : RecordNumber → World → Prop} (unsent : ∀ e, E e w)
    (handed : ∀ p e env cause, Numbered w.endpoint p e → p.number.epoch = epoch → p.typ = typ →
      p.body = body → E (.transport cause) { w.hand p e with env })
    (sent : ∀ p e env, Numbered w.endpoint p e → p.number.epoch = epoch → p.typ = typ →
      p.body = body → Q p.number { (w.hand p e).deliver p with env }) : Ends (sendRecord epoch typ body) w Q E := by
  unfold sendRecord sendRecordWith
  simp only [ends_bind, ends_getSession]
  apply sendRecordLimited_ends unsent
  intro e bytes found encoded
  have numbered : Numbered w.endpoint
      ⟨⟨epoch, e.sequence⟩, typ, body, w.session.probeCID, 0, bytes, e.keys⟩ e := ⟨found, rfl, rfl, encoded⟩
  exact transport_ends (fun env => sent _ e env numbered rfl rfl rfl)
    (fun env cause => handed _ e env cause numbered rfl rfl rfl)

end Rules

/-! ## Relations every operation respects -/

section Relations

variable {α : Type} {R : World → World → Prop}

theorem respects_getSession [Std.Refl R] : Respects R getSession :=
  fun w => Std.Refl.refl w

theorem respects_session {f : Session → SessionM α} (rest : ∀ s, Respects R (f s)) :
    Respects R (getSession >>= f) := fun w => ends_session.mpr (rest w.session w)

theorem obeys_session {D : Discipline World} {f : Session → SessionM α} (rest : ∀ s, Obeys D (f s)) :
    Obeys D (getSession >>= f) := fun w admitted => ends_session.mpr (rest w.session w admitted)

theorem respects_getSession_bind {f : Session → SessionM α}
    (rest : ∀ w : World, Ends (f w.session) w (fun _ => R w) (fun _ => R w)) :
    Respects R (getSession >>= f) := fun w => ends_session.mpr (rest w)

end Relations

section Transmission

variable {σ : Type} {R : σ → σ → Prop} [Std.Refl R] [IsTrans σ R]

variable {ref : FlightRef σ} {send : ℕ → Bytes → EStateM Err σ RecordNumber} {now : Time} {onlyNew : Bool}
  (ranges : ∀ w onlyNew index m start stop, (ref.load w).messages[index]? = some m →
    Ends (ref.sendRange now send onlyNew index m.message start stop) w (fun _ => R w) (fun _ => R w))
include ranges

private theorem respects_sendBody (capacity index : ℕ) :
    ∀ fuel start count, Respects R (ref.sendBody now capacity send onlyNew index fuel start count) := by
  intro fuel
  induction fuel with
  | zero => exact fun _ _ => respects_pure _
  | succ fuel ih =>
    intro start count
    unfold FlightRef.sendBody
    refine respects_get_bind fun w => ?_
    dsimp only
    split
    · exact ends_pure.mpr (Std.Refl.refl w)
    rename_i m message
    have sent := fun start stop => ranges w onlyNew index m start stop message
    split
    · split
      · exact ends_pure.mpr (Std.Refl.refl w)
      · exact (sent _ _).andThen fun _ => respects_pure _
    · split
      · exact ends_pure.mpr (Std.Refl.refl w)
      · exact (sent _ _).andThen fun _ => respects_ite (respects_pure _) (ih _ _)

private theorem respects_sendMessages (capacity : ℕ) (messages : List OutboundMessage) :
    ∀ index count, Respects R (ref.sendMessages now capacity send onlyNew messages index count) := by
  induction messages with
  | nil => exact fun _ _ => respects_pure _
  | cons m rest ih =>
    intro index count
    unfold FlightRef.sendMessages
    exact respects_bind (respects_sendBody ranges _ _ _ _ _) fun _ =>
      respects_ite (respects_pure _) (ih _ _)

theorem respects_transmit (arms : ∀ w, R w (ref.store ((ref.load w).armed now) w)) (capacity : ℕ) :
    Respects R (ref.transmit now capacity send) := by
  have ranges : ∀ onlyNew, Respects R (ref.sendRanges now capacity send onlyNew) := fun _ =>
    respects_bind respects_get fun _ => respects_sendMessages ranges _ _ _ _
  unfold FlightRef.transmit
  refine respects_bind respects_get fun w => respects_ite (respects_pure _) (respects_ite (respects_throw _) ?_)
  refine respects_bind (ranges true) fun _ => respects_ite ?_ (respects_modify arms)
  exact respects_bind (ranges false) fun _ => respects_modify arms

end Transmission

variable [Crypto]

/-- The callback of a flight: its records are handshake records. -/
abbrev sendHandshake (epoch : ℕ) (body : Bytes) : SessionM RecordNumber :=
  sendRecord epoch contentHandshake body

/-- The parts of writing acknowledgements respect a relation. -/
structure Acknowledges (R : World → World → Prop) : Prop where
  change : ∀ {change : Session → Session}, (∀ s, { s with ack := (change s).ack } = change s) →
    Respects R (modifySession change)
  send : ∀ epoch body, Respects R (sendRecord epoch contentACK body)

section Flights

variable {R : World → World → Prop} [Std.Refl R] [IsTrans World R]

namespace Acknowledges

variable (acknowledges : Acknowledges R)
include acknowledges

private theorem writeAckLoop (limit : ℕ) : ∀ fuel, Respects R (writeAckLoop limit fuel) := by
  intro fuel
  induction fuel with
  | zero => exact acknowledges.change fun _ => rfl
  | succ fuel ih =>
    refine respects_session fun s => respects_ite (acknowledges.change fun _ => rfl) ?_
    split
    · exact respects_throw _
    · exact respects_bind (acknowledges.send _ _) fun _ =>
        respects_bind (acknowledges.change fun _ => rfl) fun _ => ih

theorem writeAcknowledgements (ready : Bool) : Respects R (writeAcknowledgements ready) :=
  respects_session fun _ => respects_ite (acknowledges.change fun _ => rfl) <|
    respects_ite (respects_pure _) (respects_ite (respects_throw _) (acknowledges.writeAckLoop _ _))

theorem sendACK : Respects R sendACK :=
  respects_session fun _ => acknowledges.writeAcknowledgements _

theorem sendScheduledACK (now : Time) : Respects R (sendScheduledACK now) :=
  respects_session fun _ => respects_ite (acknowledges.change fun _ => rfl) (acknowledges.writeAcknowledgements _)

theorem queueAcknowledgement (number : RecordNumber) (now : Time) :
    Respects R (queueAcknowledgement number now) :=
  respects_session fun _ => respects_bind (respects_runIf acknowledges.sendACK) fun _ =>
    respects_session fun _ => respects_ite (respects_pure _) <|
      respects_bind (acknowledges.change fun _ => rfl) fun _ =>
        respects_session fun _ => respects_runIf acknowledges.sendACK

end Acknowledges

theorem respects_transmitLoop {now : Time}
    (flights : ∀ capacity, Respects R (slot.ref.transmit now capacity sendHandshake)) (acks : Respects R sendACK)
    (reduces : ∀ w : World, ∀ tooBig s, w.session.reduceHandshakeMTU tooBig = (true, s) → R w { w with session := s }) :
    ∀ fuel, Respects R (transmitLoop slot now fuel) := by
  intro fuel
  induction fuel with
  | zero => exact respects_throw _
  | succ fuel ih =>
    unfold transmitLoop
    refine respects_session fun s => respects_bind (respects_attempt (flights _)) fun outcome =>
      respects_getSession_bind fun w => ?_
    split
    · exact respects_runIf acks w
    split
    · split
      · exact ends_throw.mpr (Std.Refl.refl w)
      · rw [ends_bind, ends_modifySession]
        exact ih.from (reduces w _ _ ‹_›)
    · exact ends_throw.mpr (Std.Refl.refl w)

/-- The parts of repeating a flight respect a relation. -/
structure Repeats (R : World → World → Prop) : Prop where
  transmit : ∀ slot now, Respects R (transmit slot now)
  expire : ∀ {w : World} {slot f} now, w.session.flight slot = some f → R w (slot.ref.store (f.expire now).2 w)
  restart : Respects R (Slot.outbound.ref.update fun f => { f with ackedSinceSend := false })
  reduce : Respects R (modifySession fun s => (s.reduceHandshakeMTU 0).2)

namespace Repeats

variable (repeats : Repeats R)
include repeats

theorem retransmitExpired (slot : Slot) (now : Time) : Respects R (retransmitExpired slot now) := by
  refine respects_getSession_bind fun w => ?_
  split
  · exact ends_pure.mpr (Std.Refl.refl w)
  rename_i f present
  have expired := repeats.expire now present
  rw [ends_bind, ends_update]
  split
  · exact ends_throw.mpr expired
  · exact ends_pure.mpr expired
  · exact (repeats.transmit slot now).from expired

theorem expireOutbound (now : Time) : Respects R (expireOutbound now) := by
  refine respects_getSession_bind fun w => ?_
  split
  · exact ends_pure.mpr (Std.Refl.refl w)
  rename_i f present
  have expired : R w (Slot.outbound.ref.store (f.expire now).2 w) := repeats.expire now present
  rw [ends_bind, ends_update]
  split
  · exact ends_throw.mpr expired
  · exact ends_pure.mpr expired
  · exact Respects.from (respects_bind (respects_runIf repeats.reduce) fun _ =>
      respects_bind repeats.restart fun _ => repeats.transmit .outbound now) expired

end Repeats

end Flights

/-! ## The sending discipline -/

/-- Nothing but send moves, however the computation ends. -/
def sending : Discipline World where
  guard _ := True
  done w w' := Sends w.endpoint w'.endpoint
  failed w w' := Sends w.endpoint w'.endpoint
  refl _ := .refl
  trans first second := first.trans second
  keeps _ _ := trivial
  fails first second := first.trans second
  stops _ := .refl

theorem sends_modifySession
    (quiet : ∀ w : World, ({ w with session := change w.session } : World).endpoint = w.endpoint) :
    Respects sending.done (modifySession change) := by
  refine respects_modify fun w => ?_
  show Sends w.endpoint ({ w with session := change w.session } : World).endpoint
  rw [quiet]

/-- A change of timers and counters of one flight. -/
theorem sends_store {w : World} {f : Flight}
    (same : f.core = (slot.ref.load w).core ∨ f.core = { (slot.ref.load w).core with armed := true }) :
    Sends w.endpoint (slot.ref.store f w).endpoint := by
  cases present : w.session.flight slot with
  | none => rw [endpoint_store_absent slot f w present]
  | some f₀ =>
    have loaded : slot.ref.load w = f₀ := by simp [Slot.ref, present]
    have listed : w.endpoint.flights slot = some f₀.core := by simp [World.endpoint, present]
    rw [endpoint_store slot f w present]
    rcases same with same | same
    · rw [same, loaded]
      have unchanged : w.endpoint.setFlight slot f₀.core = w.endpoint := by
        simp only [Endpoint.setFlight]
        rw [Function.update_eq_self_iff.mpr listed.symm]
      rw [unchanged]
    · rw [same, loaded]
      exact .single (.arm slot f₀.core listed)

private theorem sendRange_sends {now : Time} {onlyNew : Bool} {index start stop : ℕ} {m : OutboundMessage}
    {w : World} (message : (slot.ref.load w).messages[index]? = some m) :
    Ends (slot.ref.sendRange now sendHandshake onlyNew index m.message start stop) w
      (fun _ => sending.done w) (fun _ => sending.done w) := by
  obtain ⟨f, present⟩ : ∃ f, w.session.flight slot = some f := by
    cases present : w.session.flight slot with
    | none => simp [Slot.ref, present, default] at message
    | some f => exact ⟨f, rfl⟩
  have loaded : slot.ref.load w = f := by simp [Slot.ref, present]
  have listed : w.endpoint.flights slot = some f.core := by simp [World.endpoint, present]
  unfold FlightRef.sendRange
  simp only [ends_bind, ends_get, ends_ite]
  split
  · exact ends_throw.mpr .refl
  · split
    · exact ends_throw.mpr .refl
    · simp only [ends_bind]
      apply sendRecord_ends (fun _ => .refl)
      · intro p e env cause numbered _ _ _
        exact .single (.hand p e numbered)
      · intro p e env numbered epoch _ _
        have unchanged : slot.ref.load { (w.hand p e).deliver p with env } = f := by
          rw [← loaded]; rfl
        simp only [ends_get, ends_ite, ends_throw, ends_update, unchanged, if_neg (not_not.mpr epoch)]
        split
        · exact .single (.hand p e numbered)
        · have still : ({ (w.hand p e).deliver p with env } : World).session.flight slot = some f := present
          have stored := endpoint_store slot (f.record now onlyNew index start stop p.number) _ still
          show Sends w.endpoint (slot.ref.store _ _).endpoint
          rw [stored]
          exact .single (.fragment slot f.core p e index start stop onlyNew now numbered listed)

private theorem transmit_sends (slot : Slot) (now : Time) (capacity : ℕ) :
    Respects sending.done (slot.ref.transmit now capacity sendHandshake) := by
  refine respects_transmit (fun _ _ _ _ _ _ => sendRange_sends) (fun w => sends_store (.inr ?_)) capacity
  have set : (now + (slot.ref.load w).interval != 0) = true :=
    bne_iff_ne.mpr (Nat.ne_of_gt (Nat.add_pos_right now (slot.ref.load w).positive))
  simp [Flight.armed, Flight.core, set]

/-! ## Acknowledgements -/

theorem sendRecord_sends (epoch : ℕ) (typ : UInt8) (body : Bytes) :
    Respects sending.done (sendRecord epoch typ body) := fun _ =>
  sendRecord_ends (fun _ => .refl) (fun p e _ _ numbered _ _ _ => .single (.hand p e numbered))
    fun p e _ numbered _ _ _ => .single (.hand p e numbered)

theorem acknowledges_sends : Acknowledges sending.done where
  change only := sends_modifySession fun w => by
    rw [← only w.session]
    rfl
  send epoch := sendRecord_sends epoch contentACK

theorem sendACK_sends : Respects sending.done sendACK := acknowledges_sends.sendACK

/-! ## Flights -/

omit [Crypto] in
theorem endpoint_reduceHandshakeMTU (w : World) (tooBig : ℕ) :
    ({ w with session := (w.session.reduceHandshakeMTU tooBig).2 } : World).endpoint = w.endpoint := by
  unfold Session.reduceHandshakeMTU
  dsimp only
  split
  · rfl
  · split <;> rfl

theorem retransmit_sends (slot : Slot) (now : Time) : Respects sending.done (transmit slot now) := by
  refine respects_transmitLoop (transmit_sends slot now) sendACK_sends (fun w tooBig s shrunk => ?_) _
  have quiet := endpoint_reduceHandshakeMTU w tooBig
  rw [shrunk] at quiet
  show Sends w.endpoint ({ w with session := s } : World).endpoint
  rw [quiet]

end Socat.Dtls13
