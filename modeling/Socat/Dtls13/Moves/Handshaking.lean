import Socat.Dtls13.Moves.Taking
import Socat.Dtls13.Moves.Phases

/-! # The handshake handler as moves

Before the handshake is complete a message goes to the handshake handler. Its answer may install keys
and start a flight. Keys are installed at once, so the moves install them before the handler's state
is taken over; if that fails, the association ends.
-/

namespace Socat.Dtls13

open Machine

/-! ## Installing keys -/

inductive InstallStep : TrafficEpochs → TrafficEpochs → Prop
  | install {t : TrafficEpochs} (epoch : ℕ) (readKeys writeKeys : TrafficKeys)
      (epochs : epoch = 2 ∨ epoch = 3) (absent : epoch ∉ t.installed)
      (staged : epoch = 3 → 2 ∈ t.installed) : InstallStep t (t.install epoch readKeys writeKeys)

abbrev Installs : TrafficEpochs → TrafficEpochs → Prop := Relation.ReflTransGen InstallStep

namespace Installs

variable {t t' : TrafficEpochs}

theorem kept (installs : Installs t t') (kept : t.Kept) : t'.Kept := by
  induction installs with
  | refl => exact kept
  | tail _ step ih =>
    cases step with
    | install epoch readKeys writeKeys epochs absent staged => exact ih.install epoch readKeys writeKeys

private theorem installed (installs : Installs t t') {epoch : ℕ} (member : epoch ∈ t.installed) :
    epoch ∈ t'.installed := by
  induction installs with
  | refl => exact member
  | tail _ step ih =>
    cases step with
    | install => exact Finset.mem_insert_of_mem ih

end Installs

variable [Crypto]
variable {k : Endpoint} {t : TrafficEpochs} {w : World} {messages response : List HandshakeMessage}
  {now : Time} {handshake : Handshake}

theorem Installs.acts (installs : Installs k.epochs t) :
    Acts k { k with epochs := t } := by
  induction installs with
  | refl => exact .refl k
  | tail _ step ih =>
    cases step with
    | install epoch readKeys writeKeys epochs absent staged =>
      exact ih.trans (Move.acts (.install epoch readKeys writeKeys epochs absent staged) rfl rfl)

omit [Crypto] in
private theorem installPair_ends {epoch : ℕ} (epochs : epoch = 2 ∨ epoch = 3) {client server : Bytes}
    (staged : client ≠ [] → epoch = 3 → 2 ∈ w.session.epochs.installed) :
    Ends (installPair epoch client server) w
      (fun _ w' => ∃ t, w' = { w with session.epochs := t } ∧ Installs w.session.epochs t ∧
        (client ≠ [] → epoch ∈ t.installed))
      (fun _ w' => w' = w) := by
  unfold installPair
  rw [ends_session]
  split
  · rename_i done
    exact ends_pure.mpr ⟨_, rfl, .refl, done.resolve_left⟩
  rename_i fresh
  simp only [not_or] at fresh
  dsimp only
  split
  · exact ends_throw.mpr rfl
  · exact ends_throw.mpr rfl
  · rename_i readKeys writeKeys _ _
    exact ends_modifySession.mpr ⟨_, rfl,
      .single (.install epoch readKeys writeKeys epochs fresh.2 (staged fresh.1)),
      fun _ => Finset.mem_insert_self _ _⟩

omit [Crypto] in
theorem installKeys_ends : Ends installKeys w
      (fun _ w' => ∃ t, w' = { w with session.epochs := t } ∧ Installs w.session.epochs t ∧
        (w.session.handshake.handshakeKeys = true → 2 ∈ t.installed) ∧
        (w.session.handshake.applicationKeys = true → 3 ∈ t.installed))
      (fun _ w' => ∃ t, w' = { w with session.epochs := t } ∧ Installs w.session.epochs t) := by
  unfold installKeys
  rw [ends_session]
  split
  · rename_i unscheduled
    refine ends_pure.mpr ⟨_, rfl, .refl, fun keys => ?_, fun keys => ?_⟩
    · simp [Handshake.handshakeKeys, unscheduled] at keys
    · simp [Handshake.applicationKeys, unscheduled] at keys
  · rename_i schedule scheduled
    rw [ends_bind]
    refine (installPair_ends (.inl rfl) (by simp)).mono (fun _ w₁ first => ?_) (fun _ w₁ same => ⟨_, same, .refl⟩)
    obtain ⟨t₁, rfl, installs₁, handshake⟩ := first
    have prepared : w.session.handshake.handshakeKeys = true → 2 ∈ t₁.installed := fun keys =>
      handshake fun empty => by simp [Handshake.handshakeKeys, scheduled, empty] at keys
    refine (installPair_ends (.inr rfl) fun nonempty _ => prepared (Handshake.handshakeKeys_of_applicationKeys ?_)).mono
      (fun _ w₂ second => ?_) (fun _ w₂ same => ⟨_, same, installs₁⟩)
    · simpa [Handshake.applicationKeys, scheduled] using nonempty
    obtain ⟨t₂, rfl, installs₂, application⟩ := second
    refine ⟨t₂, rfl, installs₁.trans installs₂, fun keys => ?_, fun keys => ?_⟩
    · exact Installs.installed installs₂ (prepared keys)
    · refine application fun empty => ?_
      simp [Handshake.applicationKeys, empty] at keys

/-! ## Flights -/

omit [Crypto] in
theorem endpoint_outbound (w : World) (f : Flight) :
    ({ w with session.outbound := some f } : World).endpoint = w.endpoint.setFlight .outbound f.core :=
  endpoint_setFlight w f .outbound

/-- A flight is put in place under the keys there are then, and sent. -/
theorem startFlight_ends {Q : Unit → World → Prop}
    (sent : ∀ t f, Acts w.endpoint ({ w with session.epochs := t } : World).endpoint →
      Installs w.session.epochs t → (w.session.handshake.handshakeKeys = true → 2 ∈ t.installed) →
      ({ w with session.epochs := t, session.outbound := some f } : World).endpoint
        = ({ w with session.epochs := t } : World).endpoint.setFlight .outbound
            ⟨messages.map OutboundMessage.start, ∅, false, false⟩ →
      Ends (transmit .outbound now) { w with session.epochs := t, session.outbound := some f } Q
        fun _ w' => Breaks w.endpoint w'.endpoint) :
    Ends (startFlight messages now) w Q fun _ w' => Breaks w.endpoint w'.endpoint := by
  unfold startFlight
  rw [ends_bind]
  refine installKeys_ends.mono (fun _ w₁ installed => ?_) (fun _ w₁ failed => ?_)
  · obtain ⟨t, rfl, installs, handshake, -⟩ := installed
    have acts : Acts w.endpoint ({ w with session.epochs := t } : World).endpoint :=
      Installs.acts installs
    rw [ends_session]
    dsimp only
    split
    · exact ends_throw.mpr acts.breaks
    rename_i f created
    rw [ends_bind, ends_modifySession]
    exact sent t f acts installs handshake (newFlight_core created ▸ endpoint_outbound { w with session.epochs := t } f)
  · obtain ⟨t, rfl, installs⟩ := failed
    exact (Installs.acts installs).breaks

/-- A flight of the handshake is started while no key update is under way, with keys for all of its
messages. -/
theorem startFlight_breaks (idle : w.endpoint.updating = false)
    (keyed : ∀ t, Installs w.session.epochs t →
      (w.session.handshake.handshakeKeys = true → 2 ∈ t.installed) → ∀ m ∈ messages, m.epoch ∈ t.write) :
    Took w w (startFlight messages now) := by
  refine startFlight_ends fun t f acts installs handshake outbound => ?_
  have started : Move ({ w with session.epochs := t } : World).endpoint
      ({ w with session.epochs := t, session.outbound := some f } : World).endpoint :=
    outbound ▸ .startOutbound messages idle (keyed t installs handshake)
  refine ((retransmit_sends .outbound now _).and (transmit_timed .outbound now _)).mono
    (fun _ w₂ outcome => ?_) (fun _ w₂ outcome => ?_)
  · obtain ⟨sends, armed⟩ := outcome
    refine ⟨.trans acts.moves (.head started sends.moves), fun timed slot => ?_, fun _ updating => ?_⟩
    · by_cases same : slot = .outbound
      · subst same
        exact armed
      · change w₂.endpoint.TimedAt slot
        refine SendFrame.timedAt (Sends.frame sends) ?_
        rw [outbound]
        intro g listed
        simp only [Endpoint.setFlight, Function.update_of_ne same] at listed
        exact timed slot g listed
    · exact absurd ((Sends.frame sends).updating.symm.trans updating |>.symm.trans idle) (by simp)
  · exact Breaks.after (acts.moves.tail started) outcome.1.acts.breaks

/-- A flight whose messages may have no keys. -/
theorem startFlight_unkeyed (incomplete : w.session.handshake.complete = false) :
    Ends (startFlight messages now) w (fun _ w' => Breaks w.endpoint w'.endpoint)
      (fun _ w' => Breaks w.endpoint w'.endpoint) := by
  refine startFlight_ends fun t f acts _ _ outbound => ?_
  have started : Breaks w.endpoint
      ({ w with session.epochs := t, session.outbound := some f } : World).endpoint :=
    ⟨_, _, acts.moves, outbound ▸ .unkeyed messages incomplete, .refl⟩
  exact (retransmit_sends .outbound now _).mono (fun _ _ => started.send) (fun _ _ => started.send)

/-! ## The handler -/

omit [Crypto] in
private theorem endpoint_finishOutbound (w : World) (now : Time) :
    ({ w with session := w.session.finishOutbound now } : World).endpoint = w.endpoint ∨
      ({ w with session := w.session.finishOutbound now } : World).endpoint
        = w.endpoint.setFlight .outbound ⟨[], ∅, true, false⟩ := by
  unfold Session.finishOutbound
  split
  · exact .inl rfl
  · rename_i f present
    right
    unfold Session.noteFlightRTT
    split
    · exact endpoint_outbound w f.finish
    · exact endpoint_outbound { w with session.rtt := now - f.firstSent } f.finish

omit [Crypto] in
private theorem handshake_finishOutbound (s : Session) (now : Time) :
    (s.finishOutbound now).handshake = s.handshake := by
  unfold Session.finishOutbound
  split
  · rfl
  · unfold Session.noteFlightRTT
    split <;> rfl

private theorem setFinished_acts (k : Endpoint) :
    Acts k (k.setFlight .outbound ⟨[], ∅, true, false⟩) := by
  refine ⟨.single (.finishOutbound false), fun timed slot f listed incomplete => ?_,
    fun held updating => ?_⟩
  · by_cases same : slot = .outbound
    · subst same
      simp only [Endpoint.setFlight, Function.update_self, Option.some.injEq] at listed
      rw [← listed] at incomplete
      cases incomplete
    · simp only [Endpoint.setFlight, Function.update_of_ne same] at listed
      exact timed slot f listed incomplete
  · obtain ⟨typ, outstanding⟩ := held updating
    exact ⟨typ, (Endpoint.outstanding_of_update rfl (by simp)).mpr outstanding⟩

/-- Finishing the outbound flight under a handler's new state. -/
theorem finishOutbound_dressed (now : Time)
    (dressed : w.endpoint = { k with handshake }) :
    ∃ k', ({ w with session := w.session.finishOutbound now } : World).endpoint
        = { k' with handshake } ∧ Acts k k' ∧ k'.epochs = k.epochs ∧
      k'.handshake = k.handshake ∧ k'.updating = k.updating := by
  rcases endpoint_finishOutbound w now with same | finished
  · exact ⟨k, same.trans dressed, .refl k, rfl, rfl, rfl⟩
  · rw [dressed] at finished
    exact ⟨k.setFlight .outbound ⟨[], ∅, true, false⟩, finished, setFinished_acts k, rfl, rfl, rfl⟩

private theorem respond_breaks (idle : w.endpoint.updating = false)
    (keyed : ∀ t, Installs w.session.epochs t →
      (w.session.handshake.handshakeKeys = true → 2 ∈ t.installed) → ∀ m ∈ response, m.epoch ∈ t.write) :
    Took w w (respond response now) := by
  unfold Took respond
  rw [ends_session, ends_bind, ends_runIf]
  refine ⟨fun _ => ?_, fun _ => startFlight_breaks idle keyed⟩
  rw [ends_modifySession]
  exact startFlight_breaks (w := { w with session.ack := {} }) idle keyed

section

variable {w : World} {m : HandshakeMessage} {reassembly : Reassembler} {reserve : List Bool}

/-- What a handler did before its keys were installed: the association ends there, or goes on with
the keys in place. -/
theorem handled_breaks {k' : Endpoint} (acts : Acts k k')
    (incomplete : k'.handshake.complete = false) (phased : handshake.complete = false → handshake.Phased)
    (installs : Installs k'.epochs t) :
    Breaks k { k' with epochs := t, handshake } := by
  have installed : Acts k' { k' with epochs := t } := Installs.acts installs
  exact ⟨_, _, (acts.trans installed).moves, .unsecured handshake incomplete phased, .refl⟩

private theorem handled_acts {k' : Endpoint} (acts : Acts k k')
    (incomplete : k'.handshake.complete = false) (phased : handshake.complete = false → handshake.Phased)
    (installs : Installs k'.epochs t) (secured : handshake.complete = true → 3 ∈ t.installed) :
    Acts k { k' with epochs := t, handshake } := by
  have installed : Acts k' { k' with epochs := t } := Installs.acts installs
  exact (acts.trans installed).trans
    (Move.acts (.handler handshake incomplete phased secured) rfl rfl)

/-- The keys and the flight of a handler's answer. -/
theorem answered_breaks {k' : Endpoint} (acts : Acts k k')
    (dressed : w.endpoint = { k' with handshake := { handshake with peerCID := [] } })
    (current : w.session.handshake = handshake) (incomplete : k'.handshake.complete = false)
    (idle : k'.updating = false) (kept : k'.epochs.Kept) (answered : Answered response handshake) :
    Ends (do installKeys; runIf (response ≠ []) (respond response now); sendACK) w
      (fun _ w' => Acts k w'.endpoint) (fun _ w' => Breaks k w'.endpoint) := by
  have installed : ∀ t, ({ w with session.epochs := t } : World).endpoint
      = { k' with epochs := t, handshake := { handshake with peerCID := [] } } :=
    fun t => congrArg (fun k : Endpoint => { k with epochs := t }) dressed
  have before : w.session.epochs = k'.epochs := congrArg Endpoint.epochs dressed
  have phased : handshake.complete = false → ({ handshake with peerCID := [] } : Handshake).Phased :=
    fun unfinished => Handshake.phased_peerCID.mpr (answered.phased unfinished)
  rw [ends_bind]
  refine installKeys_ends.mono (fun _ w₁ outcome => ?_) (fun _ w₁ failed => ?_)
  · obtain ⟨t, rfl, installs, handshakeKeys, applicationKeys⟩ := outcome
    rw [current] at handshakeKeys applicationKeys
    rw [before] at installs
    have acts₁ : Acts k ({ w with session.epochs := t } : World).endpoint := by
      rw [installed]
      exact handled_acts acts incomplete phased installs fun complete => applicationKeys (answered.secured complete)
    have kept₁ : t.Kept := Installs.kept installs kept
    have idle₁ : ({ w with session.epochs := t } : World).endpoint.updating = false := by
      rw [installed]
      exact idle
    rw [ends_bind, ends_runIf]
    refine ⟨fun _ => ?_, fun _ => took_of_sends acts₁ sendACK_sends⟩
    refine (respond_breaks idle₁ fun t' later again m member => ?_).mono
      (fun _ _ acts₂ => took_of_sends (acts₁.trans acts₂) sendACK_sends) (fun _ _ => Breaks.after acts₁.moves)
    obtain ⟨plain, protected'⟩ := Installs.kept later kept₁
    rcases answered.keyed m member with clear | ⟨encrypted, keys⟩
    · exact clear ▸ plain
    · exact encrypted ▸ protected' (again (current ▸ keys))
  · obtain ⟨t, rfl, installs⟩ := failed
    rw [before] at installs
    rw [installed]
    exact handled_breaks acts incomplete phased installs

theorem handleMessage_took (good : w.endpoint.Good)
    (pops : Pops w.endpoint m reassembly) (incomplete : w.session.handshake.complete = false)
    (now : Time) : Took w (w.popped reassembly reserve) (handleMessage m now) := by
  have popped : Acts w.endpoint { w.endpoint with reassembly } :=
    Move.acts (.pop m reassembly pops) rfl rfl
  have idle : w.endpoint.updating = false := Bool.eq_false_iff.mpr fun updating =>
    absurd (incomplete.symm.trans (good.finished updating).1) (by simp)
  have phased : w.session.handshake.Phased := Handshake.phased_peerCID.mp (good.phased incomplete)
  have handles := handle_ends m ⟨w.session.handshake, w.env.handshakes.headD {}⟩ incomplete phased
  unfold handleMessage callHandler
  rw [Took, ends_bind, ends_bind, ends_get]
  dsimp only [World.popped]
  split
  · rename_i response after outcome
    have answered : Answered response after.handshake := handles.ok outcome
    rw [ends_bind, ends_set, ends_pure]
    generalize (m, _) :: _ = accepted
    set w₂ : World := { w.popped reassembly reserve with
      session.handshake := after.handshake, env.handshakes := w.env.handshakes.tail, history.answered := accepted }
    have dressed : w₂.endpoint = { { w.endpoint with reassembly } with
        handshake := { w₂.session.handshake with peerCID := [] } } := rfl
    obtain ⟨k', dressed', finished, epochs, handshake, updating⟩ :
        ∃ k', _ ∧ Acts _ k' ∧ _ := finishOutbound_dressed now dressed
    rw [ends_bind, ends_modifySession]
    exact answered_breaks (popped.trans finished) dressed' (handshake_finishOutbound w₂.session now)
      (handshake ▸ incomplete) (updating.trans idle) (epochs ▸ good.kept incomplete) answered
  · rename_i e after outcome
    have refused : Refused after.handshake := handles.error outcome
    rw [ends_bind, ends_set, ends_throw]
    exact handled_breaks popped incomplete
      (fun _ => Handshake.phased_peerCID.mpr refused.phased) .refl

end

end Socat.Dtls13
