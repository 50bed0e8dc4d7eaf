import Socat.Dtls13.Moves.Calm
import Socat.Dtls13.Moves.Upkeep
import Socat.Dtls13.Soundness.Flights
import Socat.Dtls13.Soundness.MessageLedger

/-! # Message sequence numbers

Every handshake message of a session takes the next number, and none is taken back but the number of an operation
of which nothing was sent. So the numbers of the messages that were sent, in the order of their first records, have no
gap, with one exception: a message of the client ends the server's flight, also while the last messages of that flight
are still waiting for their first burst. They are never sent, and their numbers are skipped.
-/

namespace Socat.Dtls13

open Machine List

/-! ## What keeps the numbers in step -/

open Ledger

variable {base : ℕ}

/-- Both ways to end keep the numbers in step. -/
def World.Steady (base : ℕ) (w w' : World) : Prop := w.ledger.InStep base → w'.ledger.InStep base

instance : Std.Refl (World.Steady base) := ⟨fun _ => id⟩

instance : IsTrans World (World.Steady base) := ⟨fun _ _ _ first second inStep => second (first inStep)⟩

variable {w : World} {slot : Slot}

theorem World.Silent.steady {w' : World} (silent : w.Silent w') : w.Steady base w' := by
  intro inStep
  rwa [show w'.ledger = w.ledger from silent]

open World (Steady Silent)

theorem steady_of_silent {α : Type} {x : SessionM α} (silent : Respects Silent x) :
    Respects (Steady base) x := silent.weaken fun _ _ => Silent.steady

theorem steady_of_quiet {α : Type} {x : SessionM α} (quiet : Respects World.Quiet x) :
    Respects (Steady base) x := steady_of_silent (silent_of_quiet quiet)

theorem steady_modifySession {change : Session → Session}
    (silent : ∀ w : World, w.Silent { w with session := change w.session }) :
    Respects (Steady base) (modifySession change) := steady_of_silent (respects_modify silent)

/-- A flight is changed in other fields than its messages and records. -/
theorem store_steady {g : Flight} (messages : g.messages = (slot.ref.load w).messages)
    (sent : g.sent = (slot.ref.load w).sent) (accounted : (slot.ref.load w).Accounted → g.Accounted) :
    w.Steady base (slot.ref.store g w) := fun inStep =>
  (store_underway (.refl inStep.numbering) messages sent accounted).inStep inStep

private theorem noteRTT_steady (sample : Duration) (slot : Slot) : Respects (Steady base) (noteRTT sample slot) := by
  refine respects_ite (respects_pure _) <| respects_bind (steady_modifySession fun _ => rfl) fun _ =>
    respects_getSession_bind fun w => ?_
  have timer : w.session.retransmitTimer ≤ maximumRetransmit := by
    unfold Session.retransmitTimer clampDuration
    split_ifs
    · decide
    · decide
    · exact le_rfl
    · exact not_lt.mp ‹_›
  rw [ends_update]
  split
  · exact store_steady rfl rfl id
  · exact store_steady rfl rfl fun accounted => { accounted with interval := timer }

/-- An acknowledgement ends a flight only when all of it was sent. -/
theorem acknowledge_steady {f : Flight} (present : w.session.flight slot = some f)
    (records : List RecordNumber) (authenticated : Bool) (now : Time) :
    w.Steady base (slot.ref.store (f.acknowledge records authenticated now).2 w) := by
  intro inStep
  obtain ⟨⟨front, skipped, back, numbering⟩, prompt, launched, started⟩ := inStep
  have held : w.ledger.held slot = f := Slot.load_of_present present
  have accounted := held ▸ numbering.aboard.accounted slot
  have acknowledged := (accounted.acknowledge records authenticated now).accounted
  have noted := numbering.aboard.noted slot
  rw [held] at noted
  rw [ledger_store present]
  generalize outcome : (f.acknowledge records authenticated now).2 = g at acknowledged ⊢
  have begun := acknowledge_begun accounted records authenticated now
  rw [outcome] at begun
  have messages : g.messages.map (·.message) = w.ledger.messages slot ∨
      g.messages = [] ∧ w.ledger.unflown slot = [] := by
    rw [Ledger.messages, held]
    obtain same | ⟨none, all⟩ := begun
    · have view := congrArg (List.map Prod.fst) same
      rw [map_map, map_map] at view
      exact .inl view
    · refine .inr ⟨none, eq_nil_iff_forall_not_mem.mpr fun m waits => ?_⟩
      obtain ⟨listed, unsent⟩ := mem_unflown.mp waits
      rw [Ledger.messages, held, mem_map] at listed
      obtain ⟨x, member, rfl⟩ := listed
      exact unsent (noted x member (all x member))
  have exchanged := numbering.exchange acknowledged messages (by
    intro x member began
    obtain same | ⟨none, -⟩ := begun
    · have mapped := mem_map_of_mem (f := OutboundMessage.outline) member
      rw [same, mem_map] at mapped
      obtain ⟨y, listed, outline⟩ := mapped
      rw [show x.message = y.message from (congrArg Prod.fst outline).symm]
      exact noted y listed (begun_of_outline outline.symm began)
    · rw [none] at member
      exact absurd member not_mem_nil)
  have outbound : (w.ledger.exchange slot g).messages .outbound = w.ledger.messages .outbound ∨
      (w.ledger.exchange slot g).messages .outbound = [] := by
    by_cases here : slot = .outbound
    · subst here
      rw [Ledger.messages, held_exchange]
      exact messages.imp id fun ended => by rw [ended.1]; rfl
    · exact .inl (messages_congr (held_exchange_of_ne g (Ne.symm here)))
  refine ⟨⟨front, skipped, back, exchanged⟩, fun incomplete early => ?_, ?_, started⟩
  · unfold unflown
    obtain same | none := outbound
    · rw [same]
      exact prompt incomplete early
    · rw [none]
      rfl
  · unfold Launched
    obtain same | none := outbound
    · rw [same]
      exact launched
    · simp [none]

private theorem expire_steady {f : Flight} (present : w.session.flight slot = some f) (now : Time) :
    w.Steady base (slot.ref.store (f.expire now).2 w) := by
  have loaded := Slot.load_of_present present
  have kept : (f.expire now).2.messages = f.messages ∧ (f.expire now).2.sent = f.sent := by
    unfold Flight.expire
    split_ifs <;> exact ⟨rfl, rfl⟩
  exact store_steady (loaded ▸ kept.1) (loaded ▸ kept.2) fun accounted => ((loaded ▸ accounted).expire now).accounted

/-! ## Operations after the handshake -/

private theorem ledger_issue (w : World) (typ : PostType) (f : Flight) :
    (({ w with session.handshake.sequence := w.session.handshake.sequence + 1 } : World).issue typ f).ledger =
      w.ledger.issue typ f :=
  congrArg (fun l => { l with sequence := w.ledger.sequence + 1 }) (ledger_setFlight w (some f) (.post typ))

/-- A message of which nothing was sent gives its number back; any other keeps its flight. -/
private theorem settlePost_inStep {typ : PostType} {m : HandshakeMessage} {front skipped back : List HandshakeMessage}
    (numbering : w.ledger.Numbering base (.post typ) [] front skipped back)
    (only : w.ledger.messages (.post typ) = [m])
    (witnessed : w.ledger.Witnessed (.post typ)) (now : Time) : (w.settlePost typ now).ledger.InStep base := by
  unfold World.settlePost
  split
  · rename_i absent
    rw [Ledger.messages, show w.ledger.held (.post typ) = default from congrArg (·.getD default) absent] at only
    cases only
  · rename_i f present
    have held : w.ledger.held (.post typ) = f := Slot.load_of_present present
    by_cases unsent : f.sent.entries = []
    · rw [if_pos unsent]
      have waits : w.ledger.unflown (.post typ) = [m] := by
        unfold unflown
        rw [only]
        refine filter_cons_of_pos (decide_eq_true fun sent => ?_)
        exact witnessed.mp ⟨m, only ▸ mem_singleton_self m, sent⟩ (held ▸ unsent)
      have single : f.messages.length = 1 := by
        rw [← held, ← length_map (f := (·.message)), ← Ledger.messages, only]
        rfl
      have ledger : ({ w with
          session.post := Function.update w.session.post typ none
          session.handshake.sequence := w.session.handshake.sequence - f.messages.length } : World).ledger =
            w.ledger.withdraw typ := by
        rw [single]
        exact congrArg (fun l => { l with sequence := w.ledger.sequence - 1 }) (ledger_setFlight w none (.post typ))
      rw [ledger]
      exact numbering.withdraw waits
    · have none : w.ledger.unflown (.post typ) = [] := by
        obtain ⟨x, listed, sent⟩ := witnessed.mpr (held ▸ unsent)
        rw [only, mem_singleton] at listed
        exact unflown_of_sent only (listed ▸ sent)
      rw [if_neg unsent]
      split
      · have under : Underway base (.post typ) (.post typ) w.ledger w.ledger := .refl ⟨_, _, _, numbering⟩
        have touched := under.touch (g := { f with deadline := now + f.interval }) (held ▸ rfl) (held ▸ rfl)
          (held ▸ fun accounted => { accounted with })
        obtain ⟨_, _, _, later⟩ := touched.numbering
        exact ledger_setFlight w (some _) (.post typ) ▸ later.inStep (by simp) (touched.follows.unflown none)
      · exact numbering.inStep (by simp) none

private theorem dropComplete_steady : Respects (Steady base) (modifySession Session.dropComplete) := by
  refine respects_modify fun w inStep => inStep.refit fun slot => ?_
  cases slot with
  | outbound => exact .inl rfl
  | post typ =>
    obtain ⟨_, _, _, numbering⟩ := inStep.numbering
    have finished := (numbering.aboard.accounted (.post typ)).finished
    cases present : w.session.post typ with
    | none => exact .inl (by simp [Session.dropComplete, Session.flight, World.ledger, present])
    | some f =>
      have held : w.ledger.held (.post typ) = f := Slot.load_of_present present
      rw [held] at finished ⊢
      cases stopped : f.complete with
      | false => exact .inl (by simp [Session.dropComplete, Session.flight, Option.filter, present, stopped])
      | true =>
        exact .inr ⟨by simp [Session.dropComplete, Session.flight, Option.filter, present, stopped], finished stopped⟩

/-! ## Handshake flights -/

/-- A computation that returns keeps the numbers in step. One that fails may leave drafted messages behind. -/
def numbered (base : ℕ) : Discipline World :=
  .keeping (fun w => w.ledger.InStep base) (fun w => w.ledger.Sound base) fun _ => InStep.sound

theorem obeys_steady {α : Type} {x : SessionM α} (steady : Respects (Steady base) x) : Obeys (numbered base) x :=
  fun w _ => (steady w).mono (fun _ _ => id) fun _ _ kept inStep => (kept inStep).sound

theorem ledger_depart (w : World) (f : Flight) :
    ({ w with session.outbound := some f } : World).ledger = w.ledger.exchange .outbound f :=
  ledger_setFlight w (some f) .outbound

/-- A flight that is answered is over. -/
private theorem finishOutbound_ended (w : World) (now : Time) (accounted : (w.ledger.held .outbound).Accounted) :
    ∃ f : Flight, ({ w with session := w.session.finishOutbound now } : World).ledger = w.ledger.exchange .outbound f ∧
      f.messages = [] ∧ f.Accounted := by
  unfold Session.finishOutbound
  cases present : w.session.outbound with
  | none =>
    have held : w.ledger.held .outbound = default := congrArg (·.getD default) present
    refine ⟨w.ledger.held .outbound, ?_, congrArg Flight.messages held, accounted⟩
    rw [exchange, Function.update_eq_self]
    rfl
  | some f =>
    have held : w.ledger.held .outbound = f := Slot.load_of_present present
    refine ⟨f.finish, Eq.trans ?_ (ledger_depart w f.finish), rfl, (held ▸ accounted).finish⟩
    unfold Session.noteFlightRTT
    dsimp only
    split <;> rfl

/-- The handler takes a message: it answers with the messages it numbers. -/
private theorem callHandler_answers (m : HandshakeMessage) (now : Time) (inStep : w.ledger.InStep base) :
    Ends (callHandler m) w
      (fun response w' =>
        let finished : World := { w' with session := w'.session.finishOutbound now }
        w.ledger.Answers response finished.ledger ∧
          (w.ledger.client = true → response.length ≤ 1 ∨ finished.ledger.complete = true))
      fun _ w' => w'.ledger.Sound base := by
  obtain ⟨⟨front, skipped, back, numbering⟩, -⟩ := inStep
  have drafting := handle_drafting m ⟨w.session.handshake, w.env.handshakes.headD {}⟩
  have brief := fun client => handle_brief (w := ⟨w.session.handshake, w.env.handshakes.headD {}⟩) client m
  have passes := fun server => handle_passes (w := ⟨w.session.handshake, w.env.handshakes.headD {}⟩) server m
  unfold Ends at drafting brief passes
  refine ends_bind.mpr (ends_get.mpr ?_)
  split
  · rename_i response after outcome
    rw [outcome] at drafting brief passes
    obtain ⟨drafted, same, drafts⟩ := drafting
    obtain rfl : response = drafted := same
    rw [ends_bind, ends_set, ends_pure]
    generalize accepted : (m, _) :: w.history.answered = log
    obtain ⟨f, finished, ended, accounted⟩ := finishOutbound_ended { w with
      session.handshake := after.handshake, env.handshakes := w.env.handshakes.tail, history.answered := log } now
        (numbering.aboard.accounted .outbound)
    intro closed
    rw [finished]
    exact ⟨⟨rfl, congrArg Prod.snd drafts.fixed, fun _ => held_exchange_of_ne f,
      (congrArg Flight.messages (held_exchange f)).trans ended, by rwa [held_exchange], drafts.numbers,
        drafts.counter, drafts.bounded numbering.bounded, drafts.early, fun server => (passes server).once,
      ⟨m, accepted.symm⟩, fun server => (passes server).later⟩, brief⟩
  · rename_i e after outcome
    rw [outcome] at drafting
    rw [ends_bind, ends_set, ends_throw]
    have client : after.handshake.client = w.session.handshake.client := congrArg Prod.snd drafting
    exact ⟨front, skipped, back, { numbering.enumerated with
      gap := fun some => client.trans (numbering.enumerated.gap some)
      side := client.trans numbering.enumerated.side }⟩

/-- Nothing was sent yet; the messages of the opening flight may have their numbers. -/
theorem Fresh.numbering (fresh : Fresh w.session) (unsent : w.history.wire = [])
    (side : w.session.handshake.client = decide (base = 0)) {drafted : List HandshakeMessage}
    (numbers : drafted.map (·.sequence) = List.range' base drafted.length)
    (counter : w.session.handshake.sequence = base + drafted.length)
    (few : w.session.handshake.sequence ≤ 65536) (early : ∀ m ∈ drafted, m.isPost = false) :
    w.ledger.Numbering base .outbound drafted [] [] [] ∧ w.ledger.unflown .outbound = [] := by
  have absent : ∀ slot, w.ledger.held slot = default := by
    intro slot
    cases slot with
    | outbound => exact congrArg (·.getD default) fresh.outbound
    | post typ => exact congrArg (·.getD default) (fresh.post typ)
  have none : ∀ slot, w.ledger.messages slot = [] := fun slot => by
    rw [Ledger.messages, absent]
    rfl
  have idle : ∀ slot, w.ledger.unflown slot = [] := fun slot => by
    rw [unflown, none]
    rfl
  have flown : w.ledger.flown = [] := by
    show w.history.wire.filter _ = []
    rw [unsent]
    rfl
  have first : w.ledger.firstNumbers = [] := by
    rw [firstNumbers, Ledger.numbers, flown]
    rfl
  refine ⟨⟨⟨rfl, first, ?_, by simp, by simp, by simp, by simp, by simp, side⟩, ⟨?_, fun slot _ => idle slot, ?_, ?_⟩,
    ?_, ?_, few, fun _ _ => ⟨rfl, rfl⟩, ?_, fun waits => absurd (idle .outbound) waits, fun away => absurd rfl away,
    by simp, by simp⟩, idle .outbound⟩
  · simp [flown]
  · intro slot m listed
    rw [none] at listed
    exact absurd listed not_mem_nil
  · exact fun slot => absent slot ▸ Flight.default_accounted
  · intro slot m listed
    rw [absent] at listed
    exact absurd listed not_mem_nil
  · rw [idle]
    exact numbers
  · rw [idle]
    exact counter
  · rw [idle]
    exact early

section

variable [Crypto]

theorem transmit_steady (slot : Slot) (now : Time) : Respects (Steady base) (transmit slot now) := fun _ =>
  ends_assuming fun inStep => (transmit_underway now inStep.numbering).mono
    (fun _ _ sent => sent.1.inStep inStep) (fun _ _ failed => failed.inStep inStep)

/-- An operation that has its number is sent, or gives the number back. -/
private theorem transmitPost_inStep {typ : PostType} {m : HandshakeMessage} {front skipped back : List HandshakeMessage}
    (numbering : w.ledger.Numbering base (.post typ) [] front skipped back)
    (only : w.ledger.messages (.post typ) = [m]) (witnessed : w.ledger.Witnessed (.post typ)) (now : Time) : Ends (do
        match ← attempt (transmit (.post typ) now) with
        | .ok () => pure ()
        | .error e => do
          modify fun w => w.settlePost typ now
          throw e) w
      (fun _ w' => w'.ledger.InStep base) fun _ w' => w'.ledger.InStep base := by
  rw [ends_bind, ends_attempt]
  refine (transmit_underway now ⟨_, _, _, numbering⟩).mono (fun _ w' sent => ?_) fun e w' failed => ?_
  · obtain ⟨⟨⟨_, _, _, later⟩, follows, -⟩, launched⟩ := sent
    have messages := (follows.messages (.post typ)).trans only
    exact later.inStep (by simp) (unflown_of_sent messages (launched m (by rw [messages]; exact mem_singleton_self m)))
  · obtain ⟨_, _, _, later⟩ := failed.numbering
    exact settlePost_inStep later ((failed.follows.messages (.post typ)).trans only) (failed.witnessed witnessed) now

private theorem startPost_steady (typ : PostType) {body : Bytes} (small : body.length ≤ maxHandshakeBody) (now : Time) :
    Respects (Steady base) (startPost typ body now) := by
  refine respects_getSession_bind fun w => ?_
  by_cases busy : w.session.handshake.complete = false ∨ w.session.keyUpdate.updating ∨ w.session.flightPending
  · rw [if_pos busy]
    exact ends_throw.mpr (Std.Refl.refl w)
  rw [if_neg busy]
  by_cases taken : (w.session.post typ).any (fun f => !f.complete)
  · rw [if_pos taken]
    exact ends_throw.mpr (Std.Refl.refl w)
  rw [if_neg taken]
  by_cases full : 65535 < w.session.handshake.sequence
  · rw [Handshake.message, if_pos full]
    exact ends_throw.mpr (Std.Refl.refl w)
  rw [Handshake.message, if_neg full]
  obtain ⟨f, created⟩ := newFlight_single
    ⟨typ.code, w.session.handshake.sequence, w.session.currentWriteEpoch, body⟩ w.session.retransmitTimer small
  simp only [created, ends_bind, ends_modifySession, ends_modify, ends_attempt]
  refine ends_assuming fun inStep => ?_
  have complete : w.ledger.complete = true := by
    cases known : w.session.handshake.complete with
    | true => exact known
    | false => exact absurd (.inl known) busy
  have stopped : (w.ledger.held .outbound).complete = true ∨ (w.ledger.held .outbound).messages = [] := by
    cases present : w.session.outbound with
    | none => exact .inr (congrArg (fun f => (f.getD default).messages) present)
    | some f =>
      refine .inl (by_contra fun running => busy (.inr (.inr ?_)))
      rw [show w.ledger.held .outbound = f from Slot.load_of_present present] at running
      simpa [Session.flightPending, present] using running
  obtain ⟨front, skipped, back, numbering, witnessed, only⟩ := inStep.issue complete stopped typ created rfl
    (Nat.lt_succ_of_le (Nat.le_of_not_lt full)) (by cases typ <;> rfl)
  rw [← ledger_issue w typ f] at numbering witnessed only
  have sent := transmitPost_inStep numbering only witnessed now
  rwa [ends_bind, ends_attempt] at sent

private theorem repeats_steady : Repeats (Steady base) where
  transmit := transmit_steady
  expire now present := expire_steady present now
  restart := respects_modify fun _ => store_steady rfl rfl fun accounted => { accounted with }
  reduce := steady_modifySession fun _ => mtuOnly_silent Session.mtuOnly_reduceHandshakeMTU

theorem upkeep_steady : Upkeep (Steady base) where
  quiet := steady_of_quiet
  startPost typ _ now small := startPost_steady typ small now
  dropComplete := dropComplete_steady
  acknowledgeFlight := respects_acknowledgeFlight (fun present => acknowledge_steady present _ _ _) noteRTT_steady
    transmit_steady
  expireOutbound := repeats_steady.expireOutbound
  retransmitExpired := repeats_steady.retransmitExpired
  tickMTUProbe now := steady_of_silent (tickMTUProbe_silent now)
  applicationTooBig := steady_of_silent (silent_mtuOnly fun _ => Session.mtuOnly_onApplicationTooBig)

/-! ## Handshake messages -/

/-- The drafted messages go out as the handshake flight. -/
theorem startFlight_inStep {messages : List HandshakeMessage}
    (numbering : w.ledger.Consecutive base .outbound messages)
    (idle : w.ledger.unflown .outbound = []) (some : messages ≠ [])
    (brief : w.ledger.complete = false → (w.ledger.client = true ∨ w.ledger.phase = .clientHello) → messages.length ≤ 1)
    (now : Time) :
    Ends (startFlight messages now) w (fun _ w' => w'.ledger.InStep base) fun _ w' => w'.ledger.Sound base := by
  have sound : ∀ w' : World, w.Silent w' → w'.ledger.Sound base := by
    intro w' silent
    rw [show w'.ledger = w.ledger from silent]
    exact numbering.sound
  refine ends_bind.mpr ((silent_of_quiet installKeys_quiet w).mono (fun _ w₁ silent => ?_) fun _ w₁ => sound w₁)
  rw [ends_session]
  dsimp only
  generalize created : newFlight messages _ = outcome
  split
  · exact sound w₁ silent
  rename_i f
  rw [ends_bind, ends_modifySession]
  rw [← show w₁.ledger = w.ledger from silent] at numbering idle brief
  obtain ⟨front, skipped, back, numbering⟩ := numbering
  obtain ⟨departed, listed⟩ := numbering.depart idle (congrArg (·.messages) (newFlight_core created))
    (Flight.newFlight_accounted created)
  have ledger := ledger_depart w₁ f
  rw [← ledger] at departed listed
  refine (transmit_underway now ⟨_, _, _, departed⟩).mono (fun _ w' sent => ?_) fun _ w' failed => ?_
  · obtain ⟨⟨numbering, follows, -⟩, launched⟩ := sent
    refine ⟨numbering, fun incomplete early => ?_, launched, fun _ => ?_⟩
    · rw [follows.complete, ledger] at incomplete
      rw [follows.client, follows.phase, ledger] at early
      refine filter_eq_nil_iff.mpr fun m listed' => ?_
      have first : m ∈ (w'.ledger.messages .outbound).take 1 := by
        rw [follows.messages, listed] at listed' ⊢
        rwa [take_of_length_le (brief incomplete early)]
      simpa using launched m first
    · obtain ⟨first, rest, rfl⟩ := exists_cons_of_ne_nil some
      refine ne_nil_of_mem (launched first ?_)
      rw [follows.messages, listed]
      exact mem_cons_self
  · exact failed.numbering.sound

private theorem respond_inStep {response : List HandshakeMessage}
    (numbering : w.ledger.Consecutive base .outbound response)
    (idle : w.ledger.unflown .outbound = []) (begun : response = [] → w.ledger.numbers ≠ [])
    (brief : w.ledger.complete = false → (w.ledger.client = true ∨ w.ledger.phase = .clientHello) → response.length ≤ 1)
    (now : Time) : Ends (runIf (response ≠ []) (respond response now)) w (fun _ w' => w'.ledger.InStep base)
      fun _ w' => w'.ledger.Sound base := by
  by_cases none : response = []
  · subst none
    exact ⟨numbering, fun _ _ => idle, launched_of_idle idle, fun _ => begun rfl⟩
  rw [runIf, if_pos none]
  unfold respond
  rw [ends_session, ends_bind]
  have dropped : Respects Silent (runIf (w.session.currentWriteEpoch < 2)
      (modifySession fun s => { s with ack := {} })) := respects_runIf (respects_modify fun _ => rfl)
  refine (dropped w).mono (fun _ w' silent => ?_) (fun _ w' silent => ?_)
  · rw [← show w'.ledger = w.ledger from silent] at numbering idle brief
    exact startFlight_inStep numbering idle none brief now
  · rw [show w'.ledger = w.ledger from silent]
    exact numbering.sound

private theorem handleMessage_inStep (m : HandshakeMessage) (now : Time) (inStep : w.ledger.InStep base)
    (incomplete : w.ledger.complete = false) :
    Ends (handleMessage m now) w (fun _ w' => w'.ledger.InStep base) fun _ w' => w'.ledger.Sound base := by
  refine ends_bind.mpr ((callHandler_answers m now inStep).imp fun response w₁ outcome => ?_)
  obtain ⟨answers, brief⟩ := outcome
  have numbering := answers.numbering inStep incomplete
  have begun : response = [] → w.ledger.numbers ≠ [] := by
    intro none
    cases side : w.ledger.client with
    | true => exact inStep.begun (.inl side)
    | false => exact inStep.begun (.inr (.inr ((answers.once side).mp none)))
  rw [Ledger.numbers, ← answers.flown] at begun
  rw [ends_bind, ends_modifySession, ends_bind]
  refine (silent_of_quiet installKeys_quiet _).mono (fun _ w₂ silent => ?_) (fun _ w₂ silent => ?_)
  · rw [← show w₂.ledger = _ from silent] at answers numbering brief begun
    refine ends_bind.mpr ((respond_inStep numbering answers.idle begun (fun unfinished early => ?_) now).mono
      (fun _ w₃ kept => ?_) fun _ _ => id)
    · cases side : w.ledger.client with
      | true => exact (brief side).resolve_right (by simp [unfinished])
      | false =>
        refine absurd (answers.passed side) ?_
        simpa [unfinished, answers.client, side] using early
    · exact (steady_of_quiet sendACK_quiet w₃).mono (fun _ _ steady => steady kept)
        fun _ _ steady => (steady kept).sound
  · rw [show w₂.ledger = _ from silent]
    exact numbering.sound

private theorem processLoop_numbered (now : Time) (fuel : ℕ) : Obeys (numbered base) (processLoop now fuel) := by
  induction fuel with
  | zero => exact obeys_pure _
  | succ fuel ih =>
    refine obeys_bind (obeys_steady (steady_of_quiet popMessage_quiet)) fun popped => ?_
    cases popped with
    | none => exact obeys_pure _
    | some m =>
      intro w _
      dsimp only
      rw [ends_session]
      split
      · exact obeys_bind (obeys_steady (steady_of_quiet (receivePost_quiet m))) (fun _ => ih) w trivial
      · rename_i incomplete
        refine ends_assuming fun inStep => ends_bind.mpr ?_
        refine (handleMessage_inStep m now inStep (Bool.eq_false_iff.mpr incomplete)).imp fun _ w' kept => ?_
        exact (ih w' trivial).mono (fun _ _ later => later kept) fun _ _ failed => failed kept

theorem processHandshakes_numbered (now : Time) : Obeys (numbered base) (processHandshakes now) :=
  obeys_bind (obeys_steady respects_getSession) fun _ => processLoop_numbered now _

theorem receiveHandshake_numbered (number : RecordNumber) (body : Bytes) (now : Time) :
    Obeys (numbered base) (receiveHandshake number body now) :=
  obeys_bind (obeys_steady (steady_of_quiet (addFragments_quiet _ _))) fun _ =>
    obeys_bind (obeys_steady (respects_runIf (steady_of_quiet (acknowledges_quiet.queueAcknowledgement _ now))))
      fun _ => processHandshakes_numbered now

/-! ## Events -/

private theorem dispatch_numbered (number : RecordNumber) (typ : UInt8) (body : Bytes) (encrypted : Bool)
    (sender : PacketPath)
    (size : ℕ) (now : Time) : Obeys (numbered base) (dispatch number typ body encrypted sender size now) := by
  unfold dispatch
  refine obeys_ite (fun _ => ?_) fun _ => obeys_steady ?_
  · exact obeys_bind (receiveHandshake_numbered _ _ now) fun _ => obeys_pure _
  refine respects_ite (respects_bind (upkeep_steady.receiveACK _ _ now) fun _ => respects_pure _) <|
    respects_ite (steady_of_quiet (receiveData_quiet _ _)) <|
      respects_ite (respects_bind (steady_of_quiet (receiveAlert_quiet _ _ _)) fun _ => respects_pure _) <|
        respects_ite ?_ (respects_pure _)
  exact respects_bind (steady_of_silent (receiveRRC_silent number body sender size now)) fun _ => respects_pure _

private theorem receiveRecord_numbered (r : Record) (hasCID : Bool) (sender : PacketPath) (now : Time) :
    Obeys (numbered base) (receiveRecord r hasCID sender now) := by
  refine obeys_bind (obeys_steady (steady_of_silent (silent_of_quiet (openRecord_quiet r hasCID)))) fun opened => ?_
  split
  · exact obeys_pure _
  · refine obeys_bind (obeys_steady respects_getSession) fun s => obeys_ite (fun _ => obeys_pure _) fun _ => ?_
    exact obeys_bind (obeys_steady (respects_runIf (steady_of_quiet (routes_quiet.observe sender _ _ _ now)))) fun _ =>
      dispatch_numbered _ _ _ _ sender _ now

private theorem receiveRecords_numbered (hasCID : Bool) (sender : PacketPath) (now : Time) (records : List Record) :
    Obeys (numbered base) (receiveRecords hasCID sender now records) := by
  induction records with
  | nil => exact obeys_pure _
  | cons r rest ih =>
    exact obeys_bind (receiveRecord_numbered r hasCID sender now) fun _ => obeys_bind ih fun _ => obeys_pure _

private theorem receiveFrom_numbered (datagram : Bytes) (sender : PacketPath) (now : Time) :
    Obeys (numbered base) (receiveFrom datagram sender now) := by
  refine obeys_bind (obeys_steady (steady_of_quiet (expireHandshakeRead_quiet now))) fun _ =>
    obeys_bind (obeys_steady respects_getSession) fun s => obeys_ite (fun _ => obeys_pure _) fun _ => ?_
  split
  · exact obeys_pure _
  · exact obeys_bind (obeys_steady (respects_runIf (steady_modifySession fun _ => rfl))) fun _ =>
      obeys_bind (receiveRecords_numbered _ sender now _) fun _ =>
        obeys_bind (obeys_steady (upkeep_steady.finishReceive now)) fun _ => obeys_pure _

private theorem alertError_sound {opening : Bool} (sound : w.ledger.Sound base) (e : Err) : Ends (do
        alertError opening e
        throw e : SessionM Unit) w
      (fun _ w' => w'.ledger.InStep base) fun _ w' => w'.ledger.Sound base := by
  have kept : ∀ w' : World, w.Silent w' → w'.ledger.Sound base := fun w' silent => by
    rwa [show w'.ledger = w.ledger from silent]
  exact ends_bind.mpr ((silent_of_quiet (alertError_quiet opening e) w).mono (fun _ w' => kept w') fun _ w' => kept w')

/-- The flight that opens the session. -/
def Event.starts : Event → Bool
  | .start .. => true
  | _ => false

theorem drive_numbered (event : Event) (later : event.starts = false) : Obeys (numbered base) (drive event) := by
  cases event with
  | start messages now => cases later
  | process now =>
    intro w _
    refine ends_assuming fun inStep => ends_bind.mpr (ends_attempt.mpr ?_)
    exact (processHandshakes_numbered now w trivial).mono (fun _ _ kept => kept inStep)
      fun e _ failed => alertError_sound (failed inStep) e
  | receive datagram sender now =>
    intro w _
    refine ends_assuming fun inStep => ends_bind.mpr (ends_attempt.mpr ?_)
    exact (receiveFrom_numbered datagram sender now w trivial).mono (fun _ _ kept => kept inStep)
      fun e _ failed => alertError_sound (failed inStep) e
  | _ => exact obeys_steady (upkeep_steady.drive rfl)

/-- A command that is refused leaves the numbers in step: the association goes on. -/
theorem command_steady (event : Event) (command : event.fatal = false) : Respects (Steady base) (drive event) :=
  upkeep_steady.drive (by cases event <;> first | rfl | cases command)

/-! ## Runs -/

/-- The session after the events of a script. An error that ends the association ends the run. -/
def World.played : List (Event × Env) → World → World
  | [], w => w
  | (event, env) :: rest, w =>
    match drive event (w.withEnv env) with
    | .ok () w' => played rest w'
    | .error _ w' => if event.fatal then w' else played rest w'

private theorem played_sound {script : List (Event × Env)} (later : ∀ entry ∈ script, entry.1.starts = false)
    (inStep : w.ledger.InStep base) : (w.played script).ledger.Sound base := by
  induction script generalizing w with
  | nil => exact inStep.sound
  | cons entry rest ih =>
    obtain ⟨event, env⟩ := entry
    obtain ⟨first, later⟩ := forall_mem_cons.mp later
    have obeys : Obeys (numbered base) (drive event) := drive_numbered event first
    have steady : event.fatal = false → Respects (Steady base) (drive event) := command_steady event
    have driven := obeys (w.withEnv env) trivial
    unfold World.played
    split
    · rename_i w' outcome
      exact ih later (driven.ok outcome inStep)
    · rename_i e w' outcome
      split
      · exact driven.error outcome inStep
      · rename_i refused
        exact ih later ((steady (by simpa using refused) _).error outcome inStep)

/-- A client opens with its first ClientHello. -/
private theorem start_inStep (fresh : Fresh w.session) (unsent : w.history.wire = [])
    (counter : w.session.handshake.sequence = 1) (client : w.session.handshake.client = true)
    {hello : HandshakeMessage} (typ : hello.typ = msgClientHello) (number : hello.sequence = 0) (now : Time)
    (env : Env) :
    Ends (drive (.start [hello] now)) (w.withEnv env) (fun _ w' => w'.ledger.InStep 0)
      fun _ w' => w'.ledger.Sound 0 := by
  have early : ∀ m ∈ [{ hello with epoch := 0 }], m.isPost = false := by
    intro m listed
    obtain rfl := mem_singleton.mp listed
    unfold HandshakeMessage.isPost
    rw [typ]
    rfl
  obtain ⟨numbering, idle⟩ : (w.withEnv env).ledger.Numbering 0 .outbound [{ hello with epoch := 0 }] [] [] [] ∧
      (w.withEnv env).ledger.unflown .outbound = [] :=
    Fresh.numbering fresh unsent (client.trans (decide_eq_true rfl).symm) (congrArg (fun n => [n]) number) counter
      (counter.trans_le (by decide)) early
  refine ends_bind.mpr (ends_getSession.mpr ?_)
  rw [runIf, if_pos (show (w.withEnv env).session.handshake.complete = false from fresh.incomplete)]
  exact startFlight_inStep ⟨[], [], [], numbering⟩ idle (by simp) (fun _ _ => le_rfl) now

/-- The messages of which a record was sent have consecutive numbers in the order of their first records, from 0 at a
client and from 1 at a server whose HelloRetryRequest used 0; a server leaves out those of the last messages of its
handshake flight that it never sent. Every handshake record that was sent is a fragment of one of these messages. -/
theorem message_numbers_consecutive {w : World} (fresh : Fresh w.session) (unsent : w.history.wire = [])
    (counter : w.session.handshake.sequence = 1) (script : List (Event × Env))
    (later : ∀ entry ∈ script, entry.1.starts = false) :
    (w.session.handshake.client = true → ∀ (hello : HandshakeMessage) (now : Time) (env : Env),
      hello.typ = msgClientHello → hello.sequence = 0 →
        ∃ front back, (w.played ((.start [hello] now, env) :: script)).ledger.Enumerated 0 front [] back) ∧
    (w.session.handshake.client = false →
      ∃ front skipped back, (w.played script).ledger.Enumerated 1 front skipped back) := by
  constructor
  · intro client hello now env typ number
    have opened : (w.played ((.start [hello] now, env) :: script)).ledger.Sound 0 := by
      have started := start_inStep fresh unsent counter client typ number now env
      unfold World.played
      split
      · exact played_sound later (started.ok ‹_›)
      · exact started.error ‹_›
    obtain ⟨front, skipped, back, enumerated⟩ := opened
    obtain rfl : skipped = [] := by
      by_contra some
      exact absurd (enumerated.side.symm.trans (enumerated.gap some)) (by decide)
    exact ⟨front, back, enumerated⟩
  · intro server
    have numbering : w.ledger.Numbering 1 .outbound [] [] [] [] ∧ w.ledger.unflown .outbound = [] :=
      fresh.numbering unsent (by simp [server]) rfl counter (by omega) nofun
    refine played_sound later ⟨⟨[], [], [], numbering.1⟩, fun _ _ => numbering.2, launched_of_idle numbering.2, ?_⟩
    rintro (client | complete | phase)
    · exact absurd (server.symm.trans client) (by simp)
    · exact absurd (fresh.incomplete.symm.trans complete) (by simp)
    · exact absurd (fresh.phase.trans (if_neg (by simp [server]))) phase

end

/-! ### A server that is answered early

The client's connection ID leaves twelve bytes for a fragment. The server's certificate takes seven records then, so
that the first burst of ten ends with CertificateVerify. The client needs no more to compute both Finished messages,
and answers. -/

def crampedServer : World := { newWorld false with
  session.handshake.config := some { MTU := 256 }
  session.handshake.localCID := [1]
  session.handshake.offer := { cid := some (List.replicate 210 0) } }

def earlyScript : List (Event × Env) :=
  let hello : Bytes := [22, 254, 253, 0, 0, 0, 0, 0, 0, 0, 0, 0, 15, 1, 0, 0, 3, 0, 1, 0, 0, 0, 0, 0, 3, 1, 2, 3]
  let finished : Bytes := [62, 1, 0, 0, 0, 29, 20, 0, 0, 0, 0, 2, 0, 0, 0, 0, 0, 0, 22] ++
    transparentTag (transparentKeys 1) 0
  let answers : Answers := { agreedAnswers [1, 2, 3, 4] with bodies := [[], [], List.replicate 84 0] }
  [(.receive hello {} 1, { handshakes := [answers] }), (.receive finished {} 2, { handshakes := [{}] }),
    (.updateKeys false 3, {})]

/-- The server's Finished is never sent, and the KeyUpdate has the number after it. -/
theorem early_answer_skips_number :
    Fresh crampedServer.session ∧ crampedServer.history.wire = [] ∧ crampedServer.session.handshake.sequence = 1 ∧
      crampedServer.session.handshake.client = false ∧ (∀ entry ∈ earlyScript, entry.1.starts = false) ∧
      (@World.played transparent earlyScript crampedServer).ledger.firstNumbers = [1, 2, 3, 4, 6] :=
  ⟨{ fresh_newWorld false with }, rfl, rfl, rfl, by decide, by decide +kernel⟩

/-- A client that has said hello. -/
def firstWorld : World := { newWorld true with session.handshake.sequence := 1 }

theorem message_numbers_consecutive_hellos :
    (∃ front back, (@World.played transparent ((.start [⟨msgClientHello, 0, 0, [1]⟩] 0, {}) :: [(.tick 5, {})])
      firstWorld).ledger.Enumerated 0 front [] back) ∧
    ∃ front skipped back,
      (@World.played transparent earlyScript crampedServer).ledger.Enumerated 1 front skipped back := by
  have client := @message_numbers_consecutive transparent firstWorld { fresh_newWorld true with } rfl rfl
    [(.tick 5, {})] (by decide)
  have server := @message_numbers_consecutive transparent crampedServer { fresh_newWorld false with } rfl rfl
    earlyScript (by decide)
  exact ⟨client.1 rfl ⟨msgClientHello, 0, 0, [1]⟩ 0 {} rfl rfl, server.2 rfl⟩

end Socat.Dtls13
