import Socat.Dtls13.Moves.Post

/-! # Advancing

`advancePost` runs after every event. It acts even when it fails, and leaves a pending key update
waiting for some message.
-/

namespace Socat.Dtls13

open Machine

private theorem endpoint_retireHandshake (w : World) (now : Time) :
    ∃ discard, ({ w with session := w.session.retireHandshake now } : World).endpoint
      = w.endpoint.retire discard := by
  unfold Session.retireHandshake
  dsimp only
  split
  · exact ⟨false, rfl⟩
  · split
    · exact ⟨true, rfl⟩
    · split
      · exact ⟨false, rfl⟩
      · exact ⟨false, rfl⟩

variable {w : World} {now : Time} {f : Flight} {records : List RecordNumber} {authenticated : Bool}
  {slot : Slot}

private theorem postPending_eq_false : w.session.postPending = false ↔ ∀ typ, ¬w.endpoint.Outstanding (.post typ) := by
  have listed : ∀ typ, typ ∈ postTypes := by
    intro typ
    cases typ <;> simp [postTypes]
  simp only [Session.postPending, List.any_eq_false, outstanding_post]
  exact ⟨fun none typ => none typ (listed typ), fun none typ _ => none typ⟩

private theorem endpoint_dropComplete (w : World) :
    ({ w with session := w.session.dropComplete } : World).endpoint = w.endpoint.dropComplete := by
  have flights : ∀ slot, ({ w with session := w.session.dropComplete } : World).endpoint.flights slot
      = w.endpoint.dropComplete.flights slot := by
    intro slot
    cases slot with
    | outbound => rfl
    | post typ =>
      cases present : w.session.post typ <;>
        simp [World.endpoint, Session.flight, Session.dropComplete, Endpoint.dropComplete, present,
          Option.filter, Flight.core]
  exact congrArg (fun flights => { w.endpoint with flights }) (funext flights)

variable [Crypto]

private theorem dropComplete_acts (k : Endpoint) : Acts k k.dropComplete := by
  refine ⟨.single .dropComplete, fun timed slot f present incomplete => ?_, fun held updating => ?_⟩
  · obtain ⟨g, listed, incomplete'⟩ := Endpoint.outstanding_dropComplete.mp ⟨f, present, incomplete⟩
    cases slot with
    | outbound => exact timed _ f present incomplete
    | post typ =>
      simp only [Endpoint.dropComplete, Option.filter_eq_some_iff] at present
      exact timed _ f present.1 incomplete
  · obtain ⟨typ, outstanding⟩ := held updating
    exact ⟨typ, Endpoint.outstanding_dropComplete.mpr outstanding⟩

/-- The keys are switched when every flight is acknowledged and the handshake keys are gone. -/
theorem switchWriteKeys_ends {w : World} (updating : w.endpoint.updating = true)
    (acknowledged : ∀ slot, ¬w.endpoint.Outstanding slot)
    (retired : 0 ∉ w.endpoint.epochs.write ∧ 2 ∉ w.endpoint.epochs.write) :
    Ends switchWriteKeys w
      (fun _ w' => Acts w.endpoint w'.endpoint ∧ w'.endpoint.updating = false) (fun _ w' => w' = w) := by
  unfold switchWriteKeys
  rw [ends_session]
  split
  · exact ends_throw.mpr rfl
  rename_i e found
  split
  · exact ends_throw.mpr rfl
  rename_i keys updated
  have move : Move w.endpoint
      { w.endpoint with epochs := w.endpoint.epochs.switchWrite keys, updating := false } :=
    .switchKeys e keys updating acknowledged retired found updated
  exact ends_modifySession.mpr ⟨⟨.single move, id, fun _ pending => absurd pending Bool.false_ne_true⟩, rfl⟩

private theorem startCIDRequest_acts (swept : w.endpoint.Swept) : Acted w (startCIDRequest now) := by
  rw [Acted, startCIDRequest, ends_session]
  split
  · rw [ends_bind, ends_modifySession, ends_runIf]
    exact ⟨fun _ => requestCIDs_acts swept, fun _ => .refl _⟩
  · exact ends_pure.mpr (.refl _)

/-- What follows once the keys are settled. -/
theorem startAll_acts (good : w.endpoint.Good) (swept : w.endpoint.Swept) :
    Acted w (do startKeyUpdate now; respondCIDRequest now; startCIDRequest now) := by
  rw [Acted, ends_bind]
  refine (startKeyUpdate_ends good swept).imp fun _ w₁ outcome => ?_
  obtain ⟨updated, swept₁⟩ := outcome
  rw [ends_bind]
  refine respondCIDRequest_ends.mono (fun _ w₂ outcome => ?_) (fun _ _ => updated.trans)
  obtain ⟨responded, swept₂⟩ := outcome
  exact (startCIDRequest_acts (swept₂ swept₁)).mono (fun _ _ => (updated.trans responded).trans)
    (fun _ _ => (updated.trans responded).trans)

omit [Crypto] in
theorem Endpoint.Good.held_of_pending (good : w.endpoint.Good)
    (pending : w.session.handshake.complete = false ∨ w.session.flightPending = true) : w.endpoint.Held := by
  intro updating
  obtain ⟨complete, acknowledged⟩ := good.finished updating
  rcases pending with incomplete | outstanding
  · exact absurd (incomplete.symm.trans complete) (by simp)
  · exact absurd (outstanding_outbound.mpr outstanding) acknowledged

/-- After `advancePost` a pending key update waits for some message, whatever held before: the operation
waits for the messages of a key update, fails to switch keys, or settles the keys and starts what is
wanted. -/
theorem advancePost_ends (good : w.endpoint.Good) : Ends (advancePost now) w
      (fun _ w' => Acts w.endpoint w'.endpoint ∧ w'.endpoint.Held)
      (fun _ w' => Acts w.endpoint w'.endpoint) := by
  unfold advancePost
  rw [ends_session]
  split
  · exact ends_pure.mpr ⟨.refl _, good.held_of_pending ‹_›⟩
  rename_i ended
  simp only [not_or, Bool.not_eq_false, Bool.not_eq_true] at ended
  obtain ⟨complete, acknowledged⟩ := ended
  rw [ends_bind, ends_modifySession]
  obtain ⟨discard, retired⟩ := endpoint_retireHandshake w now
  set w₀ : World := { w with session := w.session.retireHandshake now }
  have quiet : ¬w.endpoint.Outstanding .outbound := fun outstanding => by
    simp [outstanding_outbound.mp outstanding] at acknowledged
  have acts₀ : Acts w.endpoint w₀.endpoint := by
    rw [retired]
    exact Move.acts (.retire discard complete quiet) rfl rfl
  have dropped : ∀ w₁ : World, Acts w.endpoint w₁.endpoint → w₁.endpoint.updating = false →
      Ends (do
        modifySession Session.dropComplete; startKeyUpdate now; respondCIDRequest now
        startCIDRequest now) w₁ (fun _ w' => Acts w.endpoint w'.endpoint ∧ w'.endpoint.Held)
        (fun _ w' => Acts w.endpoint w'.endpoint) := by
    intro w₁ acts idle
    rw [ends_bind, ends_modifySession]
    have settled : Acts w₁.endpoint _ := dropComplete_acts w₁.endpoint
    have held : w₁.endpoint.dropComplete.Held := fun updating => absurd (idle.symm.trans updating) (by simp)
    have swept := Endpoint.swept_dropComplete w₁.endpoint
    rw [← endpoint_dropComplete] at settled held swept
    have acts₂ := acts.trans settled
    exact (startAll_acts (acts₂.moves.good good) swept).mono
      (fun _ _ later => ⟨acts₂.trans later, later.held held⟩) (fun _ _ => acts₂.trans)
  rw [ends_session]
  split
  · rename_i outstanding
    refine ends_pure.mpr ⟨acts₀, fun _ => ?_⟩
    by_contra none
    simp [postPending_eq_false.mpr (not_exists.mp none)] at outstanding
  · rename_i settled
    rw [ends_bind, ends_runIf]
    refine ⟨fun updating => ?_, fun idle => dropped w₀ acts₀ (Bool.eq_false_iff.mpr idle)⟩
    have none := postPending_eq_false.mp (Bool.eq_false_iff.mpr fun posted => settled ⟨updating, posted⟩)
    refine (switchWriteKeys_ends updating (fun slot => ?_) ?_).mono
      (fun _ w₁ outcome => dropped w₁ (acts₀.trans outcome.1) outcome.2) (fun e w₁ unchanged => unchanged ▸ acts₀)
    · cases slot with
      | outbound =>
        rw [retired]
        exact quiet
      | post typ => exact none typ
    · rw [retired]
      cases discard <;> simp [Endpoint.retire, TrafficEpochs.retireHandshakeWrite,
        TrafficEpochs.discardHandshakeRead, AList.mem_erase]

theorem advancePost_acts (now : Time) : Obeys acting (advancePost now) := fun _ good =>
  (advancePost_ends good).imp fun _ _ outcome => outcome.1

theorem requestKeyUpdate_acts (requestPeer : Bool) (now : Time) :
    Obeys acting (requestKeyUpdate requestPeer now) := by
  intro w good
  unfold requestKeyUpdate
  rw [ends_session]
  exact obeys_bind (D := acting) (obeys_throwIf _ _) (fun _ => obeys_bind (obeys_throwIf _ _)
    fun _ => obeys_bind (Respects.acting (sends_modifySession fun _ => rfl)) fun _ => advancePost_acts now) w good

/-! ## Acknowledgements -/

section

omit [Crypto]

/-- What an acknowledgement leaves alone. -/
abbrev AckFrame : Flight → Flight → Prop := Unchanged fun f => (f.deadline, f.complete)

private theorem acknowledgeRecord_frame (authenticated : Bool) (now : Time) (state : Flight × Bool × Duration)
    (number : RecordNumber) : AckFrame state.1 (Flight.acknowledgeRecord authenticated now state number).1 := by
  obtain ⟨f, progress, rtt⟩ := state
  simp only [Flight.acknowledgeRecord]
  repeat' split
  all_goals rfl

private theorem foldl_acknowledgeRecord_frame (records : List RecordNumber) (authenticated : Bool) (now : Time)
    (state : Flight × Bool × Duration) :
    AckFrame state.1 (records.foldl (Flight.acknowledgeRecord authenticated now) state).1 := by
  induction records generalizing state with
  | nil => rfl
  | cons number rest ih => exact (acknowledgeRecord_frame authenticated now state number).trans (ih _)

/-- An acknowledgement that does not finish a flight leaves its timer alone. -/
theorem acknowledge_frame (incomplete : (f.acknowledge records authenticated now).2.complete = false) :
    AckFrame f (f.acknowledge records authenticated now).2 := by
  unfold Flight.acknowledge at incomplete ⊢
  split
  · rfl
  · rename_i running
    rw [if_neg running] at incomplete
    have frame := foldl_acknowledgeRecord_frame records authenticated now (f, false, 0)
    generalize records.foldl (Flight.acknowledgeRecord authenticated now) (f, false, 0) = state
      at frame incomplete ⊢
    obtain ⟨g, progress, rtt⟩ := state
    have kept : AckFrame f (if progress then { g with retries := 0, ackedSinceSend := true } else g) := by
      split <;> exact frame
    dsimp only at incomplete ⊢
    generalize (if progress then { g with retries := 0, ackedSinceSend := true } else g) = h
      at kept incomplete ⊢
    split
    · rename_i finished
      rw [if_pos finished] at incomplete
      cases incomplete
    · exact kept

/-- A change of a flight that its core does not show. -/
theorem update_quiet {change : Flight → Flight} (quiet : ∀ f, (change f).core = f.core) :
    Ends (slot.ref.update change) w (fun _ w' => w'.endpoint = w.endpoint) (fun _ _ => False) := by
  rw [ends_update]
  cases present : w.session.flight slot with
  | none => rw [endpoint_store_absent slot _ w present]
  | some f =>
    rw [endpoint_store slot _ w present, Slot.load_of_present present]
    refine Endpoint.setFlight_eq_self ?_
    rw [quiet f]
    simp [World.endpoint, present]

private theorem noteRTT_quiet {sample : Duration} :
    Ends (noteRTT sample slot) w (fun _ w' => w'.endpoint = w.endpoint) (fun _ _ => False) := by
  unfold noteRTT
  split
  · exact ends_pure.mpr rfl
  · rw [ends_bind, ends_modifySession, ends_session]
    refine (update_quiet fun f => ?_).imp fun _ _ same => same
    dsimp only
    split <;> rfl

private theorem acknowledge_timed {k : Endpoint} (present : k.flights slot = some f.core) (timed : k.Timed) :
    (k.setFlight slot (f.acknowledge records authenticated now).2.core).Timed := by
  intro other g listed incomplete
  by_cases same : other = slot
  · subst same
    simp only [Endpoint.setFlight, Function.update_self, Option.some.injEq] at listed
    subst listed
    have frame := acknowledge_frame incomplete
    have armed := timed other f.core present ((congrArg Prod.snd frame).symm.trans incomplete)
    exact (congrArg (· != 0) (congrArg Prod.fst frame)).trans armed
  · simp only [Endpoint.setFlight, Function.update_of_ne same] at listed
    exact timed other g listed incomplete

end

theorem acknowledgeFlight_ends :
    Ends (acknowledgeFlight slot records authenticated now) w
      (fun _ w' => Moves w.endpoint w'.endpoint ∧ (w.endpoint.Timed → w'.endpoint.Timed) ∧
        (slot = .outbound → w.endpoint.Held → w'.endpoint.Held))
      (fun _ w' => Breaks w.endpoint w'.endpoint) := by
  unfold acknowledgeFlight
  rw [ends_session]
  split
  · exact ends_pure.mpr ⟨.refl, id, fun _ => id⟩
  rename_i f present
  have listed : w.endpoint.flights slot = some f.core := by simp [World.endpoint, present]
  dsimp only
  rw [ends_bind, ends_update]
  have stored := endpoint_store slot (f.acknowledge records authenticated now).2 w present
  have move : Move w.endpoint _ := .acknowledge slot f records authenticated now listed
  have timed : w.endpoint.Timed → (slot.ref.store (f.acknowledge records authenticated now).2 w).endpoint.Timed := by
    rw [stored]
    exact acknowledge_timed listed
  have held : slot = .outbound → w.endpoint.Held →
      (slot.ref.store (f.acknowledge records authenticated now).2 w).endpoint.Held := by
    rintro rfl held updating
    rw [stored] at updating ⊢
    obtain ⟨typ, outstanding⟩ := held updating
    exact ⟨typ, (Endpoint.outstanding_of_update rfl (by simp)).mpr outstanding⟩
  rw [← stored] at move
  generalize slot.ref.store (f.acknowledge records authenticated now).2 w = w₁ at *
  rw [ends_bind]
  refine noteRTT_quiet.mono (fun _ w₂ same => ?_) (fun _ _ => False.elim)
  rw [← same] at move timed held
  rw [ends_runIf]
  refine ⟨fun _ => ?_, fun _ => ⟨.single move, timed, held⟩⟩
  refine (retransmit_sends slot now w₂).mono (fun _ w₃ sends => ?_) (fun _ w₃ sends => ?_)
  · exact ⟨.trans (.single move) sends.moves, sends.frame.timed ∘ timed,
      fun outbound before => sends.frame.held (held outbound before)⟩
  · exact Breaks.after (.single move) sends.acts.breaks

/-- After an ACK the keys are switched if nothing is outstanding any more. -/
theorem acknowledgePost_breaks (good : w.endpoint.Good) : Took w w (acknowledgePost records authenticated now) := by
  unfold Took acknowledgePost
  rw [ends_bind]
  refine acknowledgeFlight_ends.imp fun _ w₁ outcome => ?_
  obtain ⟨moves₁, timed₁, -⟩ := outcome
  rw [ends_bind]
  refine acknowledgeFlight_ends.mono (fun _ w₂ outcome => ?_) (fun _ _ => Breaks.after moves₁)
  obtain ⟨moves₂, timed₂, -⟩ := outcome
  rw [ends_bind]
  refine acknowledgeFlight_ends.mono (fun _ w₃ outcome => ?_) (fun _ _ => Breaks.after (moves₁.trans moves₂))
  obtain ⟨moves₃, timed₃, -⟩ := outcome
  have moves : Moves w.endpoint w₃.endpoint := (moves₁.trans moves₂).trans moves₃
  refine (advancePost_ends (moves.good good)).mono (fun _ w₄ outcome => ?_)
    (fun _ _ acts => Breaks.after moves acts.breaks)
  obtain ⟨acts, held⟩ := outcome
  exact ⟨moves.trans acts.moves, acts.timed ∘ timed₃ ∘ timed₂ ∘ timed₁, fun _ => held⟩

/-! ## Expired timers -/

omit [Crypto] in
/-- A timer that expires is set again. -/
theorem expire_core (f : Flight) (now : Time) :
    (f.expire now).2.core = f.core ∨ (f.expire now).2.core = { f.core with armed := true } := by
  unfold Flight.expire
  split
  · exact .inl rfl
  · split
    · right
      have set : (now + f.interval != 0) = true :=
        bne_iff_ne.mpr (Nat.ne_of_gt (Nat.add_pos_right now f.positive))
      simp [Flight.core, set]
    · split
      · exact .inl rfl
      · right
        have positive : 0 < min (2 * f.interval) maximumRetransmit :=
          lt_min (Nat.mul_pos two_pos f.positive) (by decide)
        have set : (now + min (2 * f.interval) maximumRetransmit != 0) = true :=
          bne_iff_ne.mpr (Nat.ne_of_gt (Nat.add_pos_right now positive))
        simp [Flight.core, set]

private theorem expire_sends (now : Time) (present : w.session.flight slot = some f) :
    Sends w.endpoint (slot.ref.store (f.expire now).2 w).endpoint := by
  refine sends_store ?_
  rw [Slot.load_of_present present]
  exact expire_core f now

theorem repeats_sends : Repeats sending.done where
  transmit := retransmit_sends
  expire := expire_sends
  restart := respects_modify fun _ => sends_store (.inl rfl)
  reduce := sends_modifySession fun w => endpoint_reduceHandshakeMTU w 0

end Socat.Dtls13
