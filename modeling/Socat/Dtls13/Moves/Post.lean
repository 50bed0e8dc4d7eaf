import Socat.Dtls13.Moves.Starting

/-! # Key updates and connection IDs as moves

Every operation that starts a message acts in both outcomes.
-/

namespace Socat.Dtls13

open Machine

namespace Endpoint

/-- No acknowledged flight waits to be dropped. -/
def Swept (k : Endpoint) : Prop := ∀ typ f, k.flights (.post typ) = some f → f.complete = false

theorem swept_dropComplete (k : Endpoint) : k.dropComplete.Swept := by
  intro typ f present
  simp only [dropComplete, Option.filter_eq_some_iff] at present
  simpa using present.2

end Endpoint

variable {k : Endpoint} {now : Time} {w : World}

theorem SendFrame.swept {k' : Endpoint} (frame : SendFrame k k') (swept : k.Swept) : k'.Swept := by
  intro typ f' present
  obtain ⟨f, before, framed⟩ := frame.flightBefore present
  exact framed.complete.trans (swept typ f before)

theorem flights_issue_of_ne {typ : PostType} {f : FlightCore} {slot : Slot}
    (different : slot ≠ .post typ) : (k.issue typ f).flights slot = k.flights slot := by
  simp [Endpoint.issue, Endpoint.setFlight, Function.update_of_ne different]

variable [Crypto]

/-! ## Started messages -/

namespace Started

variable {k k' : Endpoint} {typ : PostType}

theorem outstanding (started : Started k typ k') : k'.Outstanding (.post typ) := by
  obtain ⟨f, issuing, sends, -⟩ := started
  obtain ⟨body, rfl⟩ := issuing.flight
  exact sends.frame.outstanding.mpr ⟨_, Function.update_self .., rfl⟩

theorem timed (started : Started k typ k') (timed : k.Timed) : k'.Timed := by
  obtain ⟨f, issuing, sends, armed⟩ := started
  intro slot
  by_cases same : slot = .post typ
  · subst same
    exact armed
  · change k'.TimedAt slot
    refine sends.frame.timedAt fun g present => ?_
    rw [flights_issue_of_ne same] at present
    exact timed slot g present

theorem swept (started : Started k typ k') (swept : k.Swept) : k'.Swept := by
  obtain ⟨f, issuing, sends, -⟩ := started
  obtain ⟨body, rfl⟩ := issuing.flight
  refine sends.frame.swept fun other g present => ?_
  by_cases same : Slot.post other = .post typ
  · rw [same, Endpoint.issue, Endpoint.setFlight] at present
    simp only [Function.update_self, Option.some.injEq] at present
    rw [← present]
  · rw [flights_issue_of_ne same] at present
    exact swept other g present

/-- A message without a flag. -/
theorem acts (started : Started k typ k') (other : typ ≠ .keyUpdate) : Acts k k' := by
  have timed := started.timed
  have outstanding := started.outstanding
  obtain ⟨f, issuing, sends, -⟩ := started
  exact ⟨.head (.issue typ f issuing other) sends.moves, timed, fun _ _ => ⟨typ, outstanding⟩⟩

end Started

omit [Crypto] in
theorem SendFrame.overlay_eq {a b : Endpoint} (frame : SendFrame a b) : b.overlay a = b :=
  (congrArg b.overlay frame.still.symm :)

theorem Sends.flag {a b : Endpoint} (sends : Sends a b) (updating : Bool) :
    Sends { a with updating } { b with updating } := by
  have exchanged := sends.overlay { a with updating }
  have after : b.overlay { a with updating } = { b.overlay a with updating } := rfl
  rw [after, sends.frame.overlay_eq] at exchanged
  exact exchanged

/-! ## Key updates -/

/-- A KeyUpdate that was started, with its flag. -/
theorem Started.keyUpdate {k' : Endpoint} (started : Started k .keyUpdate k') :
    Acts k { k' with updating := true } := by
  have outstanding := started.outstanding
  have timed := started.timed
  obtain ⟨f, issuing, sends, -⟩ := started
  exact ⟨.head (.issueKeyUpdate f issuing) (sends.flag true).moves, timed,
    fun _ _ => ⟨.keyUpdate, outstanding⟩⟩

omit [Crypto] in
private theorem endpoint_keyUpdateStarted (w : World) (request : Bool) :
    ({ w with session := w.session.keyUpdateStarted request } : World).endpoint
      = { w.endpoint with updating := true } := rfl

theorem startKeyUpdate_ends (good : w.endpoint.Good) (swept : w.endpoint.Swept) :
    Ends (startKeyUpdate now) w (fun _ w' => Acts w.endpoint w'.endpoint ∧ w'.endpoint.Swept)
      (fun _ w' => Acts w.endpoint w'.endpoint) := by
  unfold startKeyUpdate
  rw [ends_session]
  split
  · exact ends_pure.mpr ⟨.refl _, swept⟩
  split
  · exact ends_throw.mpr (.refl _)
  dsimp only
  rw [ends_bind, ends_attempt]
  refine (startPost_ends (by simp [maxHandshakeBody]) (swept .keyUpdate)).mono (fun _ w' started => ?_)
    (fun e w' outcome => ?_)
  · rw [ends_session]
    exact ⟨started.keyUpdate, started.swept swept⟩
  · rw [ends_session]
    dsimp only
    rcases outcome with sends | ⟨started, sent⟩
    · split
      · exact ends_throw.mpr sends.acts
      · rename_i nonempty
        obtain ⟨flight, present⟩ : ∃ flight, w'.session.post .keyUpdate = some flight := by
          cases present : w'.session.post .keyUpdate with
          | none => simp [present] at nonempty
          | some flight => exact ⟨flight, rfl⟩
        have listed := flights_post.mpr ⟨flight, present, rfl⟩
        have flagged : w'.endpoint.updating = true := sends.frame.updating.trans (good.flagged
          (sends.frame.outstanding.mp ⟨_, listed, sends.frame.swept swept .keyUpdate _ listed⟩))
        have same : { w'.endpoint with updating := true } = w'.endpoint := by rw [← flagged]
        rw [ends_bind, ends_modifySession]
        refine ends_throw.mpr ?_
        rw [endpoint_keyUpdateStarted, same]
        exact sends.acts
    · split
      · rename_i empty
        refine absurd ?_ sent
        obtain ⟨f, listed, -⟩ := started.outstanding
        obtain ⟨flight, present, rfl⟩ := flights_post.mp listed
        rw [present, Option.all_some, List.isEmpty_iff] at empty
        exact ⟨flight.core, listed, empty⟩
      · rw [ends_bind, ends_modifySession]
        exact ends_throw.mpr (started.keyUpdate)

/-! ## Connection IDs -/

theorem requestCIDs_acts {count : UInt8} (swept : w.endpoint.Swept) : Acted w (requestCIDs count now) := by
  rw [Acted, requestCIDs, ends_session]
  refine ends_guard (.refl _) fun _ => ?_
  refine ends_guard (.refl _) fun _ => ?_
  rw [ends_bind]
  refine (startPost_ends (by simp [maxHandshakeBody]) (swept .requestConnectionID)).mono
    (fun _ w' started => ?_) (fun e w' outcome => ?_)
  · exact ends_modifySession.mpr (started.acts (by decide))
  · exact outcome.elim Sends.acts fun started => started.1.acts (by decide)

omit [Crypto] in
private theorem drawCIDs_ends {existing ids : List Bytes} {size count fuel : ℕ} :
    Ends (drawCIDs existing size count fuel ids) w (fun _ w' => ∃ env, w' = { w with env })
      (fun _ w' => ∃ env, w' = { w with env }) := by
  induction fuel generalizing ids w with
  | zero => exact ends_throw.mpr ⟨_, rfl⟩
  | succ fuel ih =>
    unfold drawCIDs
    split
    · exact ends_pure.mpr ⟨_, rfl⟩
    · rw [ends_bind]
      exact randRead_ends (fun _ _ _ => ih) fun _ => ⟨_, rfl⟩

/-- The computation acts, and leaves no acknowledged flight behind if there was none. -/
abbrev Sweeps {α : Type} (w : World) (x : SessionM α) : Prop :=
  Ends x w (fun _ w' => Acts w.endpoint w'.endpoint ∧ (w.endpoint.Swept → w'.endpoint.Swept))
    (fun _ w' => Acts w.endpoint w'.endpoint)

private theorem offerCIDs_ends {ids : List Bytes} {immediate : Bool}
    (free : w.endpoint.flights (.post .newConnectionID) = none) : Sweeps w (offerCIDs ids immediate now) := by
  rw [Sweeps, offerCIDs, ends_session]
  dsimp only
  split
  · exact ends_throw.mpr (.refl _)
  rename_i body encoded
  rw [ends_bind]
  refine setLocal_ends (fun env => ?_) (fun env => .refl _)
  rw [ends_bind, ends_modify, ends_bind, ends_attempt]
  have small : body.length ≤ maxHandshakeBody :=
    (encodeCIDs_length_le encoded).trans (by decide)
  refine (startPost_ends small fun f present => ?_).mono
    (fun _ w' started => ?_) (fun e w' outcome => ?_)
  · exact absurd (free.symm.trans present) (by simp)
  · change Started w.endpoint _ _ at started
    rw [ends_session]
    exact ⟨started.acts (by decide), started.swept⟩
  · change Sends w.endpoint _ ∨ Started w.endpoint _ _ ∧ _ at outcome
    have acts : Acts w.endpoint w'.endpoint :=
      outcome.elim Sends.acts fun started => started.1.acts (by decide)
    rw [ends_session]
    dsimp only
    split
    · exact ends_throw.mpr acts
    · rw [ends_bind]
      exact setLocal_ends (fun env => acts) (fun env => acts)

theorem provideCIDs_ends {count : ℕ} {immediate : Bool} : Sweeps w (provideCIDs count immediate now) := by
  rw [Sweeps, provideCIDs, ends_session]
  refine ends_guard (.refl _) fun _ => ?_
  refine ends_guard (.refl _) fun idle => ?_
  simp only [Session.cidBusy, Bool.or_eq_true, not_or] at idle
  have free : w.session.post .newConnectionID = none := by simpa using idle.1.1.2
  rw [ends_bind, ends_modifySession, ends_bind, ends_get]
  dsimp only
  rw [ends_bind]
  refine drawCIDs_ends.mono (fun ids w' same => ?_) (fun _ w' same => ?_)
  · obtain ⟨env, rfl⟩ := same
    exact offerCIDs_ends (Option.map_eq_none_iff.mpr free)
  · obtain ⟨env, rfl⟩ := same
    exact .refl _

theorem respondCIDRequest_ends : Sweeps w (respondCIDRequest now) := by
  rw [Sweeps, respondCIDRequest, ends_session]
  split
  · exact ends_pure.mpr ⟨.refl _, id⟩
  split
  · exact ends_pure.mpr ⟨.refl _, id⟩
  rw [ends_bind, ends_modifySession, ends_session]
  split
  · exact provideCIDs_ends
  · rw [ends_bind, ends_modifySession]
    exact provideCIDs_ends

end Socat.Dtls13
