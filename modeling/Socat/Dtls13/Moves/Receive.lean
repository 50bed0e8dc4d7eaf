import Socat.Dtls13.Moves.Handshaking

/-! # Datagrams as moves

A datagram is parsed as a whole; each record is opened, shown to the path state machine and
dispatched on its content type. An error of any of these ends the association.
-/

namespace Socat.Dtls13

open Machine

variable [Crypto]

/-! ## Handshake records -/

omit [Crypto] in
private theorem pop_none {r : Reassembler} {budget : List Bool} (none : (r.pop budget).1 = Option.none) :
    (r.pop budget).2.1 = r := by
  unfold Reassembler.pop at none ⊢
  split
  · rfl
  · split
    · rfl
    · split
      · rfl
      · rename_i bound _ p found remaining
        rw [if_neg bound, found] at none
        simp [remaining] at none

private theorem processLoop_breaks (now : Time) (fuel : ℕ) : Obeys breaking (processLoop now fuel) := by
  induction fuel with
  | zero => exact obeys_pure ()
  | succ fuel ih =>
    intro w good
    unfold processLoop popMessage
    rw [ends_bind, ends_bind, ends_get]
    dsimp only
    rw [ends_bind, ends_set, ends_pure]
    cases popped : (w.session.reassembly.pop w.env.reserve).1 with
    | none =>
      refine ends_pure.mpr ?_
      rw [pop_none popped]
      exact .refl _
    | some m =>
      have pops : Pops w.endpoint m (w.session.reassembly.pop w.env.reserve).2.1 :=
        ⟨w.env.reserve, _, Prod.ext popped rfl⟩
      have continued : ∀ w₁ : World, Acts w.endpoint w₁.endpoint →
          Took w w₁ (processLoop now fuel) := fun w₁ acts => ih.from good acts
      dsimp only
      rw [ends_session]
      split
      · rw [ends_bind]
        exact (receivePost_took pops).imp fun _ => continued
      · rename_i incomplete
        rw [ends_bind]
        exact (handleMessage_took good pops (Bool.eq_false_iff.mpr incomplete) now).imp fun _ => continued

theorem processHandshakes_breaks (now : Time) : Obeys breaking (processHandshakes now) :=
  obeys_session fun _ => processLoop_breaks now _

variable {number : RecordNumber} {body : Bytes} {w : World}

private theorem addFragments_breaks (met : Met w.endpoint number.epoch) : Took w w (addFragments number body) := by
  unfold Took addFragments
  rw [ends_bind, ends_get]
  dsimp only
  rw [ends_bind, ends_set, ends_lift]
  have stored : Acts w.endpoint ({ w with
      session.reassembly := (w.session.reassembly.add w.env.reserve body number.epoch).2.1
      env.reserve := (w.session.reassembly.add w.env.reserve body number.epoch).2.2 } : World).endpoint :=
    Move.acts (.store number.epoch body w.env.reserve met) rfl rfl
  exact ⟨fun _ _ => stored, fun _ _ => stored.breaks⟩

private theorem receiveHandshake_breaks {now : Time} (good : w.endpoint.Good) (met : Met w.endpoint number.epoch) :
    Took w w (receiveHandshake number body now) := by
  unfold Took receiveHandshake
  rw [ends_bind]
  refine (addFragments_breaks met).imp fun _ _ acts => Obeys.from (D := breaking) ?_ good acts
  exact obeys_bind (Respects.breaking (respects_runIf (acknowledges_sends.queueAcknowledgement number now))) fun _ =>
    processHandshakes_breaks now

/-! ## Opening records -/

/-- What a record brings is of an epoch the endpoint has met. -/
theorem openRecord_breaks {r : Record} {hasCID : Bool} (clear : r.encrypted = false → r.number.epoch = 0) :
    Ends (openRecord r hasCID) w
      (fun result w' => Acts w.endpoint w'.endpoint ∧ ∀ content ∈ result, Met w'.endpoint content.1.epoch)
      (fun _ w' => Breaks w.endpoint w'.endpoint) := by
  refine openRecord_ends ⟨.refl _, by simp⟩ (fun _ => (Acts.refl _).breaks)
    (fun plain => ⟨.refl _, by simpa using .inl (clear plain)⟩)
    (fun epoch keys found => ?_) fun epoch keys o window opens => ?_
  · have counted : Acts w.endpoint
        { w.endpoint with epochs := w.endpoint.epochs.countFailure epoch keys } :=
      Move.acts (.countFailure epoch keys found) rfl rfl
    exact ⟨⟨counted, by simp⟩, fun _ => counted.breaks⟩
  · have opened : Acts w.endpoint (w.endpoint.openAs epoch keys o window) :=
      Move.acts (.openRecord r epoch keys o window opens) rfl rfl
    have met : ∀ content ∈ some (o.number, o.typ, o.body),
        Met (w.endpoint.openAs epoch keys o window) content.1.epoch := by
      intro content given
      cases given
      exact .inr ⟨o, List.mem_cons_self, rfl⟩
    unfold usedLocalCID
    rw [ends_session]
    split
    · exact ends_pure.mpr ⟨opened, met⟩
    · rw [ends_bind]
      refine setLocal_ends (fun env => ends_modifySession.mpr ⟨opened, met⟩) (fun env => ?_)
      exact ⟨_, _, .refl, .unopened r epoch keys o window opens, .refl⟩

/-! ## Dispatch -/

private theorem receiveACK_breaks (body : Bytes) (encrypted : Bool) (now : Time) :
    Obeys breaking (receiveACK body encrypted now) := by
  intro w good
  unfold receiveACK
  split
  · exact ends_pure.mpr (.refl _)
  rw [ends_bind]
  refine acknowledgeFlight_ends.imp fun _ w₁ outcome => ?_
  obtain ⟨moves, timed, held⟩ := outcome
  have acts : Acts w.endpoint w₁.endpoint := ⟨moves, timed, held rfl⟩
  exact (acknowledgePost_breaks (acts.moves.good good)).mono
    (fun _ _ => acts.trans) (fun _ _ => Breaks.after acts.moves)

private theorem receiveAlert_sends (number : RecordNumber) (body : Bytes) (encrypted : Bool) :
    Respects sending.done (receiveAlert number body encrypted) := by
  unfold receiveAlert
  split
  · refine respects_ite (sends_modifySession fun w => ?_) (respects_throwIf _ _)
    unfold Session.notePeerClosed
    split <;> rfl
  · exact respects_throwIf _ _

private theorem receiveRRC_sends (number : RecordNumber) (body : Bytes) (sender : PacketPath) (size : ℕ)
    (now : Time) : Respects sending.done (receiveRRC number body sender size now) :=
  respects_session fun _ => respects_guard fun _ => respects_bind (routes_sends.receivePath sender body size now)
    fun _ => sends_mtuOnly fun _ => Session.mtuOnly_receiveMTUProbe

private theorem receiveData_sends (number : RecordNumber) (body : Bytes) :
    Respects sending.done (receiveData number body) :=
  respects_session fun _ => respects_ite (respects_bind (sends_mtuOnly fun _ => Session.mtuOnly_noteMTUActivity)
    fun _ => respects_pure _) (respects_pure _)

private theorem dispatch_breaks {typ : UInt8} {encrypted : Bool} {sender : PacketPath} {size : ℕ} {now : Time}
    (good : w.endpoint.Good) (met : Met w.endpoint number.epoch) :
    Took w w (dispatch number typ body encrypted sender size now) := by
  unfold Took dispatch
  split
  · rw [ends_bind]
    exact (receiveHandshake_breaks good met).imp fun _ _ => id
  refine obeys_ite (D := breaking) (fun _ => ?_) (fun _ => ?_) w good
  · exact obeys_bind (receiveACK_breaks body encrypted now) fun _ => obeys_pure _
  refine obeys_ite (fun _ => Respects.breaking (receiveData_sends number body)) fun _ => ?_
  refine obeys_ite (fun _ => ?_) (fun _ => obeys_ite (fun _ => ?_) fun _ => obeys_pure _)
  · exact obeys_bind (Respects.breaking (receiveAlert_sends number body encrypted)) fun _ => obeys_pure _
  · exact obeys_bind (Respects.breaking (receiveRRC_sends number body sender size now)) fun _ => obeys_pure _

/-! ## Parsing -/

variable {datagram : Bytes} {r : Record} {hasCID : Bool}

omit [Crypto] in
private theorem parseUnified_encrypted {rest : Bytes} {first : UInt8} {cidLen : ℕ}
    (parsed : parseUnified datagram first cidLen = .ok (r, rest)) : r.encrypted = true := by
  unfold parseUnified at parsed
  extract_lets at parsed
  split at parsed
  · contradiction
  split at parsed
  · contradiction
  split at parsed
  · contradiction
  split at parsed
  · contradiction
  cases parsed
  rfl

omit [Crypto] in
/-- A record that is not protected belongs to epoch 0. -/
theorem parseRecord_plain {rest : Bytes} {cidLen : ℕ} (parsed : parseRecord datagram cidLen = .ok (r, rest))
    (plain : r.encrypted = false) : r.number.epoch = 0 := by
  unfold parseRecord at parsed
  split at parsed
  · contradiction
  split at parsed
  · contradiction
  split at parsed
  · exact absurd (parseUnified_encrypted parsed) (by simp [plain])
  · unfold parsePlain at parsed
    dsimp only at parsed
    iterate 5 (split at parsed; · contradiction)
    cases parsed
    rfl

omit [Crypto] in
private theorem parseDatagram_records {s : Session} {fuel : ℕ} {known records : List Record} {knownCID : Bool}
    (parsed : s.parseDatagram fuel datagram known knownCID = some (records, hasCID)) :
    ∀ r ∈ records, r ∈ known ∨ ∃ data rest, parseRecord data s.handshake.localCID.length = .ok (r, rest) := by
  induction fuel generalizing datagram known knownCID with
  | zero =>
    cases parsed
    exact fun _ => .inl
  | succ fuel ih =>
    unfold Session.parseDatagram at parsed
    split at parsed
    · cases parsed
      exact fun _ => .inl
    split at parsed
    · contradiction
    rename_i r rest found
    split at parsed
    · contradiction
    intro r' member
    rcases ih parsed r' member with earlier | later
    · rcases List.mem_append.mp earlier with before | here
      · exact .inl before
      · exact .inr ⟨_, _, List.mem_singleton.mp here ▸ found⟩
    · exact .inr later

omit [Crypto] in
/-- The records of a datagram that are not protected belong to epoch 0. -/
theorem parseDatagram_plain {s : Session} {fuel : ℕ} {records : List Record}
    (parsed : s.parseDatagram fuel datagram [] false = some (records, hasCID)) :
    ∀ r ∈ records, r.encrypted = false → r.number.epoch = 0 := by
  intro r member plain
  rcases parseDatagram_records parsed r member with impossible | ⟨_, _, found⟩
  · cases impossible
  · exact parseRecord_plain found plain

/-! ## Datagrams -/

private theorem receiveRecord_breaks (clear : r.encrypted = false → r.number.epoch = 0) (hasCID : Bool)
    (sender : PacketPath) (now : Time) : Obeys breaking (receiveRecord r hasCID sender now) := by
  intro w good
  unfold receiveRecord
  rw [ends_bind]
  refine (openRecord_breaks clear).imp fun result w₁ outcome => ?_
  obtain ⟨opened, read⟩ := outcome
  cases result with
  | none => exact ends_pure.mpr opened
  | some content =>
    obtain ⟨number, typ, body⟩ := content
    dsimp only
    rw [ends_session]
    split
    · exact ends_pure.mpr opened
    rw [ends_bind]
    refine (respects_runIf (routes_sends.observe _ _ _ _ _) w₁).mono (fun _ w₂ sends => ?_)
      (fun _ _ sends => (opened.trans (Sends.acts sends)).breaks)
    have acts : Acts w.endpoint w₂.endpoint := opened.trans (Sends.acts sends)
    have met : Met w₂.endpoint number.epoch := by
      rw [Met, (Sends.frame sends).opened]
      exact read _ rfl
    exact (dispatch_breaks (acts.moves.good good) met).mono (fun _ _ => acts.trans)
      (fun _ _ => Breaks.after acts.moves)

private theorem receiveRecords_breaks (hasCID : Bool) (sender : PacketPath) (now : Time) {records : List Record}
    (clear : ∀ r ∈ records, r.encrypted = false → r.number.epoch = 0) :
    Obeys breaking (receiveRecords hasCID sender now records) := by
  induction records with
  | nil => exact obeys_pure _
  | cons r rest ih =>
    obtain ⟨cleared, clearedRest⟩ := List.forall_mem_cons.mp clear
    exact obeys_bind (receiveRecord_breaks cleared hasCID sender now) fun _ =>
      obeys_bind (ih clearedRest) fun _ => obeys_pure _

private theorem finishReceive_breaks (now : Time) : Obeys breaking (finishReceive now) :=
  obeys_bind (Obeys.actingBreaks (advancePost_acts now)) fun _ =>
    obeys_session fun _ => Respects.breaking (respects_runIf sendACK_sends)

theorem expireHandshakeRead_acts (now : Time) :
    Obeys acting (modifySession fun s => s.expireHandshakeRead now) := by
  intro w good
  rw [ends_modifySession]
  unfold Session.expireHandshakeRead
  split
  · exact Move.acts .discardRead rfl rfl
  · exact .refl _

theorem receiveFrom_breaks (datagram : Bytes) (sender : PacketPath) (now : Time) :
    Obeys breaking (receiveFrom datagram sender now) := by
  refine obeys_bind (Obeys.actingBreaks (expireHandshakeRead_acts now)) fun _ =>
    obeys_session fun s => obeys_ite (fun _ => obeys_pure _) fun _ => ?_
  split
  · exact obeys_pure _
  · rename_i parsed
    refine obeys_bind (Respects.breaking (respects_runIf (sends_modifySession fun _ => rfl))) fun _ => ?_
    exact obeys_bind (receiveRecords_breaks _ _ _ (parseDatagram_plain parsed)) fun _ =>
      obeys_bind (finishReceive_breaks now) fun _ => obeys_pure _

end Socat.Dtls13
