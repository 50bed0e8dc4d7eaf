import Socat.Dtls13.Soundness.FlightAccounts
import Socat.Dtls13.Soundness.RecordNumbers
import Socat.Machine.Actions

/-! # Outstanding flights

An unacknowledged flight is retransmitted, so it needs a timer and the write keys of its messages.
Keys are dropped in two places. The handshake epochs go once the handshake flight is acknowledged, and
post-handshake messages are never sent in them; an application epoch goes at a key update, which waits
for every flight. The timers are part of what an operation does, see `Acts`.
-/

namespace Socat.Dtls13

open Machine List

/-! ## Flights with their keys -/

/-- The write keys a flight needs; only the handshake flight uses epochs below the application's. -/
structure TrafficEpochs.Serves (t : TrafficEpochs) (slot : Slot) (f : FlightCore) : Prop where
  present : ∀ m ∈ f.messages, m.message.epoch ∈ t.write
  application : slot ≠ .outbound → ∀ m ∈ f.messages, 3 ≤ m.message.epoch

structure Endpoint.Keyed (k : Endpoint) : Prop where
  writable : ∃ epoch, epoch ∈ k.epochs.write
  application : 3 ∈ k.epochs.installed → ∃ epoch ∈ k.epochs.write, 3 ≤ epoch
  secured : k.handshake.complete = true → 3 ∈ k.epochs.installed
  serves : ∀ slot f, k.flights slot = some f → f.complete = false → k.epochs.Serves slot f

theorem TrafficEpochs.currentWrite_mem {t : TrafficEpochs} (writable : ∃ epoch, epoch ∈ t.write) :
    t.currentWrite ∈ t.write := by
  obtain ⟨epoch, member⟩ := writable
  exact AList.mem_keys.mpr (foldr_max_mem (ne_nil_of_mem (AList.mem_keys.mp member)))

variable {slot : Slot} {f : FlightCore} {w : World}

/-- Messages of another flight in a table with more keys. -/
theorem TrafficEpochs.Serves.of_messages {t t' : TrafficEpochs} {f' : FlightCore} (serves : t.Serves slot f)
    (write : ∀ epoch ∈ t.write, epoch ∈ t'.write)
    (messages : f'.messages.map OutboundMessage.message = f.messages.map OutboundMessage.message) :
    t'.Serves slot f' := by
  have same : ∀ m' ∈ f'.messages, ∃ m ∈ f.messages, m.message = m'.message := by
    intro m' member
    have mapped := mem_map_of_mem (f := OutboundMessage.message) member
    rw [messages] at mapped
    exact mem_map.mp mapped
  constructor
  · intro m' member
    obtain ⟨m, listed, equal⟩ := same m' member
    exact write _ (equal ▸ serves.present m listed)
  · intro post m' member
    obtain ⟨m, listed, equal⟩ := same m' member
    exact equal ▸ serves.application post m listed

theorem TrafficEpochs.Serves.mono {t t' : TrafficEpochs} (serves : t.Serves slot f)
    (write : ∀ epoch ∈ t.write, epoch ∈ t'.write) : t'.Serves slot f :=
  serves.of_messages write rfl

theorem FlightFrame.sameMessages {f' : FlightCore} (frame : FlightFrame f f') :
    f'.messages.map OutboundMessage.message = f.messages.map OutboundMessage.message := by
  have stable := congrArg (List.map OutboundMessage.message) frame.messages
  simp only [map_map] at stable
  exact stable

/-- A flight that an ACK does not complete keeps its messages. -/
theorem Flight.acknowledge_messages {f : Flight} {records : List RecordNumber} {authenticated : Bool}
    {now : Time} (incomplete : (f.acknowledge records authenticated now).2.complete = false) :
    (f.acknowledge records authenticated now).2.messages.map OutboundMessage.message =
      f.messages.map OutboundMessage.message := by
  have folded := fun state =>
    Flight.acknowledgeRecords_map OutboundMessage.message (fun _ _ _ => rfl) authenticated now records state
  rw [← folded (f, false, 0)]
  revert incomplete
  unfold Flight.acknowledge
  dsimp only
  split_ifs with complete <;> intro incomplete
  · exact absurd (complete.symm.trans incomplete) (by simp)
  all_goals first | rfl | cases incomplete

/-! ## Moves -/

variable {k k' : Endpoint}

/-- A move that leaves the flights alone and takes no keys away. -/
theorem Endpoint.Keyed.of_same (keyed : k.Keyed) (flights : k'.flights = k.flights)
    (write : ∀ epoch ∈ k.epochs.write, epoch ∈ k'.epochs.write) (installed : k'.epochs.installed = k.epochs.installed)
    (secured : k'.handshake.complete = true → 3 ∈ k.epochs.installed) : k'.Keyed where
  writable := keyed.writable.imp write
  application ready := by
    obtain ⟨epoch, member, large⟩ := keyed.application (installed ▸ ready)
    exact ⟨epoch, write epoch member, large⟩
  secured := installed ▸ secured
  serves slot f present incomplete :=
    (keyed.serves slot f (flights ▸ present) incomplete).mono write

/-- One slot gets another flight. -/
theorem Endpoint.Keyed.setFlight (keyed : k.Keyed) (serves : f.complete = false → k.epochs.Serves slot f) :
    (k.setFlight slot f).Keyed := by
  refine ⟨keyed.writable, keyed.application, keyed.secured, fun other g present incomplete => ?_⟩
  by_cases same : other = slot
  · subst same
    obtain rfl : f = g := by simpa [Endpoint.setFlight] using present
    exact serves incomplete
  · refine keyed.serves other g ?_ incomplete
    simpa [Endpoint.setFlight, Function.update_of_ne same] using present

/-- A new message goes out in the current epoch, which is one of the application. -/
theorem Issuing.serves {typ : PostType} (issuing : Issuing k typ f) (keyed : k.Keyed) :
    k.epochs.Serves (.post typ) f := by
  obtain ⟨epoch, member, large⟩ := keyed.application (keyed.secured issuing.complete)
  have above := TrafficEpochs.le_currentWrite member
  obtain ⟨body, rfl⟩ := issuing.flight
  constructor
  · intro listed only
    obtain rfl := mem_singleton.mp only
    exact TrafficEpochs.currentWrite_mem keyed.writable
  · intro _ listed only
    obtain rfl := mem_singleton.mp only
    exact le_trans large above

theorem Endpoint.Keyed.issue (keyed : k.Keyed) {typ : PostType} (issuing : Issuing k typ f) :
    (k.issue typ f).Keyed :=
  (keyed.setFlight fun _ => issuing.serves keyed).of_same rfl (fun _ => id) rfl keyed.secured

/-- The handshake epochs go when only post-handshake messages can be outstanding. -/
theorem Endpoint.Keyed.retire (keyed : k.Keyed) (discard : Bool) (complete : k.handshake.complete = true)
    (acknowledged : ¬k.Outstanding .outbound) : (k.retire discard).Keyed := by
  have write : ∀ epoch ∈ k.epochs.write, 3 ≤ epoch → epoch ∈ (k.retire discard).epochs.write := by
    intro epoch member large
    cases discard <;>
      exact AList.mem_erase.mpr ⟨by omega, AList.mem_erase.mpr ⟨by omega, member⟩⟩
  have installed : (k.retire discard).epochs.installed = k.epochs.installed := by cases discard <;> rfl
  obtain ⟨epoch, member, large⟩ := keyed.application (keyed.secured complete)
  refine ⟨⟨epoch, write epoch member large⟩, fun _ => ⟨epoch, write epoch member large, large⟩,
    fun _ => installed ▸ keyed.secured complete, fun slot f present incomplete => ?_⟩
  cases slot with
  | outbound => exact absurd ⟨f, present, incomplete⟩ acknowledged
  | post typ =>
    have serves := keyed.serves (.post typ) f present incomplete
    have application := serves.application (by simp)
    exact ⟨fun m listed => write _ (serves.present m listed) (application m listed), fun _ => application⟩

theorem Fresh.flights (fresh : Fresh w.session) (slot : Slot) : w.endpoint.flights slot = none := by
  cases slot with
  | outbound => simp only [World.endpoint, Session.flight, fresh.outbound, Option.map_none]
  | post typ => simp only [World.endpoint, Session.flight, fresh.post, Option.map_none]

theorem Fresh.keyed (fresh : Fresh w.session) : w.endpoint.Keyed := by
  obtain ⟨sequence, write⟩ := fresh.write
  refine ⟨⟨0, ?_⟩, fun ready => ?_, fun complete => ?_, fun slot f present => ?_⟩
  · change 0 ∈ w.session.epochs.write
    rw [write, AList.mem_keys, AList.keys_singleton]
    exact mem_singleton_self 0
  · exact absurd (fresh.installed ▸ ready : 3 ∈ (∅ : Finset ℕ)) (by simp)
  · exact absurd (fresh.incomplete.symm.trans complete) (by simp)
  · exact absurd present (by simp [fresh.flights])

structure World.Ready (w : World) : Prop where
  good : w.endpoint.Good
  held : w.endpoint.Held
  timed : w.endpoint.Timed
  keyed : w.endpoint.Keyed
  sealed : w.session.epochs.Sealed

theorem Fresh.sealed {s : Session} (fresh : Fresh s) : s.epochs.Sealed := by
  obtain ⟨sequence, write⟩ := fresh.write
  intro epoch e found positive
  have member := AList.mem_of_lookup found
  rw [write, AList.mem_keys, AList.keys_singleton] at member
  exact absurd (mem_singleton.mp member) positive

theorem Fresh.ready (fresh : Fresh w.session) : w.Ready where
  good := fresh.good
  held updating := absurd (fresh.idle.symm.trans updating) (by simp)
  timed slot f present := absurd present (by simp [fresh.flights])
  keyed := fresh.keyed
  sealed := fresh.sealed

section

variable [Crypto]

theorem SendMove.keyed (move : SendMove k k') (keyed : k.Keyed) : k'.Keyed := by
  have frame := move.frame
  have write : ∀ epoch ∈ k.epochs.write, epoch ∈ k'.epochs.write := fun _ => frame.mem_write.mpr
  refine ⟨keyed.writable.imp write, fun ready => ?_, fun complete => ?_, fun slot f' present incomplete => ?_⟩
  · obtain ⟨epoch, member, large⟩ := keyed.application (frame.installed ▸ ready)
    exact ⟨epoch, write epoch member, large⟩
  · exact frame.installed ▸ keyed.secured (frame.handshake ▸ complete)
  · obtain ⟨f, before, framed⟩ := frame.flightBefore present
    have serves := keyed.serves slot f before (framed.complete ▸ incomplete)
    exact serves.of_messages write framed.sameMessages

theorem Move.keyed (move : Move k k') (keyed : k.Keyed) : k'.Keyed := by
  cases move with
  | send move => exact move.keyed keyed
  | issueKeyUpdate f issuing | issue typ f issuing =>
    exact (keyed.issue issuing).of_same rfl (fun _ => id) rfl keyed.secured
  | acknowledge slot f records authenticated now present =>
    refine keyed.setFlight fun incomplete => ?_
    have serves := keyed.serves slot f.core present (Flight.acknowledge_complete incomplete)
    exact serves.of_messages (fun _ => id) (Flight.acknowledge_messages incomplete)
  | retire discard complete acknowledged => exact keyed.retire discard complete acknowledged
  | switchKeys e keys updating acknowledged retired found =>
    have next : k.epochs.currentWrite + 1 ∈ (k.epochs.switchWrite keys).write :=
      AList.mem_erase.mpr ⟨by omega, (AList.mem_insert _).mpr (.inl rfl)⟩
    refine ⟨⟨_, next⟩, fun ready => ?_, keyed.secured, fun slot f present incomplete => ?_⟩
    · obtain ⟨epoch, member, large⟩ := keyed.application ready
      have above := TrafficEpochs.le_currentWrite member
      exact ⟨_, next, by omega⟩
    · exact absurd ⟨f, present, incomplete⟩ (acknowledged slot)
  | dropComplete =>
    refine ⟨keyed.writable, keyed.application, keyed.secured, fun slot f present incomplete => ?_⟩
    cases slot with
    | outbound => exact keyed.serves _ f present incomplete
    | post typ => exact keyed.serves _ f (Option.filter_eq_some_iff.mp present).1 incomplete
  | install epoch readKeys writeKeys epochs absent staged =>
    have write : ∀ old ∈ k.epochs.write, old ∈ (k.epochs.install epoch readKeys writeKeys).write :=
      fun old member => (AList.mem_insert _).mpr (.inr member)
    refine ⟨keyed.writable.imp write, fun ready => ?_, fun complete => ?_, fun slot f present incomplete => ?_⟩
    · rcases Finset.mem_insert.mp ready with same | earlier
      · exact ⟨epoch, (AList.mem_insert _).mpr (.inl rfl), same.le⟩
      · obtain ⟨old, member, large⟩ := keyed.application earlier
        exact ⟨old, write old member, large⟩
    · exact Finset.mem_insert_of_mem (keyed.secured complete)
    · exact (keyed.serves slot f present incomplete).mono write
  | startOutbound messages idle present =>
    refine keyed.setFlight fun _ => ⟨fun m listed => ?_, fun post => absurd rfl post⟩
    obtain ⟨message, member, rfl⟩ := mem_map.mp listed
    exact present message member
  | finishOutbound armed => exact keyed.setFlight fun incomplete => absurd incomplete (by simp)
  | handler handshake incomplete phased secured => exact keyed.of_same rfl (fun _ => id) rfl secured
  | _ => exact keyed.of_same rfl (fun _ => id) rfl keyed.secured

theorem Moves.keyed (moves : Moves k k') (keyed : k.Keyed) (sealed : k.epochs.Sealed) :
    k'.Keyed ∧ k'.epochs.Sealed := by
  induction moves with
  | refl => exact ⟨keyed, sealed⟩
  | tail _ move ih => exact ⟨move.keyed ih.1, move.writes.sealed ih.2⟩

/-! ## Runs -/

/-- What an association that still runs has done since the last event. -/
theorem Continues.acts {w' : World} (continues : Continues w w') (good : w.endpoint.Good) :
    Acts w.endpoint w'.endpoint := by
  cases continues with
  | returned event env outcome => exact (drive_breaks event (w.withEnv env) good).ok outcome
  | refused event env command outcome => exact (drive_acts command (w.withEnv env) good).error outcome

/-- An event in surroundings, `none` if its error ends the association. -/
def World.driven (w : World) (entry : Event × Env) : Option World :=
  match drive entry.1 (w.withEnv entry.2) with
  | .ok () w' => some w'
  | .error _ w' => if entry.1.fatal then none else some w'

theorem runs_follow {script : List (Event × Env)} {w w' : World}
    (followed : follow World.driven script w = some w') : Runs w w' := by
  refine Relation.ReflTransGen.mono (fun w w' driven => ?_) _ _ (reaches_follow followed)
  obtain ⟨⟨event, env⟩, taken⟩ := driven
  unfold World.driven at taken
  split at taken
  · next outcome =>
    cases taken
    exact .returned event env outcome
  · next outcome =>
    split_ifs at taken with fatal
    cases taken
    exact .refused event env (by simpa using fatal) outcome

theorem Runs.ready {w' : World} (runs : Runs w w') (ready : w.Ready) : w'.Ready := by
  induction runs with
  | refl => exact ready
  | tail _ continues ih =>
    have acts := continues.acts ih.good
    obtain ⟨keyed, sealed⟩ := acts.moves.keyed ih.keyed ih.sealed
    exact ⟨acts.moves.good ih.good, acts.held ih.held, acts.timed ih.timed, keyed, sealed⟩

/-- Between the events of a running association every unacknowledged flight has a timer, and the write
keys of all its messages are there. -/
theorem runs_outstanding {w w' : World} (fresh : Fresh w.session) (runs : Runs w w') (slot : Slot)
    (f : Flight) (present : w'.session.flight slot = some f) (incomplete : f.complete = false) :
    f.deadline ≠ 0 ∧ ∀ m ∈ f.messages, m.message.epoch ∈ w'.session.epochs.write := by
  have ready := runs.ready fresh.ready
  have listed : w'.endpoint.flights slot = some f.core := by
    simp only [World.endpoint, present, Option.map_some]
  refine ⟨?_, (ready.keyed.serves slot f.core listed incomplete).present⟩
  simpa [Flight.core] using ready.timed slot f.core listed incomplete

/-- A key update under way in a running association waits for some message, which is outstanding. -/
theorem runs_updating {w w' : World} (fresh : Fresh w.session) (runs : Runs w w')
    (updating : w'.session.keyUpdate.updating = true) :
    ∃ typ f, w'.session.flight (.post typ) = some f ∧ f.complete = false := by
  obtain ⟨typ, core, listed, incomplete⟩ := (runs.ready fresh.ready).held updating
  obtain ⟨f, present, rfl⟩ := Option.map_eq_some_iff.mp listed
  exact ⟨typ, f, present, incomplete⟩

/-- After the handshake a running association writes in an application epoch with keys, and its later
messages are of one too. -/
theorem runs_application {w w' : World} (fresh : Fresh w.session) (runs : Runs w w')
    (complete : w'.session.handshake.complete = true) :
    (∃ e keys, w'.session.epochs.write.lookup w'.session.epochs.currentWrite = some e ∧ e.keys = some keys) ∧
      3 ≤ w'.session.epochs.currentWrite ∧ ∀ typ f, w'.session.flight (.post typ) = some f → f.complete = false →
        ∀ m ∈ f.messages, 3 ≤ m.message.epoch := by
  have ready := runs.ready fresh.ready
  have keyed := ready.keyed
  obtain ⟨epoch, member, large⟩ := keyed.application (keyed.secured complete)
  have application := large.trans (TrafficEpochs.le_currentWrite member)
  obtain ⟨e, found⟩ := Option.isSome_iff_exists.mp
    (AList.lookup_isSome.mpr (TrafficEpochs.currentWrite_mem keyed.writable))
  obtain ⟨keys, given⟩ := ready.sealed _ e found (by omega)
  refine ⟨⟨e, keys, found, given⟩, application, fun typ f present incomplete => ?_⟩
  have held : w'.endpoint.flights (.post typ) = some f.core := congrArg (Option.map Flight.core) present
  exact (keyed.serves (.post typ) f.core held incomplete).application (by simp)

end

/-- The client's handshake up to its key update, event by event. -/
def updateScript : List (Event × Env) :=
  let hello : List (Event × Env) := [(Event.start [⟨1, 1, 0, [1, 2, 3]⟩] 0, {})]
  let served : List (Event × Env) := servedWorld.history.wire.reverse.map fun p => (.receive p.bytes {} 1,
    { handshakes := [agreedAnswers (if p.number.epoch = 0 then [1, 2] else [3, 4])] })
  let acknowledged : List (Event × Env) := [(.receive openServer.newest {} 2, {}), (.updateKeys true 7, {})]
  hello ++ served ++ acknowledged

theorem updateScript_outstanding : ∃ w' f,
    follow (@World.driven transparent) updateScript (newWorld true) = some w' ∧
    w'.session.flight (.post .keyUpdate) = some f ∧ f.complete = false ∧
    f.deadline ≠ 0 ∧ ∀ m ∈ f.messages, m.message.epoch ∈ w'.session.epochs.write := by
  have followed : (follow (@World.driven transparent) updateScript (newWorld true)).any (fun w' =>
      (w'.session.flight (.post .keyUpdate)).any fun f => f.complete = false) = true := by
    decide +kernel
  obtain ⟨w', ended, held⟩ := (Option.any_eq_true _ _).mp followed
  obtain ⟨f, present, unfinished⟩ := (Option.any_eq_true _ _).mp held
  have incomplete := of_decide_eq_true unfinished
  exact ⟨w', f, ended, present, incomplete, @runs_outstanding transparent _ _ (fresh_newWorld true)
    (@runs_follow transparent _ _ _ ended) _ f present incomplete⟩

theorem updateScript_application : ∃ w', follow (@World.driven transparent) updateScript (newWorld true) = some w' ∧
    3 ≤ w'.session.epochs.currentWrite := by
  have followed : (follow (@World.driven transparent) updateScript (newWorld true)).any
      (·.session.handshake.complete) = true := by
    decide +kernel
  obtain ⟨w', ended, complete⟩ := (Option.any_eq_true _ _).mp followed
  have sends := @runs_application transparent _ _ (fresh_newWorld true) (@runs_follow transparent _ _ _ ended) complete
  exact ⟨w', ended, sends.2.1⟩

end Socat.Dtls13
