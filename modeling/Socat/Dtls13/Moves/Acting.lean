import Socat.Dtls13.Moves.Frames

/-! # The disciplines of events

`Good` is what every computation of a session may rely on, and every move keeps it. `Acts` adds to
the moves what holds at the end of an operation but not after each move: every outstanding flight
has its timer, and a pending key update waits for something. Operations that cannot end the
association act in both outcomes; the others, when they fail, leave what `Breaks` describes.
-/

namespace Socat.Dtls13

open Machine

/-- The keys a handshake flight can need. -/
def TrafficEpochs.Kept (t : TrafficEpochs) : Prop := 0 ∈ t.write ∧ (2 ∈ t.installed → 2 ∈ t.write)

theorem TrafficEpochs.Kept.install {t : TrafficEpochs} (kept : t.Kept) (epoch : ℕ)
    (readKeys writeKeys : TrafficKeys) : (t.install epoch readKeys writeKeys).Kept := by
  obtain ⟨plain, handshake⟩ := kept
  refine ⟨(AList.mem_insert _).mpr (.inr plain), fun installed => (AList.mem_insert _).mpr ?_⟩
  rcases Finset.mem_insert.mp installed with same | earlier
  · exact .inl same
  · exact .inr (handshake earlier)

variable {k k' : Endpoint} {slot : Slot}

namespace Endpoint

/-- A KeyUpdate under way is flagged, and keys are only updated when the handshake is over. A running
handshake keeps its write keys and what its phase implies. -/
structure Good (k : Endpoint) : Prop where
  flagged : k.Flagged
  finished : k.updating = true → k.handshake.complete = true ∧ ¬k.Outstanding .outbound
  kept : k.handshake.complete = false → k.epochs.Kept
  phased : k.handshake.complete = false → k.handshake.Phased

/-- Replacing the flight of one slot does not touch another. -/
theorem outstanding_of_update {other : Slot} {f : Option FlightCore}
    (updated : k'.flights = Function.update k.flights slot f) (different : other ≠ slot) :
    k'.Outstanding other ↔ k.Outstanding other := by
  simp [Outstanding, updated, Function.update_of_ne different]

private theorem outstanding_setFlight_self {f : FlightCore} :
    (k.setFlight slot f).Outstanding slot ↔ f.complete = false := by
  simp [Outstanding, setFlight]

theorem outstanding_dropComplete : k.dropComplete.Outstanding slot ↔ k.Outstanding slot := by
  cases slot with
  | outbound => rfl
  | post typ =>
    simp only [Outstanding, dropComplete, Option.filter_eq_some_iff]
    constructor
    · rintro ⟨f, ⟨present, -⟩, incomplete⟩
      exact ⟨f, present, incomplete⟩
    · rintro ⟨f, present, incomplete⟩
      exact ⟨f, ⟨present, by simp [incomplete]⟩, incomplete⟩

end Endpoint

theorem Flight.acknowledge_complete {f : Flight} {records : List RecordNumber} {authenticated : Bool}
    {now : Time} (incomplete : (f.acknowledge records authenticated now).2.complete = false) :
    f.complete = false := by
  by_contra complete
  rw [Bool.not_eq_false] at complete
  rw [Flight.acknowledge, if_pos complete] at incomplete
  simp [complete] at incomplete

theorem SendFrame.outstanding (frame : SendFrame k k') : k'.Outstanding slot ↔ k.Outstanding slot := by
  constructor
  · rintro ⟨f', after, incomplete⟩
    obtain ⟨f, before, framed⟩ := frame.flightBefore after
    exact ⟨f, before, framed.complete ▸ incomplete⟩
  · rintro ⟨f, before, incomplete⟩
    obtain ⟨f', after, framed⟩ := frame.flight before
    exact ⟨f', after, framed.complete.trans incomplete⟩

theorem SendFrame.mem_write (frame : SendFrame k k') {epoch : ℕ} :
    epoch ∈ k'.epochs.write ↔ epoch ∈ k.epochs.write := by
  have keys := congrArg Option.isSome (frame.writeKeys epoch)
  rw [Option.isSome_map, Option.isSome_map] at keys
  rw [← AList.lookup_isSome, keys, AList.lookup_isSome]

theorem SendFrame.kept (frame : SendFrame k k') (kept : k.epochs.Kept) : k'.epochs.Kept := by
  unfold TrafficEpochs.Kept
  rw [frame.mem_write, frame.mem_write, frame.installed]
  exact kept

variable [Crypto]

theorem Move.good (move : Move k k') (good : k.Good) : k'.Good := by
  obtain ⟨flagged, finished, kept, phased⟩ := good
  cases move with
  | send move =>
    have frame := move.frame
    refine ⟨fun outstanding => ?_, fun updating => ?_,
      fun incomplete => frame.kept (kept (frame.handshake ▸ incomplete)),
      fun incomplete => frame.handshake ▸ phased (frame.handshake ▸ incomplete)⟩
    · rw [frame.updating]
      exact flagged (frame.outstanding.mp outstanding)
    · rw [frame.handshake, frame.outstanding]
      exact finished (frame.updating ▸ updating)
  | issueKeyUpdate f issuing =>
    refine ⟨fun _ => rfl, fun _ => ⟨issuing.complete, fun outstanding => ?_⟩, kept,
      fun incomplete => absurd (incomplete.symm.trans issuing.complete) (by simp)⟩
    exact issuing.acknowledged ((Endpoint.outstanding_of_update rfl (by simp)).mp outstanding)
  | issue typ f issuing other =>
    refine ⟨fun outstanding => flagged ((Endpoint.outstanding_of_update rfl ?_).mp outstanding),
      fun updating => ?_, kept,
      fun incomplete => absurd (incomplete.symm.trans issuing.complete) (by simp)⟩
    · simpa using other.symm
    · exact absurd (issuing.idle.symm.trans updating) (by simp)
  | acknowledge slot f records authenticated now present =>
    have before : ∀ other, (k.setFlight slot (f.acknowledge records authenticated now).2.core).Outstanding
        other → k.Outstanding other := by
      intro other outstanding
      by_cases same : other = slot
      · subst same
        rw [Endpoint.outstanding_setFlight_self] at outstanding
        exact ⟨f.core, present, Flight.acknowledge_complete outstanding⟩
      · exact (Endpoint.outstanding_of_update rfl same).mp outstanding
    exact ⟨fun outstanding => flagged (before _ outstanding),
      fun updating => ⟨(finished updating).1, fun outstanding => (finished updating).2 (before _ outstanding)⟩,
      kept, phased⟩
  | switchKeys e keys updating acknowledged retired found updated =>
    refine ⟨fun outstanding => absurd outstanding (acknowledged _), by simp, fun incomplete => ?_,
      phased⟩
    exact absurd (incomplete.symm.trans (finished updating).1) (by simp)
  | dropComplete =>
    exact ⟨fun outstanding => flagged (Endpoint.outstanding_dropComplete.mp outstanding), finished,
      kept, phased⟩
  | handler handshake incomplete later secured =>
    refine ⟨flagged, fun updating => ?_, fun _ => kept incomplete, later⟩
    exact absurd (incomplete.symm.trans (finished updating).1) (by simp)
  | startOutbound messages idle keyed =>
    exact ⟨fun outstanding =>
      flagged ((Endpoint.outstanding_of_update rfl (by simp)).mp outstanding),
      fun updating => absurd (idle.symm.trans updating) (by simp), kept, phased⟩
  | finishOutbound armed =>
    refine ⟨fun outstanding =>
      flagged ((Endpoint.outstanding_of_update rfl (by simp)).mp outstanding),
      fun updating => ⟨(finished updating).1, fun outstanding => ?_⟩, kept, phased⟩
    rw [Endpoint.outstanding_setFlight_self] at outstanding
    contradiction
  | retire discard completed acknowledged =>
    exact ⟨flagged, finished,
      fun incomplete => absurd (incomplete.symm.trans completed) (by simp),
      fun incomplete => absurd (incomplete.symm.trans completed) (by simp)⟩
  | install epoch readKeys writeKeys epochs absent staged =>
    exact ⟨flagged, finished, fun incomplete => (kept incomplete).install epoch readKeys writeKeys, phased⟩
  | _ => exact ⟨flagged, finished, kept, phased⟩

theorem Moves.good (moves : Moves k k') (good : k.Good) : k'.Good := by
  induction moves with
  | refl => exact good
  | tail _ move ih => exact move.good ih

/-! ## Operations -/

structure Acts (k k' : Endpoint) : Prop where
  moves : Moves k k'
  timed : k.Timed → k'.Timed
  held : k.Held → k'.Held

theorem Acts.refl (k : Endpoint) : Acts k k := ⟨.refl, id, id⟩

theorem Acts.trans {a b c : Endpoint} (first : Acts a b) (second : Acts b c) :
    Acts a c :=
  ⟨first.moves.trans second.moves, second.timed ∘ first.timed, second.held ∘ first.held⟩

omit [Crypto] in
theorem SendFrame.timed (frame : SendFrame k k') (timed : k.Timed) : k'.Timed := by
  intro slot f' present incomplete
  obtain ⟨f, before, framed⟩ := frame.flightBefore present
  exact framed.armed (timed slot f before (framed.complete ▸ incomplete))

omit [Crypto] in
theorem SendFrame.held (frame : SendFrame k k') (held : k.Held) : k'.Held := by
  intro updating
  obtain ⟨typ, outstanding⟩ := held (frame.updating ▸ updating)
  exact ⟨typ, frame.outstanding.mpr outstanding⟩

theorem Sends.moves (sends : Sends k k') : Moves k k' :=
  Relation.ReflTransGen.mono (fun _ _ => Move.send) _ _ sends

theorem Sends.acts (sends : Sends k k') : Acts k k' :=
  ⟨sends.moves, sends.frame.timed, sends.frame.held⟩

/-- A move that touches neither the flights nor the key-update flag. -/
theorem Move.acts (move : Move k k') (flights : k'.flights = k.flights)
    (updating : k'.updating = k.updating) : Acts k k' := by
  refine ⟨.single move, fun timed slot f present => ?_, fun held pending => ?_⟩
  · rw [flights] at present
    exact timed slot f present
  · obtain ⟨typ, outstanding⟩ := held (updating ▸ pending)
    exact ⟨typ, by rw [Endpoint.Outstanding, flights]; exact outstanding⟩

theorem Acts.breaks (acts : Acts k k') : Breaks k k' :=
  ⟨k', k', acts.moves, .none, .refl⟩

/-- What was left to do when `w` had become `w₁` acts, or the association ends. -/
abbrev Took {α : Type} (w w₁ : World) (x : SessionM α) : Prop :=
  Ends x w₁ (fun _ w' => Acts w.endpoint w'.endpoint)
    (fun _ w' => Breaks w.endpoint w'.endpoint)

/-- The computation acts, also when it fails. -/
abbrev Acted {α : Type} (w : World) (x : SessionM α) : Prop :=
  Ends x w (fun _ w' => Acts w.endpoint w'.endpoint) (fun _ w' => Acts w.endpoint w'.endpoint)

theorem Breaks.after {a b c : Endpoint} (moves : Moves a b) (breaks : Breaks b c) :
    Breaks a c := by
  obtain ⟨k₁, k₂, later, lapse, sends⟩ := breaks
  exact ⟨k₁, k₂, moves.trans later, lapse, sends⟩

theorem Breaks.send {a b c : Endpoint} (breaks : Breaks a b) (sends : Sends b c) :
    Breaks a c := by
  obtain ⟨k₁, k₂, moves, lapse, before⟩ := breaks
  exact ⟨k₁, k₂, moves, lapse, before.trans sends⟩

/-- Operations whose error leaves the association running. -/
def acting : Discipline World where
  guard w := w.endpoint.Good
  done w w' := Acts w.endpoint w'.endpoint
  failed w w' := Acts w.endpoint w'.endpoint
  refl w := .refl w.endpoint
  trans first second := first.trans second
  keeps good acts := acts.moves.good good
  fails first second := first.trans second
  stops w := .refl w.endpoint

/-- Operations whose error ends the association. -/
def breaking : Discipline World where
  guard w := w.endpoint.Good
  done w w' := Acts w.endpoint w'.endpoint
  failed w w' := Breaks w.endpoint w'.endpoint
  refl w := .refl w.endpoint
  trans first second := first.trans second
  keeps good acts := acts.moves.good good
  fails first second := second.after first.moves
  stops w := (Acts.refl w.endpoint).breaks

section

variable {α : Type} {x : SessionM α}

theorem Respects.acting (sends : Respects sending.done x) : Obeys acting x := fun w _ =>
  (sends w).mono (fun _ _ => Sends.acts) (fun _ _ => Sends.acts)

theorem Obeys.actingBreaks (obeys : Obeys acting x) : Obeys breaking x :=
  obeys.weaken (fun _ => id) (fun _ _ _ => id) (fun _ _ _ => Acts.breaks)

theorem Respects.breaking (sends : Respects sending.done x) : Obeys breaking x :=
  Obeys.actingBreaks (Respects.acting sends)

end

end Socat.Dtls13
