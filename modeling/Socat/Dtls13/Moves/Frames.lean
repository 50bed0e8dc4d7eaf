import Socat.Dtls13.Moves.Sending

/-! # What sending leaves alone

Send moves change record counters, flight bookkeeping and the log of packets, and read little else. So
everything else can be exchanged under a sequence of them (`Sends.overlay`), and a flight none of whose
records left can be taken out of it (`Sends.vacate`).
-/

namespace Socat.Dtls13

/-- An outbound message without the record of its transmissions. -/
def OutboundMessage.stable (m : OutboundMessage) : OutboundMessage :=
  { m with sent := [], sentCount := 0, emptySent := false, resent := false }

theorem OutboundMessage.noteSent_stable (m : OutboundMessage) (onlyNew : Bool) (start stop : ℕ) :
    (m.noteSent onlyNew start stop).stable = m.stable := by
  unfold OutboundMessage.noteSent
  cases onlyNew <;> simp only [Bool.false_eq_true, if_false, if_true] <;> split <;> rfl

private theorem map_stable_modify (messages : List OutboundMessage) (index : ℕ) (onlyNew : Bool) (start stop : ℕ) :
    (messages.modify index fun m => m.noteSent onlyNew start stop).map OutboundMessage.stable
      = messages.map OutboundMessage.stable := by
  induction messages generalizing index with
  | nil => cases index <;> rfl
  | cons m rest ih =>
    cases index with
    | zero => simp [OutboundMessage.noteSent_stable]
    | succ index => simp [ih]

structure FlightFrame (f f' : FlightCore) : Prop where
  messages : f'.messages.map OutboundMessage.stable = f.messages.map OutboundMessage.stable
  complete : f'.complete = f.complete
  armed : f.armed = true → f'.armed = true
  sent : ∀ number ∈ f.sent, number ∈ f'.sent

theorem FlightFrame.refl (f : FlightCore) : FlightFrame f f := ⟨rfl, rfl, id, fun _ => id⟩

theorem FlightFrame.trans {f g h : FlightCore} (first : FlightFrame f g) (second : FlightFrame g h) :
    FlightFrame f h :=
  ⟨second.messages.trans first.messages, second.complete.trans first.complete,
    second.armed ∘ first.armed, fun n member => second.sent n (first.sent n member)⟩

/-- The endpoint without what sending changes. -/
def Endpoint.still (k : Endpoint) : Endpoint :=
  { k with epochs.write := ∅, flights := fun _ => none, handed := [] }

structure SendFrame (k k' : Endpoint) : Prop where
  still : k'.still = k.still
  writeKeys : ∀ epoch, (k'.epochs.write.lookup epoch).map WriteEpoch.keys
    = (k.epochs.write.lookup epoch).map WriteEpoch.keys
  flights : ∀ slot, Option.Rel FlightFrame (k.flights slot) (k'.flights slot)

theorem rel_refl (f : Option FlightCore) : Option.Rel FlightFrame f f := by
  cases f with
  | none => exact .none
  | some f => exact .some (.refl f)

private theorem rel_trans {f g h : Option FlightCore} (first : Option.Rel FlightFrame f g)
    (second : Option.Rel FlightFrame g h) : Option.Rel FlightFrame f h := by
  cases first with
  | none => exact second
  | some framed =>
    cases second with
    | some later => exact .some (framed.trans later)

variable {k k' : Endpoint} {slot : Slot}

namespace SendFrame

theorem refl (k : Endpoint) : SendFrame k k := ⟨rfl, fun _ => rfl, fun _ => rel_refl _⟩

theorem trans {a b c : Endpoint} (first : SendFrame a b) (second : SendFrame b c) : SendFrame a c where
  still := second.still.trans first.still
  writeKeys epoch := (second.writeKeys epoch).trans (first.writeKeys epoch)
  flights slot := rel_trans (first.flights slot) (second.flights slot)

section

variable (frame : SendFrame k k')
include frame

theorem handshake : k'.handshake = k.handshake := congrArg (·.handshake) frame.still

theorem installed : k'.epochs.installed = k.epochs.installed := congrArg (·.epochs.installed) frame.still

theorem updating : k'.updating = k.updating := congrArg (·.updating) frame.still

theorem opened : k'.opened = k.opened := congrArg (·.opened) frame.still

theorem flight {f : FlightCore} (before : k.flights slot = some f) :
    ∃ f', k'.flights slot = some f' ∧ FlightFrame f f' := by
  have related := frame.flights slot
  rw [before] at related
  generalize k'.flights slot = after at related ⊢
  cases related with
  | some framed => exact ⟨_, rfl, framed⟩

theorem flightBefore {f' : FlightCore} (after : k'.flights slot = some f') :
    ∃ f, k.flights slot = some f ∧ FlightFrame f f' := by
  have related := frame.flights slot
  rw [after] at related
  generalize k.flights slot = before at related ⊢
  cases related with
  | some framed => exact ⟨_, rfl, framed⟩

end

end SendFrame

private theorem sendFrame_hand {p : Packet} {e : WriteEpoch} (found : k.epochs.write.lookup p.number.epoch = some e) :
    SendFrame k (k.hand p e) where
  __ := SendFrame.refl k
  writeKeys epoch := by
    by_cases same : epoch = p.number.epoch
    · subst same
      simp [Endpoint.hand, TrafficEpochs.number, found]
    · simp [Endpoint.hand, TrafficEpochs.number, AList.lookup_insert_ne same]

private theorem sendFrame_setFlight {f f' : FlightCore} (present : k.flights slot = some f)
    (framed : FlightFrame f f') : SendFrame k (k.setFlight slot f') where
  __ := SendFrame.refl k
  flights other := by
    by_cases same : other = slot
    · subst same
      simp only [Endpoint.setFlight, Function.update_self, present]
      exact .some framed
    · simp only [Endpoint.setFlight, Function.update_of_ne same]
      exact rel_refl _

variable [Crypto]

theorem SendMove.frame (move : SendMove k k') : SendFrame k k' := by
  cases move with
  | hand p e numbered => exact sendFrame_hand numbered.found
  | fragment slot f p e index start stop onlyNew now numbered present =>
    refine (sendFrame_hand numbered.found).trans (sendFrame_setFlight (f := f) present ⟨?_, rfl, id, ?_⟩)
    · exact map_stable_modify _ _ _ _ _
    · intro number member
      exact (AList.mem_insert _).mpr (.inr member)
  | arm slot f present =>
    exact sendFrame_setFlight present ⟨rfl, rfl, fun _ => rfl, fun _ => id⟩

theorem Sends.frame (sends : Sends k k') : SendFrame k k' := by
  induction sends with
  | refl => exact .refl k
  | tail _ move ih => exact ih.trans move.frame

/-! ## Exchanging what sending does not read -/

/-- Take the fields that sending neither reads nor changes from another endpoint. -/
def Endpoint.overlay (k other : Endpoint) : Endpoint :=
  { k with handshake := other.handshake, updating := other.updating }

theorem SendMove.overlay (move : SendMove k k') (other : Endpoint) :
    SendMove (k.overlay other) (k'.overlay other) := by
  cases move with
  | hand p e numbered => exact .hand (k := k.overlay other) p e { numbered with }
  | fragment slot f p e index start stop onlyNew now numbered present =>
    exact .fragment (k := k.overlay other) slot f p e index start stop onlyNew now { numbered with } present
  | arm slot f present => exact .arm (k := k.overlay other) slot f present

theorem Sends.overlay (sends : Sends k k') (other : Endpoint) : Sends (k.overlay other) (k'.overlay other) := by
  induction sends with
  | refl => exact .refl
  | tail _ move ih => exact ih.tail (move.overlay other)

/-! ## Flights that sent nothing -/

namespace Endpoint

/-- Take the flight out of a slot. -/
def vacate (k : Endpoint) (slot : Slot) : Endpoint :=
  { k with flights := Function.update k.flights slot none }

/-- The slot holds a flight without a transmitted record. -/
def Unsent (k : Endpoint) (slot : Slot) : Prop :=
  ∃ f, k.flights slot = some f ∧ f.sent.entries = []

omit [Crypto]

private theorem vacate_setFlight_self (k : Endpoint) (slot : Slot) (f : FlightCore) :
    (k.setFlight slot f).vacate slot = k.vacate slot := by
  simp [vacate, setFlight]

private theorem vacate_setFlight_of_ne (k : Endpoint) {other : Slot} (different : other ≠ slot)
    (f : FlightCore) : (k.setFlight other f).vacate slot = (k.vacate slot).setFlight other f := by
  simp only [vacate, setFlight]
  rw [Function.update_comm different.symm]

end Endpoint

omit [Crypto] in
theorem SendFrame.unsent (frame : SendFrame k k') (unsent : k'.Unsent slot) : k.Unsent slot := by
  obtain ⟨f', present, empty⟩ := unsent
  obtain ⟨f, before, framed⟩ := frame.flightBefore present
  refine ⟨f, before, ?_⟩
  by_contra some
  obtain ⟨entry, rest, listed⟩ := List.exists_cons_of_ne_nil some
  have member : entry.1 ∈ f'.sent := framed.sent entry.1 (by
    rw [AList.mem_keys, AList.keys, listed]
    simp [List.keys])
  rw [AList.mem_keys, AList.keys, empty] at member
  cases member

theorem SendMove.vacate (move : SendMove k k') (unsent : k'.Unsent slot) :
    Sends (k.vacate slot) (k'.vacate slot) := by
  have others : ∀ {other f}, other ≠ slot → k.flights other = some f →
      (k.vacate slot).flights other = some f := fun different present => by
    simpa [Endpoint.vacate, Function.update_of_ne different] using present
  cases move with
  | hand p e numbered => exact .single (.hand (k := k.vacate slot) p e { numbered with })
  | fragment other f p e index start stop onlyNew now numbered present =>
    by_cases same : other = slot
    · subst same
      obtain ⟨f', stored, empty⟩ := unsent
      simp only [Endpoint.setFlight, Function.update_self, Option.some.injEq] at stored
      subst stored
      simp [FlightCore.record] at empty
    · rw [Endpoint.vacate_setFlight_of_ne _ same]
      exact .single (.fragment (k := k.vacate slot) other f p e index start stop onlyNew now { numbered with }
        (others same present))
  | arm other f present =>
    by_cases same : other = slot
    · subst same
      rw [Endpoint.vacate_setFlight_self]
    · rw [Endpoint.vacate_setFlight_of_ne _ same]
      exact .single (.arm (k := k.vacate slot) other f (others same present))

theorem Sends.vacate (sends : Sends k k') (unsent : k'.Unsent slot) : Sends (k.vacate slot) (k'.vacate slot) := by
  induction sends with
  | refl => exact .refl
  | tail _ move ih => exact (ih (move.frame.unsent unsent)).trans (move.vacate unsent)

end Socat.Dtls13
