import Socat.Dtls13.Moves.Calm
import Socat.Dtls13.Soundness.Flights
import Socat.Dtls13.Soundness.Transmission

/-! # Datagrams that are too long

When the transport refuses a record as too long, a transmission starts over with smaller fragments. Each round costs
one of eight reductions of the working MTU, so the loop ends whatever the transport does. A round that failed has
recorded what it sent and changed nothing else: no byte of the flight gets out of sight.
-/

namespace Socat.Dtls13

open Machine List OutboundMessage

/-! ## Bytes of a flight -/

theorem OutboundMessage.wanted_iff {m : OutboundMessage} {i : ℕ} :
    (m.wanted true).getD i false = true ↔ i < m.acknowledged.length ∧ i < m.sent.length ∧
      m.acknowledged.getD i false = false ∧ m.sent.getD i false = false := by
  unfold wanted
  by_cases inside : i < m.acknowledged.length ∧ i < m.sent.length
  · have below : i < (List.zipWith (fun acknowledged sent => !(acknowledged || (true && sent)))
        m.acknowledged m.sent).length := by
      simp [inside]
    rw [getD_eq_getElem _ _ below, getD_eq_getElem _ _ inside.1, getD_eq_getElem _ _ inside.2]
    simp [inside]
  · rw [getD_eq_default _ _ (by simp only [length_zipWith]; omega)]
    simp only [Bool.false_eq_true, false_iff]
    tauto

namespace Flight

/-- A byte of a message is acknowledged, in a record that waits for its acknowledgement, or among those the next pass
sends. -/
inductive Kept (f : Flight) (index i : ℕ) : Prop
  | acknowledged {m : OutboundMessage} : f.messages[index]? = some m → m.acknowledged.getD i false = true →
      Kept f index i
  | recorded {number : RecordNumber} {part : SentFragment} : f.sent.lookup number = some part → part.message = index →
      part.start ≤ i → i < part.stop → Kept f index i
  | eligible {m : OutboundMessage} : f.messages[index]? = some m → (m.wanted true).getD i false = true → Kept f index i

/-- No byte is out of sight. -/
def AllKept (f : Flight) : Prop :=
  ∀ (index : ℕ) (m : OutboundMessage), f.messages[index]? = some m → ∀ i < m.message.body.length, f.Kept index i

/-- What a transmission does to its flight: a record is noted under a new number, or the timer is set. -/
inductive Logs (f : Flight) : Flight → Prop
  | recorded (now : Time) (onlyNew : Bool) (index start stop : ℕ) {number : RecordNumber} : number ∉ f.sent →
      Logs f (f.record now onlyNew index start stop number)
  | armed (now : Time) : Logs f (f.armed now)

abbrev Logged : Flight → Flight → Prop := Relation.ReflTransGen Logs

variable {f f' : Flight} {index i : ℕ}

theorem Kept.congr (kept : f.Kept index i) (messages : f'.messages = f.messages) (sent : f'.sent = f.sent) :
    f'.Kept index i := by
  cases kept with
  | acknowledged found marked => exact .acknowledged (messages ▸ found) marked
  | recorded waiting same low high => exact .recorded (sent ▸ waiting) same low high
  | eligible found wanted => exact .eligible (messages ▸ found) wanted

theorem Kept.record (kept : f.Kept index i) {now : Time} {onlyNew : Bool} {index' start stop : ℕ}
    {number : RecordNumber}
    (fresh : number ∉ f.sent) : (f.record now onlyNew index' start stop number).Kept index i := by
  cases kept with
  | @acknowledged m found marked =>
    have later := record_getElem? f now onlyNew index' start stop number index
    rw [found] at later
    split_ifs at later
    · exact .acknowledged later ((m.noteSent_grows onlyNew start stop).acknowledged ▸ marked)
    · exact .acknowledged later marked
  | @recorded other part waiting same low high =>
    have different : other ≠ number := by
      rintro rfl
      exact fresh (AList.lookup_isSome.mp (waiting ▸ rfl))
    exact .recorded ((AList.lookup_insert_ne different).trans waiting) same low high
  | @eligible m found wanted =>
    have later := record_getElem? f now onlyNew index' start stop number index
    rw [found] at later
    split_ifs at later with here
    · by_cases inside : start ≤ i ∧ i < stop
      · exact .recorded (AList.lookup_insert _) here inside.1 inside.2
      · obtain ⟨marks, sent, unacknowledged, unsent⟩ := wanted_iff.mp wanted
        refine .eligible later (wanted_iff.mpr ?_)
        by_cases empty : m.message.body = []
        · obtain ⟨_, same⟩ := noteSent_empty empty onlyNew start stop
          simp only [same]
          exact ⟨marks, sent, unacknowledged, unsent⟩
        · obtain ⟨_, same⟩ := noteSent_nonempty empty onlyNew start stop
          simp only [same, markRange_length, markRange_getD sent, unsent]
          refine ⟨marks, sent, unacknowledged, ?_⟩
          simpa using inside
    · exact .eligible later wanted

theorem Logged.kept (logged : Logged f f') (kept : f.Kept index i) : f'.Kept index i := by
  induction logged with
  | refl => exact kept
  | tail _ step ih =>
    cases step with
    | recorded now onlyNew index start stop fresh => exact ih.record fresh
    | armed now => exact ih.congr rfl rfl

/-- The messages stay the same but for their marks. -/
theorem Logged.messages (logged : Logged f f') : f'.messages.map (·.message) = f.messages.map (·.message) := by
  induction logged with
  | refl => rfl
  | tail _ step ih =>
    cases step with
    | recorded now onlyNew index start stop fresh =>
      refine Eq.trans ?_ ih
      apply ext_getElem?
      intro j
      simp only [getElem?_map]
      rw [record_getElem?]
      split_ifs
      · simp only [Option.map_map, Function.comp_def, noteSent_message]
      · rfl
    | armed now => exact ih

theorem AllKept.of_kept (all : f.AllKept) (same : f'.messages.map (·.message) = f.messages.map (·.message))
    (kept : ∀ {index i}, f.Kept index i → f'.Kept index i) : f'.AllKept := by
  intro index m' found' i below
  have here := congrArg (fun messages => messages[index]?) same
  simp only [getElem?_map, found', Option.map_some] at here
  obtain ⟨m, found, equal⟩ := Option.map_eq_some_iff.mp here.symm
  exact kept (all index m found i (equal ▸ below))

theorem Logged.allKept (logged : Logged f f') (all : f.AllKept) : f'.AllKept := all.of_kept logged.messages logged.kept

/-! ## Runs of a flight -/

private theorem newFlight_allKept {messages : List HandshakeMessage} {interval : Duration}
    (started : newFlight messages interval = .ok f) : f.AllKept := by
  have outbound : f.messages = messages.map OutboundMessage.start :=
    congrArg FlightCore.messages (newFlight_core started)
  intro index m found i below
  rw [outbound, getElem?_map] at found
  obtain ⟨message, here, rfl⟩ := Option.map_eq_some_iff.mp found
  change i < message.body.length at below
  refine .eligible (by rw [outbound, getElem?_map, here]; rfl) (wanted_iff.mpr ?_)
  simp [OutboundMessage.start, below]

/-- An acknowledged record takes its bytes along. -/
theorem Kept.acknowledgeRecord (kept : f.Kept index i) (accounted : f.Accounted) (authenticated : Bool) (now : Time)
    (progress : Bool) (rtt : Duration) (number : RecordNumber) :
    (acknowledgeRecord authenticated now (f, progress, rtt) number).1.Kept index i := by
  unfold Flight.acknowledgeRecord
  dsimp only
  split
  · exact kept
  rename_i part waiting
  split_ifs
  · exact kept
  split
  · exact kept
  rename_i m found
  obtain ⟨m', found', carried⟩ := accounted.records number part waiting
  rw [found] at found'
  cases found'
  have lengths := (accounted.messages _ m found).acknowledged
  obtain ⟨below, -⟩ := List.getElem?_eq_some_iff.mp found
  have getElem : ∀ j, (f.messages.set part.message (m.noteAcknowledged part.start part.stop))[j]? =
      if part.message = j then some (m.noteAcknowledged part.start part.stop) else f.messages[j]? := by
    intro j
    rw [getElem?_set, if_pos below]
  -- the bytes of the record become acknowledged
  have covered : part.message = index → part.start ≤ i → i < part.stop →
      Flight.Kept { f with
        messages := f.messages.set part.message (m.noteAcknowledged part.start part.stop)
        sent := f.sent.erase number } index i := by
    intro here low high
    refine .acknowledged ((getElem index).trans (if_pos here)) ?_
    have inside := carried.inside
    show (markRange m.acknowledged part.start part.stop).getD i false = true
    rw [markRange_getD (by omega)]
    simp [low, high]
  cases kept with
  | @acknowledged m₀ found₀ marked =>
    by_cases here : part.message = index
    · rw [← here, found] at found₀
      cases found₀
      exact .acknowledged ((getElem index).trans (if_pos here)) (markRange_mono marked)
    · exact .acknowledged ((getElem index).trans ((if_neg here).trans found₀)) marked
  | @recorded other part₀ waiting₀ same low high =>
    by_cases equal : other = number
    · rw [equal, waiting] at waiting₀
      cases waiting₀
      exact covered same low high
    · have left : (f.sent.erase number).lookup other = some part₀ := (AList.lookup_erase_ne equal).trans waiting₀
      exact .recorded left same low high
  | @eligible m₀ found₀ wanted =>
    by_cases here : part.message = index
    · rw [← here, found] at found₀
      cases found₀
      by_cases inside : part.start ≤ i ∧ i < part.stop
      · exact covered here inside.1 inside.2
      · obtain ⟨marks, sent, unacknowledged, unsent⟩ := wanted_iff.mp wanted
        refine .eligible ((getElem index).trans (if_pos here)) (wanted_iff.mpr ?_)
        refine ⟨(markRange_length _ _ _).symm ▸ marks, sent, ?_, unsent⟩
        show (markRange m.acknowledged part.start part.stop).getD i false = false
        rw [markRange_getD marks, unacknowledged]
        simpa using inside
    · exact .eligible ((getElem index).trans ((if_neg here).trans found₀)) wanted

theorem Kept.acknowledgeRecords (kept : f.Kept index i) (accounted : f.Accounted) (authenticated : Bool) (now : Time)
    (records : List RecordNumber) (progress : Bool) (rtt : Duration) :
    (records.foldl (Flight.acknowledgeRecord authenticated now) (f, progress, rtt)).1.Kept index i := by
  induction records generalizing f progress rtt with
  | nil => exact kept
  | cons number rest ih =>
    rw [foldl_cons]
    exact ih (kept.acknowledgeRecord accounted authenticated now progress rtt number)
      (accounted.acknowledgeRecord authenticated now progress rtt number).accounted _ _

theorem AllKept.acknowledge (all : f.AllKept) (accounted : f.Accounted) (records : List RecordNumber)
    (authenticated : Bool) (now : Time) : (f.acknowledge records authenticated now).2.AllKept := by
  by_cases stopped : (f.acknowledge records authenticated now).2.complete = true
  · have none : (f.acknowledge records authenticated now).2.messages = [] :=
      (accounted.acknowledge records authenticated now).accounted.finished stopped
    intro index m found
    rw [none] at found
    cases found
  rw [Bool.not_eq_true] at stopped
  refine all.of_kept (acknowledge_messages stopped) fun {index i} before => ?_
  have kept := before.acknowledgeRecords accounted authenticated now records false 0
  revert stopped
  unfold Flight.acknowledge
  dsimp only
  split_ifs with complete
  · exact fun _ => before
  all_goals intro stopped
  · cases stopped
  · exact kept.congr rfl rfl
  · cases stopped
  · exact kept

theorem AllKept.expire (all : f.AllKept) (now : Time) : (f.expire now).2.AllKept := by
  have same : (f.expire now).2.messages = f.messages ∧ (f.expire now).2.sent = f.sent := by
    unfold Flight.expire
    split_ifs <;> exact ⟨rfl, rfl⟩
  exact all.of_kept (by rw [same.1]) fun kept => kept.congr same.1 same.2

end Flight

/-! ## Transmissions -/

/-- The flight behind a pointer is transmitted. -/
def FlightRef.Logged {σ : Type} (ref : FlightRef σ) (s s' : σ) : Prop := Flight.Logged (ref.load s) (ref.load s')

instance {σ : Type} (ref : FlightRef σ) : Std.Refl ref.Logged := ⟨fun _ => .refl⟩

instance {σ : Type} (ref : FlightRef σ) : IsTrans σ ref.Logged := ⟨fun _ _ _ => .trans⟩

/-- A transmission logs what it does. -/
theorem transmit_logged {σ : Type} (x : Sender σ) :
    Respects x.ref.Logged (x.ref.transmit x.now x.capacity x.send) := by
  have stored : ∀ f s, Flight.Logs (x.ref.load s) f → x.ref.Logged s (x.ref.store f s) := by
    intro f s logs
    unfold FlightRef.Logged
    rcases x.stored f s with changed | ⟨same, -⟩
    · rw [changed]
      exact .single logs
    · rw [same]
  have sends : ∀ epoch body, Respects x.ref.Logged (x.send epoch body) := by
    intro epoch body s
    unfold FlightRef.Logged
    exact (x.kept epoch body s).mono (fun _ _ same => same ▸ .refl) fun _ _ same => same ▸ .refl
  have ranges : ∀ onlyNew index m start stop,
      Respects x.ref.Logged (x.ref.sendRange x.now x.send onlyNew index m start stop) :=
    fun _ => respects_sendRange (fun s onlyNew index start stop number fresh =>
      stored _ s (.recorded x.now onlyNew index start stop fresh)) sends
  exact respects_transmit (fun s _ _ _ _ _ _ => ranges _ _ _ _ _ s) (fun s => stored _ s (.armed x.now)) x.capacity

namespace Flight

variable {f : Flight}

theorem AllKept.call (all : f.AllKept) (accounted : f.Accounted) (call : Call) : (f.call call).AllKept := by
  cases call with
  | transmit now capacity answers =>
    have logged := transmit_logged (Sending.sender now capacity)
    exact ((logged ⟨f, answers, []⟩).final (P := Sending.ref.Logged ⟨f, answers, []⟩)).allKept all
  | acknowledge records authenticated now => exact all.acknowledge accounted records authenticated now
  | expire now => exact all.expire now

/-- In whatever state a flight gets, none of its bytes is out of sight. -/
private theorem run_allKept (all : f.AllKept) (accounted : f.Accounted) (calls : List Call) :
    (f.run calls).AllKept := by
  induction calls generalizing f with
  | nil => exact all
  | cons call rest ih => exact ih (all.call accounted call) (accounted.call call)

end Flight

/-! ## The loop -/

variable [Crypto]

theorem sendRecord_logged (slot : Slot) (epoch : ℕ) (typ : UInt8) (body : Bytes) :
    Respects slot.ref.Logged (sendRecord epoch typ body) := fun _ =>
  sendRecord_ends (fun _ => .refl) (fun _ _ _ _ _ _ _ _ => .refl) fun _ _ _ _ _ _ _ => .refl

/-- One round: the flight is sent in fragments for the working MTU. -/
def sendFlight (slot : Slot) (now : Time) : SessionM Unit := do
  let s ← getSession
  slot.ref.transmit now s.fragmentCapacity fun epoch body => sendRecord epoch contentHandshake body

theorem sendFlight_logged (slot : Slot) (now : Time) : Respects slot.ref.Logged (sendFlight slot now) :=
  respects_session fun _ => transmit_logged (slot.sender now _)

theorem sendFlight_calm (slot : Slot) (now : Time) : Respects World.Calm (sendFlight slot now) :=
  respects_session fun _ => flightTransmit_calm slot now _

theorem sendACK_logged (slot : Slot) : Respects slot.ref.Logged sendACK :=
  Acknowledges.sendACK ⟨fun only => respects_modify fun w => by rw [← only w.session]; exact .refl,
    fun _ _ => sendRecord_logged slot _ _ _⟩

/-- The loop of `transmit`, without a bound on its rounds: how it ends, and the working MTU of each new round. -/
inductive Transmits (slot : Slot) (now : Time) : World → List ℕ → EStateM.Result Err World Unit → Prop
  | returned {w w' : World} : sendFlight slot now w = .ok () w' →
      Transmits slot now w [] (runIf w'.session.handshake.complete sendACK w')
  | failed {w w' : World} {e : Err} : sendFlight slot now w = .error e w' → e.isMessageTooLong = false →
      Transmits slot now w [] (.error e w')
  | exhausted {w w' : World} {e : Err} : sendFlight slot now w = .error e w' → e.isMessageTooLong = true →
      (w'.session.reduceHandshakeMTU w'.session.working.lastSendSize).1 = false → Transmits slot now w [] (.error e w')
  | retried {w w' : World} {e : Err} {reduced : Session} {sizes : List ℕ} {r : EStateM.Result Err World Unit} :
      sendFlight slot now w = .error e w' → e.isMessageTooLong = true →
      w'.session.reduceHandshakeMTU w'.session.working.lastSendSize = (true, reduced) →
      Transmits slot now { w' with session := reduced } sizes r → Transmits slot now w (reduced.effectiveMTU :: sizes) r

/-- A round, and what the loop makes of its outcome. -/
private theorem transmitLoop_succ (slot : Slot) (now : Time) (fuel : ℕ) (w : World) :
    transmitLoop slot now (fuel + 1) w = match sendFlight slot now w with
      | .ok _ w' => runIf w'.session.handshake.complete sendACK w'
      | .error e w' =>
        if e.isMessageTooLong then
          match w'.session.reduceHandshakeMTU w'.session.working.lastSendSize with
          | (false, _) => .error e w'
          | (true, reduced) => transmitLoop slot now fuel { w' with session := reduced }
        else .error e w' := by
  have round : sendFlight slot now w =
      slot.ref.transmit now w.session.fragmentCapacity
        (fun epoch body => sendRecord epoch contentHandshake body) w := rfl
  rw [round]
  show EStateM.bind (attempt _) _ w = _
  unfold EStateM.bind attempt
  cases slot.ref.transmit now w.session.fragmentCapacity
    (fun epoch body => sendRecord epoch contentHandshake body) w with
  | ok _ w' => rfl
  | error e w' =>
    dsimp only
    show (if e.isMessageTooLong then _ else _ : SessionM Unit) w' = _
    split_ifs
    · cases w'.session.reduceHandshakeMTU w'.session.working.lastSendSize with
      | mk reduces reduced => cases reduces <;> rfl
    · rfl

section Loop

variable {slot : Slot} {now : Time} {w : World} {sizes : List ℕ} {r : EStateM.Result Err World Unit}

/-- The reductions that are left are enough for the rounds of the loop. -/
private theorem transmitLoop_transmits (fuel : ℕ) (enough : maxMTUReductions - w.session.working.reductions < fuel) :
    ∃ sizes, Transmits slot now w sizes (transmitLoop slot now fuel w) := by
  induction fuel generalizing w with
  | zero => omega
  | succ fuel ih =>
    have calm := sendFlight_calm slot now w
    rw [transmitLoop_succ]
    cases round : sendFlight slot now w with
    | ok a w' => exact ⟨[], .returned round⟩
    | error e w' =>
      dsimp only
      by_cases tooLong : e.isMessageTooLong = true
      · rw [if_pos tooLong]
        cases reduces : w'.session.reduceHandshakeMTU w'.session.working.lastSendSize with
        | mk done reduced =>
          cases done with
          | false => exact ⟨[], .exhausted round tooLong (by rw [reduces])⟩
          | true =>
            obtain ⟨-, -, left, same⟩ := Session.reduceHandshakeMTU_lowers reduces
            have counted := congrArg (·.working.reductions) same
            dsimp only at counted
            rw [(World.Calm.fields (calm.error round)).2.2] at left counted
            have fewer : maxMTUReductions - reduced.working.reductions < fuel := by omega
            obtain ⟨sizes, later⟩ := ih (w := { w' with session := reduced }) fewer
            exact ⟨_, .retried round tooLong reduces later⟩
      · rw [if_neg tooLong]
        exact ⟨[], .failed round (Bool.not_eq_true _ ▸ tooLong)⟩

/-- The state in which a result leaves the world. -/
def ended : EStateM.Result Err World Unit → World
  | .ok _ w => w
  | .error _ w => w

/-- What the loop does to the working MTU and to the flight. -/
structure Recovers (slot : Slot) (w : World) (sizes : List ℕ) (w' : World) : Prop where
  decreasing : (w.session.effectiveMTU :: sizes).Pairwise (· > ·)
  floor : ∀ size ∈ sizes, 256 ≤ size
  few : sizes.length ≤ 8 - w.session.working.reductions
  counted : w'.session.working.reductions = w.session.working.reductions + sizes.length
  logged : slot.ref.Logged w w'

omit [Crypto] in
private theorem recovers_of_calm {w' : World} (calm : w.Calm w') (logged : slot.ref.Logged w w') :
    Recovers slot w [] w' where
  decreasing := pairwise_singleton _ _
  floor := by simp
  few := Nat.zero_le _
  counted := calm.fields.2.2
  logged := logged

theorem Transmits.recovers (transmits : Transmits slot now w sizes r) : Recovers slot w sizes (ended r) := by
  induction transmits with
  | @returned w w' round =>
    have calm := (sendFlight_calm slot now w).ok round
    have logged := (sendFlight_logged slot now w).ok round
    have acknowledged : Respects World.Calm (runIf w'.session.handshake.complete sendACK) :=
      respects_runIf (calm_of_quiet sendACK_quiet)
    have kept : Respects slot.ref.Logged (runIf w'.session.handshake.complete sendACK) :=
      respects_runIf (sendACK_logged slot)
    cases outcome : runIf w'.session.handshake.complete sendACK w' with
    | ok _ v => exact recovers_of_calm (calm.trans ((acknowledged w').ok outcome)) (logged.trans ((kept w').ok outcome))
    | error _ v =>
      exact recovers_of_calm (calm.trans ((acknowledged w').error outcome)) (logged.trans ((kept w').error outcome))
  | @failed w w' _ round | @exhausted w w' _ round =>
    exact recovers_of_calm ((sendFlight_calm slot now w).error round) ((sendFlight_logged slot now w).error round)
  | @retried w w' e reduced sizes r round tooLong reduces later ih =>
    have calm := (sendFlight_calm slot now w).error round
    obtain ⟨floor, lower, left, same⟩ := Session.reduceHandshakeMTU_lowers reduces
    have counted := congrArg (·.working.reductions) same
    dsimp only at counted
    rw [calm.effectiveMTU] at lower
    rw [calm.fields.2.2] at left counted
    have flights : slot.ref.load { w' with session := reduced } = slot.ref.load w' := by
      rw [same]
      cases slot <;> rfl
    have eight : maxMTUReductions = 8 := rfl
    constructor
    · have chain := ih.decreasing
      refine pairwise_cons.mpr ⟨?_, chain⟩
      intro size member
      rcases mem_cons.mp member with rfl | member
      · exact lower
      · exact lt_trans ((pairwise_cons.mp chain).1 size member) lower
    · intro size member
      rcases mem_cons.mp member with rfl | member
      · exact floor
      · exact ih.floor size member
    · have few := ih.few
      change sizes.length ≤ 8 - reduced.working.reductions at few
      rw [length_cons]
      omega
    · rw [ih.counted]
      show reduced.working.reductions + sizes.length = _
      rw [length_cons]
      omega
    · exact ((sendFlight_logged slot now w).error round).trans (flights ▸ ih.logged)

end Loop

/-- Whatever the transport answers, `transmit` ends: it has started over with ever smaller fragments, never below 256
and at most as often as reductions are left, and no byte of the flight that was in sight before is out of sight.
In a flight no byte ever is. -/
theorem transmit_recovers (slot : Slot) (now : Time) (w : World) :
    (∃ sizes, Transmits slot now w sizes (transmit slot now w) ∧
      (w.session.effectiveMTU :: sizes).Pairwise (· > ·) ∧ (∀ size ∈ sizes, 256 ≤ size) ∧
      sizes.length ≤ 8 - w.session.working.reductions ∧
      (ended (transmit slot now w)).session.working.reductions = w.session.working.reductions + sizes.length) ∧
    (∀ index i, (slot.ref.load w).Kept index i → (slot.ref.load (ended (transmit slot now w))).Kept index i) ∧
    ((slot.ref.load w).AllKept → (slot.ref.load (ended (transmit slot now w))).AllKept) ∧
    ∀ messages interval f calls, newFlight messages interval = .ok f → (f.run calls).AllKept := by
  obtain ⟨sizes, transmits⟩ : ∃ sizes, Transmits slot now w sizes (transmit slot now w) :=
    transmitLoop_transmits (maxMTUReductions + 1) (by omega)
  have recovers := transmits.recovers
  refine ⟨⟨sizes, transmits, recovers.decreasing, recovers.floor, recovers.few, recovers.counted⟩, ?_, ?_, ?_⟩
  · exact fun index i kept => recovers.logged.kept kept
  · exact fun all => recovers.logged.allKept all
  · intro messages interval f calls started
    exact Flight.run_allKept (Flight.newFlight_allKept started) (Flight.newFlight_accounted started) calls

end Socat.Dtls13
