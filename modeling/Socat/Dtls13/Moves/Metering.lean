import Socat.Dtls13.Moves.Calm
import Socat.Dtls13.Moves.Receive
import Socat.Dtls13.Moves.Upkeep
import Socat.Machine.Path

/-! # What changes the working MTU

The working MTU changes in elementary adjustments: one reduction, or one accepted response to the
outstanding probe. `Metered` says that a computation is a sequence of adjustments, with every state
between two of them in view. Every operation of a session is metered.
-/

namespace Socat.Dtls13

open Machine Session

/-! ## Raising the working MTU -/

/-- What the working MTU becomes depends on little of the session. -/
theorem setWorkingMTU_congr {s t : Session} (handshake : t.handshake = s.handshake)
    (working : t.working = s.working) (n : ℕ) :
    (t.setWorkingMTU n).handshake = s.handshake ∧ (t.setWorkingMTU n).working = (s.setWorkingMTU n).working := by
  have ceiling : t.mtuCeiling = s.mtuCeiling := by simp only [mtuCeiling, handshake]
  have effective : t.effectiveMTU = s.effectiveMTU := by
    simp only [effectiveMTU, ceiling, working]
  simp only [setWorkingMTU, ceiling, effective]
  split
  · exact ⟨handshake, working⟩
  · split
    · exact ⟨handshake, working⟩
    · exact ⟨handshake, by simp only [working]⟩

/-- The working MTU is raised to a size, when that is an increase. -/
structure Session.Raised (s : Session) (size : ℕ) (t : Session) : Prop where
  handshake : t.handshake = s.handshake
  working : t.working = if s.effectiveMTU < size then (s.setWorkingMTU size).working else s.working

private theorem raised_setWorkingMTU {s t : Session} (handshake : t.handshake = s.handshake)
    (working : t.working = s.working) (size : ℕ) :
    s.Raised size (if t.effectiveMTU < size then t.setWorkingMTU size else t) := by
  have effective : t.effectiveMTU = s.effectiveMTU := by
    simp only [effectiveMTU, mtuCeiling, handshake, working]
  rw [effective]
  obtain ⟨sameHandshake, sameWorking⟩ := setWorkingMTU_congr handshake working size
  split
  · exact ⟨sameHandshake, by rw [if_pos ‹_›, sameWorking]⟩
  · exact ⟨handshake, by rw [if_neg ‹_›, working]⟩

private theorem raised_ite {s a b : Session} {size : ℕ} {c : Prop} [Decidable c] (yes : s.Raised size a)
    (no : s.Raised size b) : s.Raised size (if c then a else b) := by
  split
  · exact yes
  · exact no

private theorem onMTUProbeAcked_raised (s : Session) (probe : MTUProbe) (now : Time) :
    s.Raised probe.size (s.onMTUProbeAcked probe now) := by
  -- Every state the function goes through differs from `s` in the discovery only, up to the raise.
  unfold onMTUProbeAcked
  dsimp only
  cases probe.kind with
  | confirm =>
    have raised : s.Raised probe.size _ := raised_setWorkingMTU (s := s) (t := { s with
      mtu.nextProbe := now + probePace
      mtu.confirmFails := 0 }) rfl rfl probe.size
    refine raised_ite ?_ ⟨raised.handshake, raised.working⟩
    rw [← discoveryOnly_beginMTUSearch (m := Session.mtu _)]
    exact ⟨raised.handshake, raised.working⟩
  | search =>
    have raised : s.Raised probe.size _ := raised_setWorkingMTU (s := s) (t := { s with
      mtu.nextProbe := now + probePace
      mtu.finder := s.mtu.finder.onAcked probe.size }) rfl rfl probe.size
    exact raised_ite ⟨raised.handshake, raised.working⟩ raised

variable [Crypto]

/-! ## Adjustments -/

/-- A record that is being taken in: where it came from, when, and the state it found. -/
structure Intake where
  record : Record
  hasCID : Bool
  sender : PacketPath
  now : Time
  world : World

namespace Intake

def size (i : Intake) : ℕ := i.record.header.length + i.record.body.length

/-- The state in which the content of the record is dispatched: the record was opened and observed. -/
def Dispatched (i : Intake) (number : RecordNumber) (typ : UInt8) (body : Bytes) (w : World) : Prop :=
  ∃ opened, openRecord i.record i.hasCID i.world = .ok (some (number, typ, body)) opened ∧
    runIf (opened.session.path.isSome ∧ opened.session.handshake.complete ∧ i.record.encrypted)
      (observe i.sender number typ i.size i.now) opened = .ok () w

/-- The state in which the content, an authenticated RRC message, is compared with the outstanding probe. -/
def Compared (i : Intake) (body : Bytes) (w : World) : Prop :=
  i.record.encrypted = true ∧ ∃ number received, 3 ≤ number.epoch ∧ i.Dispatched number contentRRC body received ∧
    receivePath i.sender body i.size i.now received = .ok () w

/-- The record is a `path_response` with the cookie of the probe that is outstanding when it is compared. It
came over the probe's path before the deadline, and the probe is of this generation. -/
structure Answers (i : Intake) (w : World) (probe : MTUProbe) : Prop where
  compared : i.Compared (pathResponse :: probe.cookie) w
  outstanding : w.session.mtu.outstanding = some probe
  generation : probe.generation = w.session.mtu.generation
  path : i.sender = probe.path
  timely : i.now < probe.deadline

end Intake

/-- One change of a session, as far as the working MTU is concerned. -/
inductive Adjusts (intake : Option Intake) (w : World) : World → Prop
  | keep {w' : World} (calm : w.Calm w') : Adjusts intake w w'
  | reduce (tooBig : ℕ) {s : Session} (reduced : w.session.reduceHandshakeMTU tooBig = (true, s)) :
      Adjusts intake w { w with session := s }
  | raise (i : Intake) (probe : MTUProbe) {w' : World} (current : intake = some i) (answers : i.Answers w probe)
      (larger : w.session.effectiveMTU < probe.size)
      (raised : World.Calm { w with session := w.session.setWorkingMTU probe.size } w') : Adjusts intake w w'

/-- The states around one change, and the record that is being taken in. -/
structure Adjustment where
  intake : Option Intake
  before : World
  after : World

/-- The labelled step of a sequence of changes. -/
def Adjustment.Made (intake : Option Intake) (w : World) (a : Adjustment) (w' : World) : Prop :=
  a = ⟨intake, w, w'⟩ ∧ Adjusts intake w w'

/-- The second state comes from the first by adjustments. -/
def Metered (intake : Option Intake) (w w' : World) : Prop :=
  ∃ changes, Path (Adjustment.Made intake) w changes w'

variable {intake : Option Intake}

theorem Adjusts.metered {w w' : World} (adjusts : Adjusts intake w w') : Metered intake w w' :=
  ⟨[⟨intake, w, w'⟩], .cons ⟨rfl, adjusts⟩ (.nil w')⟩

instance : Std.Refl (Metered intake) := ⟨fun w => ⟨[], .nil w⟩⟩

theorem Metered.trans {a b c : World} (first : Metered intake a b) (second : Metered intake b c) :
    Metered intake a c := by
  obtain ⟨earlier, left⟩ := first
  obtain ⟨later, right⟩ := second
  exact ⟨earlier ++ later, left.append right⟩

instance : IsTrans World (Metered intake) := ⟨fun _ _ _ => Metered.trans⟩

theorem World.Calm.metered {w w' : World} (calm : w.Calm w') : Metered intake w w' :=
  (Adjusts.keep calm).metered

theorem metered_of_calm {α : Type} {x : SessionM α} (calm : Respects World.Calm x) :
    Respects (Metered intake) x := calm.weaken fun _ _ => World.Calm.metered

theorem metered_of_quiet {α : Type} {x : SessionM α} (quiet : Respects World.Quiet x) :
    Respects (Metered intake) x := metered_of_calm (calm_of_quiet quiet)

/-! ## Functions on the session -/

section Session

variable {w : World} {now : Time}

/-- Only the state of the discovery differs. -/
theorem metered_mtu {s : Session} (only : s.handshake = w.session.handshake)
    (working : s.working = w.session.working) : Metered intake w { w with session := s } :=
  World.Calm.metered (by simp only [Unchanged, World.sizing, only, working])

theorem reduceHandshakeMTU_metered (tooBig : ℕ) :
    Metered intake w { w with session := (w.session.reduceHandshakeMTU tooBig).2 } := by
  rcases outcome : w.session.reduceHandshakeMTU tooBig with ⟨done, s⟩
  cases done with
  | true => exact (Adjusts.reduce tooBig outcome).metered
  | false =>
    have same : s = w.session := by
      unfold reduceHandshakeMTU at outcome
      dsimp only at outcome
      split at outcome
      · cases outcome
        rfl
      · split at outcome
        · cases outcome
          rfl
        · cases outcome
    exact same ▸ Std.Refl.refl w

private theorem onApplicationTooBig_metered : Metered intake w { w with session := w.session.onApplicationTooBig } := by
  refine (reduceHandshakeMTU_metered w.session.working.lastSendSize).trans ?_
  unfold onApplicationTooBig
  dsimp only
  split
  · exact metered_mtu rfl rfl
  · exact Std.Refl.refl _

theorem onMTUProbeLost_metered {probe : MTUProbe} {hard : Bool} :
    Metered intake w { w with session := w.session.onMTUProbeLost probe now hard } := by
  unfold onMTUProbeLost
  dsimp only
  cases probe.kind with
  | confirm =>
    generalize (if hard = true then maxConfirmFails else w.session.mtu.confirmFails + 1) = fails
    dsimp only
    split
    · exact metered_mtu rfl rfl
    · set start : Session := { w.session with
        mtu.nextProbe := now + probePace
        mtu.confirmFails := 0 }
      have begun : Metered intake w { w with session := start } := metered_mtu rfl rfl
      have reduced : Metered intake { w with session := start }
          { w with session := (start.reduceHandshakeMTU probe.size).2 } := reduceHandshakeMTU_metered _
      refine (begun.trans reduced).trans ?_
      rcases start.reduceHandshakeMTU probe.size with ⟨done, s⟩
      cases done <;> exact metered_mtu rfl rfl
  | search =>
    dsimp only
    split <;> exact metered_mtu rfl rfl

private theorem expireMTUProbe_metered : Metered intake w { w with session := w.session.expireMTUProbe now } := by
  unfold expireMTUProbe
  split
  · split
    · have cleared : Metered intake w { w with session.mtu.outstanding := none } := metered_mtu rfl rfl
      exact cleared.trans onMTUProbeLost_metered
    · exact Std.Refl.refl w
  · exact Std.Refl.refl w

private theorem probeRefused_metered {size : ℕ} {kind : MTUProbeKind} {e : Err} :
    Metered intake w { w with session := w.session.probeRefused size now kind e } := by
  unfold probeRefused
  split
  · split
    · dsimp only
      split
      · exact metered_mtu rfl rfl
      · exact metered_mtu rfl rfl
    · exact onMTUProbeLost_metered
  · split
    · exact metered_mtu rfl rfl
    · exact metered_mtu rfl rfl

/-- An RRC message settles the outstanding probe only if it matches it. -/
theorem receiveMTUProbe_metered {i : Intake} {body : Bytes} (compared : i.Compared body w) :
    Metered (some i) w { w with session := w.session.receiveMTUProbe i.sender body i.now } := by
  unfold receiveMTUProbe
  split
  · rename_i probe kind cookie outstanding
    split
    · exact Std.Refl.refl w
    · rename_i matching
      simp only [not_or, not_not, not_le, not_and_or] at matching
      obtain ⟨-, -, -, -, kinds, generation, same, path, timely⟩ := matching
      dsimp only
      split
      · have cleared : Metered (some i) w { w with session.mtu.outstanding := none } := metered_mtu rfl rfl
        exact cleared.trans onMTUProbeLost_metered
      · rename_i response
        have response : kind :: cookie = pathResponse :: probe.cookie := by
          rw [same, kinds.resolve_right response]
          rfl
        have answers : i.Answers w probe := ⟨response ▸ compared, outstanding, generation, path, timely⟩
        set cleared : Session := { w.session with mtu.outstanding := none }
        obtain ⟨handshake, working⟩ := onMTUProbeAcked_raised cleared probe i.now
        by_cases larger : w.session.effectiveMTU < probe.size
        · have after := (working.trans (if_pos larger)).trans
            (setWorkingMTU_congr (s := w.session) (t := cleared) rfl rfl probe.size).2
          have fixed := (setWorkingMTU_congr (s := w.session) rfl rfl probe.size).1
          refine (Adjusts.raise i probe rfl answers larger ?_).metered
          simp only [Unchanged, World.sizing, handshake, after, fixed]
          rfl
        · exact metered_mtu handshake (working.trans (if_neg larger))
  · exact Std.Refl.refl w

end Session

/-! ## Flights -/

theorem transmit_metered (slot : Slot) (now : Time) : Respects (Metered intake) (transmit slot now) :=
  respects_transmitLoop (fun _ => metered_of_calm (flightTransmit_calm slot now _)) (metered_of_quiet sendACK_quiet)
    (fun _ _ _ reduced => (Adjusts.reduce _ reduced).metered) _

theorem startFlight_metered (messages : List HandshakeMessage) (now : Time) :
    Respects (Metered intake) (startFlight messages now) := by
  refine respects_bind (metered_of_quiet installKeys_quiet) fun _ =>
    respects_session fun s => ?_
  dsimp only
  generalize newFlight messages _ = outcome
  split
  · exact respects_throw _
  · exact respects_bind (metered_of_calm fun _ => rfl) fun _ =>
      transmit_metered _ now

theorem repeats_metered : Repeats (Metered intake) where
  transmit := transmit_metered
  expire _ _ := (store_calm _ _ _).metered
  restart := metered_of_calm (update_calm _ _)
  reduce := respects_modify fun _ => reduceHandshakeMTU_metered 0

/-! ## Post-handshake operations -/

private theorem startPost_metered (typ : PostType) (body : Bytes) (now : Time) :
    Respects (Metered intake) (startPost typ body now) := by
  refine respects_getSession_bind fun w => ?_
  split
  · exact ends_throw.mpr (Std.Refl.refl w)
  split
  · exact ends_throw.mpr (Std.Refl.refl w)
  split
  · exact ends_throw.mpr (Std.Refl.refl w)
  rename_i m handshake numbered
  have stepped : w.Calm { w with session.handshake := handshake } := by
    unfold Handshake.message at numbered
    split at numbered
    · contradiction
    · cases numbered
      exact rfl
  rw [ends_bind, ends_modifySession]
  refine Respects.from ?_ stepped.metered
  split
  · exact respects_throw _
  · refine respects_bind (respects_modify fun _ => issue_calm.metered) fun _ =>
      respects_bind (respects_attempt (transmit_metered _ now)) fun outcome => ?_
    split
    · exact respects_pure _
    · exact respects_bind (respects_modify fun _ => settlePost_calm.metered) fun _ => respects_throw _

theorem upkeep_metered : Upkeep (Metered intake) where
  quiet := metered_of_quiet
  startPost typ body now _ := startPost_metered typ body now
  dropComplete := metered_of_calm fun _ => rfl
  acknowledgeFlight := respects_acknowledgeFlight (fun _ => (store_calm _ _ _).metered)
    (fun _ _ => metered_of_calm (noteRTT_calm _ _)) transmit_metered
  expireOutbound := repeats_metered.expireOutbound
  retransmitExpired := repeats_metered.retransmitExpired
  tickMTUProbe := Discovers.tickMTUProbe
    ⟨fun only => respects_modify fun w => by rw [← only w.session]; exact metered_mtu rfl rfl,
      fun _ _ _ => metered_of_quiet (routes_quiet.sendMTUProbe _ _ _),
        fun _ _ _ _ => respects_modify fun _ => probeRefused_metered,
      fun _ => respects_modify fun _ => expireMTUProbe_metered⟩
  applicationTooBig := respects_modify fun _ => onApplicationTooBig_metered

/-! ## Handshake messages -/

private theorem handleMessage_metered (m : HandshakeMessage) (now : Time) :
    Respects (Metered intake) (handleMessage m now) := by
  have finished : Respects (Metered intake) (modifySession fun s => s.finishOutbound now) := by
    refine metered_of_calm (respects_modify fun w => ?_)
    dsimp only [finishOutbound, noteFlightRTT]
    split
    · exact Std.Refl.refl w
    · split <;> exact rfl
  have responds : ∀ response, Respects (Metered intake) (respond response now) := fun _ =>
    respects_session fun _ =>
      respects_bind (respects_runIf (metered_of_calm fun _ => rfl)) fun _ =>
        startFlight_metered _ now
  exact respects_bind (metered_of_calm (callHandler_calm m)) fun _ => respects_bind finished fun _ =>
    respects_bind (metered_of_quiet installKeys_quiet) fun _ => respects_bind (respects_runIf (responds _)) fun _ =>
      metered_of_quiet sendACK_quiet

private theorem processLoop_metered (now : Time) : ∀ fuel, Respects (Metered intake) (processLoop now fuel) := by
  intro fuel
  induction fuel with
  | zero => exact respects_pure _
  | succ fuel ih =>
    refine respects_bind (metered_of_quiet popMessage_quiet) fun popped => ?_
    split
    · exact respects_pure _
    · exact respects_session fun _ => respects_ite
        (respects_bind (metered_of_quiet (receivePost_quiet _)) fun _ => ih)
        (respects_bind (handleMessage_metered _ now) fun _ => ih)

theorem processHandshakes_metered (now : Time) : Respects (Metered intake) (processHandshakes now) :=
  respects_session fun _ => processLoop_metered now _

private theorem receiveHandshake_metered (number : RecordNumber) (body : Bytes) (now : Time) :
    Respects (Metered intake) (receiveHandshake number body now) :=
  respects_bind (metered_of_quiet (addFragments_quiet _ _)) fun _ =>
    respects_bind (respects_runIf (metered_of_quiet (acknowledges_quiet.queueAcknowledgement _ now))) fun _ =>
      processHandshakes_metered now

/-! ## Records and datagrams -/

section Records

variable {w : World} {i : Intake} {number : RecordNumber} {typ : UInt8} {body : Bytes}

private theorem openRecord_encrypted {r : Record} {hasCID : Bool} {w' : World}
    (opened : openRecord r hasCID w = .ok (some (number, typ, body)) w')
    (plain : r.encrypted = false → r.number.epoch = 0) (positive : 0 < number.epoch) : r.encrypted = true := by
  by_contra unprotected
  have unprotected : r.encrypted = false := by simpa using unprotected
  have content : Ends (openRecord r hasCID) w (fun result _ => ∀ x, result = some x → x.1 = r.number)
      fun _ _ => True := by
    unfold openRecord
    rw [ends_session, if_pos unprotected, ends_pure]
    split
    · rintro x ⟨⟩
      rfl
    · simp
  have same : number = r.number := content.ok opened _ rfl
  rw [same, plain unprotected] at positive
  omega

private theorem receiveRRC_metered (plain : i.record.encrypted = false → i.record.number.epoch = 0)
    (dispatched : i.Dispatched number contentRRC body w) :
    Ends (receiveRRC number body i.sender i.size i.now) w (fun _ => Metered (some i) w)
      (fun _ => Metered (some i) w) := by
  unfold receiveRRC
  rw [ends_session]
  refine ends_guard (Std.Refl.refl w) fun expected => ?_
  have protectedEpoch : 3 ≤ number.epoch := by
    by_contra below
    exact expected (.inr (.inr (.inl (by omega))))
  have received := calm_of_quiet (routes_quiet.receivePath i.sender body i.size i.now) w
  rw [ends_bind]
  refine ends_of_cases (fun _ w₁ outcome => ?_) fun _ _ outcome => (received.error outcome).metered
  obtain ⟨_, opened, _⟩ := id dispatched
  rw [ends_modifySession]
  exact (received.ok outcome).metered.trans (receiveMTUProbe_metered
    ⟨openRecord_encrypted opened plain (by omega), number, w, protectedEpoch, dispatched, outcome⟩)

private theorem dispatch_metered (plain : i.record.encrypted = false → i.record.number.epoch = 0)
    (dispatched : i.Dispatched number typ body w) :
    Ends (dispatch number typ body i.record.encrypted i.sender i.size i.now) w (fun _ => Metered (some i) w)
      (fun _ => Metered (some i) w) := by
  unfold dispatch
  split
  · exact respects_bind (receiveHandshake_metered _ _ i.now) (fun _ => respects_pure _) w
  split
  · exact respects_bind (upkeep_metered.receiveACK _ _ i.now) (fun _ => respects_pure _) w
  split
  · exact metered_of_quiet (receiveData_quiet _ _) w
  split
  · exact respects_bind (metered_of_quiet (receiveAlert_quiet _ _ _)) (fun _ => respects_pure _) w
  split
  · rename_i rrc
    subst rrc
    rw [ends_bind]
    exact (receiveRRC_metered plain dispatched).imp fun _ _ metered => ends_pure.mpr metered
  · exact ends_pure.mpr (Std.Refl.refl w)

private theorem receiveRecord_metered (i : Intake) (plain : i.record.encrypted = false → i.record.number.epoch = 0) :
    Metered (some i) i.world (final (receiveRecord i.record i.hasCID i.sender i.now) i.world) := by
  refine Ends.final (P := Metered (some i) i.world) ?_
  unfold receiveRecord
  have opens := calm_of_quiet (openRecord_quiet i.record i.hasCID) i.world
  rw [ends_bind]
  refine ends_of_cases (fun result w₁ opened => ?_) fun _ _ failed => (opens.error failed).metered
  have metered : Metered (some i) i.world w₁ := (opens.ok opened).metered
  split
  · exact ends_pure.mpr metered
  rename_i number typ body
  rw [ends_session]
  split
  · exact ends_pure.mpr metered
  have observes := respects_runIf (c := w₁.session.path.isSome ∧ w₁.session.handshake.complete ∧ i.record.encrypted)
    (calm_of_quiet (routes_quiet.observe i.sender number typ i.size i.now)) w₁
  rw [ends_bind]
  refine ends_of_cases (fun _ w₂ observed => ?_) fun _ _ failed => metered.trans (observes.error failed).metered
  have before := metered.trans (observes.ok observed).metered
  exact (dispatch_metered plain ⟨w₁, opened, observed⟩).mono (fun _ _ => before.trans) (fun _ _ => before.trans)

end Records

/-- The records of a datagram are taken in one after another, each in the state the one before it left. What
follows a record that fails is left out. -/
inductive TakenIn (hasCID : Bool) (sender : PacketPath) (now : Time) :
    List Record → World → List Adjustment → World → Prop
  | stop {records : List Record} (w : World) : TakenIn hasCID sender now records w [] w
  | take {r : Record} {records : List Record} {w w' : World} {changes more : List Adjustment} :
      Path (Adjustment.Made (some ⟨r, hasCID, sender, now, w⟩)) w changes
        (final (receiveRecord r hasCID sender now) w) →
      TakenIn hasCID sender now records (final (receiveRecord r hasCID sender now) w) more w' →
      TakenIn hasCID sender now (r :: records) w (changes ++ more) w'

private theorem receiveRecords_takenIn {hasCID : Bool} {sender : PacketPath} {now : Time}
    {records : List Record} {w : World}
    (plain : ∀ r ∈ records, r.encrypted = false → r.number.epoch = 0) :
    Ends (receiveRecords hasCID sender now records) w
      (fun _ w' => ∃ changes, TakenIn hasCID sender now records w changes w')
      (fun _ w' => ∃ changes, TakenIn hasCID sender now records w changes w') := by
  induction records generalizing w with
  | nil => exact ends_pure.mpr ⟨[], .stop w⟩
  | cons r rest ih =>
    obtain ⟨changes, path⟩ := receiveRecord_metered ⟨r, hasCID, sender, now, w⟩ (plain r List.mem_cons_self)
    unfold receiveRecords
    rw [ends_bind]
    refine ends_of_cases (fun _ w₁ taken => ?_) fun _ w₁ failed => ?_
    · have left : final (receiveRecord r hasCID sender now) w = w₁ := by simp only [final, taken]
      have later := ih (w := w₁) fun r member => plain r (List.mem_cons_of_mem _ member)
      rw [ends_bind]
      refine later.mono (fun _ w' rest => ends_pure.mpr ?_) fun _ w' rest => ?_
      all_goals
        obtain ⟨more, rest⟩ := rest
        exact ⟨changes ++ more, .take path (left ▸ rest)⟩
    · have left : final (receiveRecord r hasCID sender now) w = w₁ := by simp only [final, failed]
      exact ⟨changes ++ [], .take path (left ▸ .stop _)⟩

/-- What a datagram holds for the session, and the state in which its records are taken in. -/
def entered (datagram : Bytes) (sender : PacketPath) (now : Time) (w : World) :
    Option (List Record × Bool × World) :=
  let s := w.session.expireHandshakeRead now
  if s.rejectsSource sender then none
  else (s.parseDatagram datagram.length datagram [] false).map fun (records, hasCID) =>
    (records, hasCID, { w with session :=
      if s.handshake.complete = false ∧ records ≠ [] then { s with handshakeReceived := now } else s })

/-- The datagram an operation takes in: where it came from and when. -/
def Operation.arrival : Operation → Option (Bytes × PacketPath × Time)
  | .event (.receive datagram sender now) => some (datagram, sender, now)
  | .receiveFrom datagram sender now => some (datagram, sender, now)
  | _ => none

/-- The adjustments of an operation. Only the records of a datagram have an intake. -/
inductive Operated (arrival : Option (Bytes × PacketPath × Time)) (w : World) : List Adjustment → World → Prop
  | apart {changes : List Adjustment} {w' : World} :
      Path (Adjustment.Made none) w changes w' → Operated arrival w changes w'
  | received {datagram : Bytes} {sender : PacketPath} {now : Time} {records : List Record} {hasCID : Bool}
      {u v w' : World} {first taken last : List Adjustment} :
      arrival = some (datagram, sender, now) → entered datagram sender now w = some (records, hasCID, u) →
      Path (Adjustment.Made none) w first u → TakenIn hasCID sender now records u taken v →
      Path (Adjustment.Made none) v last w' → Operated arrival w (first ++ taken ++ last) w'

/-- The second state comes from the first by the adjustments of an operation. -/
def Adjusted (arrival : Option (Bytes × PacketPath × Time)) (w w' : World) : Prop :=
  ∃ changes, Operated arrival w changes w'

theorem Metered.adjusted {arrival : Option (Bytes × PacketPath × Time)} {w w' : World} (metered : Metered none w w') :
    Adjusted arrival w w' := metered.imp fun _ => .apart

theorem Adjusted.then {arrival : Option (Bytes × PacketPath × Time)} {w v w' : World} (adjusted : Adjusted arrival w v)
    (metered : Metered none v w') : Adjusted arrival w w' := by
  obtain ⟨_, operated⟩ := adjusted
  obtain ⟨more, later⟩ := metered
  cases operated with
  | apart path => exact ⟨_, .apart (path.append later)⟩
  | received arrived enters first taken last => exact ⟨_, .received arrived enters first taken (last.append later)⟩

theorem receiveFrom_adjusted (datagram : Bytes) (sender : PacketPath) (now : Time) :
    Respects (Adjusted (some (datagram, sender, now))) (receiveFrom datagram sender now) := by
  intro w
  have head : Metered none w { w with session := w.session.expireHandshakeRead now } :=
    (metered_of_quiet (expireHandshakeRead_quiet now) w).final
  unfold receiveFrom
  rw [ends_bind, ends_modifySession, ends_session]
  split
  · exact ends_pure.mpr head.adjusted
  rename_i accepts
  split
  · exact ends_pure.mpr head.adjusted
  rename_i records hasCID parsed
  have plain : ∀ r ∈ records, r.encrypted = false → r.number.epoch = 0 := parseDatagram_plain parsed
  set expired := w.session.expireHandshakeRead now
  set u : World := { w with session :=
    if expired.handshake.complete = false ∧ records ≠ [] then { expired with handshakeReceived := now } else expired }
  have enters : entered datagram sender now w = some (records, hasCID, u) := by
    unfold entered
    dsimp only
    rw [if_neg accepts, parsed]
    rfl
  have marked : Metered none w u := by
    refine head.trans (World.Calm.metered ?_)
    show u.sizing = _
    dsimp only [u]
    split <;> rfl
  have marks : Ends (runIf (expired.handshake.complete = false ∧ records ≠ [])
      (modifySession fun s => { s with handshakeReceived := now })) { w with session := expired }
      (fun _ w' => w' = u) (fun _ _ => False) := by
    rw [ends_runIf]
    exact ⟨fun holds => by rw [ends_modifySession]; simp only [u, if_pos holds],
      fun fails => by simp only [u, if_neg fails]⟩
  rw [ends_bind]
  refine marks.mono (fun _ w' same => ?_) (fun _ _ => False.elim)
  subst same
  have adjusted : ∀ v, (∃ changes, TakenIn hasCID sender now records u changes v) →
      Adjusted (some (datagram, sender, now)) w v := by
    rintro v ⟨changes, taken⟩
    obtain ⟨first, path⟩ := marked
    exact ⟨_, .received rfl enters path taken (.nil v)⟩
  rw [ends_bind]
  refine (receiveRecords_takenIn plain).mono (fun _ v taken => ?_) fun _ v taken => adjusted v taken
  rw [ends_bind]
  exact (upkeep_metered.finishReceive now v).mono (fun _ _ finished => ends_pure.mpr ((adjusted v taken).then finished))
    (fun _ _ finished => (adjusted v taken).then finished)

private theorem receivePacket_adjusted (datagram : Bytes) (sender : PacketPath) (now : Time) :
    Respects (Adjusted (some (datagram, sender, now))) (receivePacket datagram sender now) := by
  intro w
  unfold receivePacket
  rw [ends_bind, ends_attempt]
  refine (receiveFrom_adjusted datagram sender now w).mono (fun _ _ adjusted => ends_pure.mpr adjusted)
    fun e v adjusted => ?_
  rw [ends_bind]
  exact (metered_of_quiet (alertError_quiet false e) v).mono (fun _ _ sent => ends_throw.mpr (adjusted.then sent))
    (fun _ _ sent => adjusted.then sent)

/-! ## Operations -/

private theorem drive_metered {event : Event} (apart : (Operation.event event).arrival = none) :
    Respects (Metered intake) (drive event) := by
  cases event with
  | start messages now =>
    exact respects_session fun _ => respects_runIf (startFlight_metered _ now)
  | process now =>
    refine respects_bind (respects_attempt (processHandshakes_metered now)) fun outcome => ?_
    split
    · exact respects_pure _
    · exact respects_bind (metered_of_quiet (alertError_quiet true _)) fun _ => respects_throw _
  | receive datagram sender now => cases apart
  | _ => exact upkeep_metered.drive rfl

private theorem operate_metered {operation : Operation} (apart : operation.arrival = none) :
    Respects (Metered intake) (operate operation) := by
  cases operation with
  | event event => exact drive_metered apart
  | installKeys => exact metered_of_quiet installKeys_quiet
  | startFlight messages now =>
    exact respects_session fun _ => respects_runIf (startFlight_metered _ now)
  | transmit slot now => exact transmit_metered slot now
  | retransmitExpired slot now => exact repeats_metered.retransmitExpired slot now
  | sendACK => exact metered_of_quiet sendACK_quiet
  | sendScheduledACK now => exact metered_of_quiet (acknowledges_quiet.sendScheduledACK now)
  | application body => exact upkeep_metered.application body
  | alert epoch body =>
    exact respects_bind (metered_of_quiet (sendRecord_quiet (by decide) _ _)) fun _ => respects_pure _
  | challenge now => exact metered_of_quiet (routes_quiet.challenge now)
  | sendMessage dest typ cookie credit => exact metered_of_quiet (routes_quiet.sendMessage dest typ cookie credit)
  | sendMTUProbe datagramSize now kind => exact metered_of_quiet (routes_quiet.sendMTUProbe datagramSize now kind)
  | advancePost now => exact upkeep_metered.advancePost now
  | provideCIDs count immediate now => exact upkeep_metered.provideCIDs count immediate now
  | discardHandshakeRead => exact metered_of_calm fun _ => rfl
  | receiveFrom datagram sender now => cases apart

theorem operate_adjusted (operation : Operation) : Respects (Adjusted operation.arrival) (operate operation) := by
  cases arrived : operation.arrival with
  | none => exact (operate_metered arrived).weaken fun _ _ => Metered.adjusted
  | some arrival =>
    unfold Operation.arrival at arrived
    split at arrived
    · cases arrived
      exact receivePacket_adjusted _ _ _
    · cases arrived
      intro w
      rw [operate, ends_bind]
      exact (receiveFrom_adjusted _ _ _ w).imp fun _ _ adjusted => ends_pure.mpr adjusted
    · cases arrived

end Socat.Dtls13
