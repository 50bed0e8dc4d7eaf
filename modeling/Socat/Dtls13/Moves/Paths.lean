import Socat.Dtls13.Moves.Advance

/-! # Path validation and MTU probes as moves

Path MTU discovery touches its own part of the session only. Path validation works on the paths, the
connection IDs and the outstanding probe, and its messages are numbered and sent like other records.
-/

namespace Socat.Dtls13

open Machine Session

/-! ## Path MTU discovery -/

variable {sender : PacketPath} {size : ℕ} {w : World} {s : Session}

namespace Session

/-- Nothing but path MTU state changed. -/
def MTUOnly (s s' : Session) : Prop := { s with working := s'.working, mtu := s'.mtu } = s'

namespace MTUOnly

variable {s s' : Session}

theorem trans {s'' : Session} (first : MTUOnly s s') (second : MTUOnly s' s'') : MTUOnly s s'' := by
  unfold MTUOnly at *
  rw [← second, ← first]

/-- A change of the discovery state before further changes. -/
theorem mtu {m : MTUDiscovery} (only : MTUOnly { s with mtu := m } s') : MTUOnly s s' := only

end MTUOnly

/-- Nothing but the state of the discovery changed. -/
def DiscoveryOnly (s s' : Session) : Prop := { s with mtu := s'.mtu } = s'

theorem DiscoveryOnly.mtuOnly {s s' : Session} (only : DiscoveryOnly s s') : MTUOnly s s' := by
  rw [← only]
  rfl

variable {s : Session} {now : Time}

theorem discoveryOnly_beginMTUSearch {m : MTUDiscovery} :
    DiscoveryOnly s (({ s with mtu := m } : Session).beginMTUSearch now) := by
  unfold beginMTUSearch
  dsimp only
  split <;> rfl

theorem mtuOnly_ite {c : Prop} [Decidable c] {a b : Session} (yes : MTUOnly s a) (no : MTUOnly s b) :
    MTUOnly s (if c then a else b) := by
  split
  · exact yes
  · exact no

theorem mtuOnly_scheduleMTUWatch : MTUOnly s (s.scheduleMTUWatch now) := rfl

private theorem mtuOnly_restartMTUConfirm : MTUOnly s s.restartMTUConfirm := rfl

theorem mtuOnly_noteMTUActivity : MTUOnly s s.noteMTUActivity := rfl

/-- A reduction lowers the working MTU, not below the smallest, and is counted. -/
theorem reduceHandshakeMTU_lowers {reduced : Session} {tooBig : ℕ}
    (done : s.reduceHandshakeMTU tooBig = (true, reduced)) :
    minPathMTU ≤ reduced.effectiveMTU ∧ reduced.effectiveMTU < s.effectiveMTU ∧
      s.working.reductions < maxMTUReductions ∧ reduced = { s with
        working.pathMTU := reduced.effectiveMTU
        working.reductions := s.working.reductions + 1 } := by
  have smallest : minPathMTU = 256 := rfl
  have ceiling : s.effectiveMTU ≤ s.mtuCeiling := by
    unfold effectiveMTU
    split_ifs
    · exact min_le_right _ _
    · exact le_refl _
  unfold reduceHandshakeMTU at done
  dsimp only at done
  split at done
  · cases done
  rename_i allowed
  split at done
  · cases done
  rename_i smaller
  cases done
  rw [not_or, not_le, not_le] at allowed
  rw [not_le] at smaller
  set next := max (reducedMTU s.effectiveMTU tooBig) minPathMTU
  have floor : minPathMTU ≤ next := le_max_right _ _
  have effective :
      ({ s with working.pathMTU := next, working.reductions := s.working.reductions + 1 } : Session).effectiveMTU =
      next := by
    show (if 0 < next then min next s.mtuCeiling else s.mtuCeiling) = next
    rw [if_pos (by omega), min_eq_left (by omega)]
  rw [effective]
  exact ⟨floor, smaller, allowed.2, rfl⟩

theorem mtuOnly_reduceHandshakeMTU {tooBig : ℕ} : MTUOnly s (s.reduceHandshakeMTU tooBig).2 := by
  unfold reduceHandshakeMTU
  dsimp only
  split
  · rfl
  · split <;> rfl

private theorem mtuOnly_setWorkingMTU {n : ℕ} : MTUOnly s (s.setWorkingMTU n) := by
  unfold setWorkingMTU
  exact mtuOnly_ite rfl (mtuOnly_ite rfl rfl)

theorem mtuOnly_onApplicationTooBig : MTUOnly s s.onApplicationTooBig := by
  unfold onApplicationTooBig
  exact mtuOnly_ite (mtuOnly_reduceHandshakeMTU.trans mtuOnly_restartMTUConfirm) mtuOnly_reduceHandshakeMTU

theorem mtuOnly_beginMTUSearch : MTUOnly s (s.beginMTUSearch now) :=
  (discoveryOnly_beginMTUSearch (m := s.mtu)).mtuOnly

private theorem mtuOnly_onMTUProbeAcked {probe : MTUProbe} : MTUOnly s (s.onMTUProbeAcked probe now) := by
  have raised : ∀ t : Session, MTUOnly t (if t.effectiveMTU < probe.size then t.setWorkingMTU probe.size else t) :=
    fun t => mtuOnly_ite mtuOnly_setWorkingMTU rfl
  unfold onMTUProbeAcked
  dsimp only
  split
  · exact mtuOnly_ite (.mtu ((raised _).trans mtuOnly_beginMTUSearch))
      (.mtu ((raised _).trans mtuOnly_scheduleMTUWatch))
  · exact mtuOnly_ite (.mtu ((raised _).trans mtuOnly_scheduleMTUWatch)) (.mtu (raised _))

theorem mtuOnly_onMTUProbeLost {probe : MTUProbe} {hard : Bool} : MTUOnly s (s.onMTUProbeLost probe now hard) := by
  unfold onMTUProbeLost
  dsimp only
  split
  · refine mtuOnly_ite rfl ?_
    have reduced := @mtuOnly_reduceHandshakeMTU
      { s with mtu.nextProbe := now + probePace, mtu.confirmFails := 0 } probe.size
    split
    · rename_i t shrunk
      rw [shrunk] at reduced
      exact .mtu (reduced.trans mtuOnly_scheduleMTUWatch)
    · rename_i t shrunk
      rw [shrunk] at reduced
      exact .mtu (reduced.trans rfl)
  · exact mtuOnly_ite rfl rfl

theorem mtuOnly_receiveMTUProbe {body : Bytes} : MTUOnly s (s.receiveMTUProbe sender body now) := by
  unfold receiveMTUProbe
  split
  · refine mtuOnly_ite rfl (mtuOnly_ite ?_ ?_)
    · exact .mtu mtuOnly_onMTUProbeLost
    · exact .mtu mtuOnly_onMTUProbeAcked
  · rfl

theorem mtuOnly_expireMTUProbe : MTUOnly s (s.expireMTUProbe now) := by
  unfold expireMTUProbe
  split
  · exact mtuOnly_ite (.mtu mtuOnly_onMTUProbeLost) rfl
  · rfl

theorem mtuOnly_probeRefused {kind : MTUProbeKind} {e : Err} : MTUOnly s (s.probeRefused size now kind e) := by
  unfold probeRefused
  refine mtuOnly_ite ?_ (mtuOnly_ite rfl rfl)
  split
  · exact mtuOnly_ite rfl rfl
  · exact mtuOnly_onMTUProbeLost

end Session

private theorem endpoint_mtuOnly (only : w.session.MTUOnly s) :
    ({ w with session := s } : World).endpoint = w.endpoint := by
  rw [← only]
  rfl

variable [Crypto]

/-! ## MTU probes -/

/-- The parts of path MTU discovery respect a relation. -/
structure Discovers (R : World → World → Prop) : Prop where
  change : ∀ {change : Session → Session}, (∀ s, DiscoveryOnly s (change s)) → Respects R (modifySession change)
  probe : ∀ size now kind, Respects R (sendMTUProbe size now kind)
  refuse : ∀ size now kind e, Respects R (modifySession fun s => s.probeRefused size now kind e)
  expire : ∀ now, Respects R (modifySession fun s => s.expireMTUProbe now)

namespace Discovers

variable {R : World → World → Prop} [IsTrans World R] (discovers : Discovers R)
include discovers

theorem sendDiscoveryProbe (size : ℕ) (now : Time) (kind : MTUProbeKind) :
    Respects R (sendDiscoveryProbe size now kind) := by
  refine respects_session fun s => respects_ite (discovers.change fun _ => rfl) <|
    respects_bind (respects_attempt (discovers.probe _ now kind)) fun outcome => ?_
  split
  · exact discovers.change fun _ => rfl
  · exact discovers.refuse _ now kind _

theorem searchMTU (now : Time) : Respects R (searchMTU now) :=
  respects_session fun _ => respects_ite (discovers.change fun _ => rfl) (discovers.sendDiscoveryProbe _ now _)

variable [Std.Refl R]

private theorem watchMTU (now : Time) : Respects R (watchMTU now) := by
  refine respects_session fun s =>
    respects_ite (respects_pure _) (respects_ite ?_ (respects_ite ?_ (respects_pure _)))
  · exact respects_bind (discovers.change fun _ => discoveryOnly_beginMTUSearch) fun _ =>
      respects_session fun _ => respects_runIf (discovers.searchMTU now)
  · exact respects_bind (discovers.change fun _ => rfl) fun _ =>
      respects_session fun _ => discovers.sendDiscoveryProbe _ now _

theorem tickMTUProbe (now : Time) : Respects R (tickMTUProbe now) := by
  refine respects_bind (discovers.expire now) fun _ =>
    respects_session fun s => respects_ite (respects_pure _) <|
      respects_ite (discovers.change fun _ => rfl) <|
        respects_bind (respects_runIf (discovers.change fun _ => rfl)) fun _ =>
          respects_session fun s => respects_ite (respects_pure _) ?_
  split
  · exact respects_pure _
  · exact discovers.sendDiscoveryProbe _ now _
  · exact discovers.searchMTU now
  · exact discovers.watchMTU now

end Discovers

/-! ## Path validation -/

/-- Nothing but paths, connection IDs and the state of the discovery changed. -/
def Session.RoutingOnly (s s' : Session) : Prop :=
  { s with path := s'.path, cid := s'.cid, mtu := s'.mtu, handshake.peerCID := s'.handshake.peerCID } = s'

/-- Nothing but the logs of path validation changed. -/
def History.RoutingOnly (h h' : History) : Prop :=
  { h with challenges := h'.challenges, pathSent := h'.pathSent, pathReceived := h'.pathReceived } = h'

/-- The parts of path validation respect a relation. None of its records is one of the handshake. -/
structure Routes (R : World → World → Prop) : Prop where
  change : ∀ {change : Session → Session}, (∀ s : Session, s.RoutingOnly (change s)) → Respects R (modifySession change)
  note : ∀ {change : History → History}, (∀ h : History, h.RoutingOnly (change h)) → Respects R (note change)
  random : ∀ n, Respects R (randRead n)
  transport : ∀ {p : Packet}, p.typ ≠ contentHandshake → Respects R (transport p)
  send : ∀ {epoch : ℕ} {typ : UInt8} {body cid : Bytes} {padding limit : ℕ} {send : Packet → SessionM Unit},
    (∀ p : Packet, p.typ = typ → Respects R (send p)) →
    Respects R (sendRecordLimited epoch typ body cid padding limit send)

namespace Routes

variable {R : World → World → Prop} (routes : Routes R)
include routes

theorem modifyPath (change : PathState → PathState) : Respects R (modifyPath change) :=
  routes.change fun _ => rfl

variable [Std.Refl R]

theorem notePathReceived (p : PathState) (sender : PacketPath) (size : ℕ) :
    Respects R (notePathReceived p sender size) :=
  respects_runIf (routes.note fun _ => rfl)

variable [IsTrans World R]

private theorem pathSend (dest : PacketPath) (credit : ℕ) {packet : Packet} (other : packet.typ ≠ contentHandshake) :
    Respects R (pathSend dest credit packet) := by
  have carried : ∀ p, Respects R (transportTo p dest packet) := fun _ =>
    respects_bind (respects_runIf (routes.note fun _ => rfl)) fun _ => routes.transport other
  refine respects_session fun s => ?_
  split
  · exact respects_throw _
  refine respects_ite (carried _) ?_
  split
  · exact respects_ite (respects_pure _) (respects_bind (routes.modifyPath _) fun _ => carried _)
  · exact respects_ite (respects_pure _) (carried _)

theorem sendMessage (dest : PacketPath) (typ : UInt8) (cookie : Bytes) (credit : ℕ) :
    Respects R (sendMessage dest typ cookie credit) := by
  refine respects_session fun s => ?_
  split
  · exact respects_throw _
  · refine respects_bind (respects_session fun _ => routes.send fun p same => ?_) fun _ => respects_pure _
    exact routes.pathSend dest credit (same ▸ by decide)

theorem challenge (now : Time) : Respects R (challenge now) := by
  refine respects_session fun s => ?_
  split
  · exact respects_throw _
  split
  · exact respects_throw _
  · exact respects_bind (routes.random _) fun _ => respects_bind (routes.modifyPath _) fun _ =>
      respects_bind (routes.note fun _ => rfl) fun _ => routes.sendMessage _ _ _ _

theorem startBasic (now : Time) : Respects R (startBasic now) :=
  respects_session fun _ => respects_ite
    (respects_bind (routes.change fun _ => rfl) fun _ => routes.challenge now)
    (respects_throw _)

theorem observe (sender : PacketPath) (number : RecordNumber) (typ : UInt8) (size : ℕ) (now : Time) :
    Respects R (observe sender number typ size now) := by
  refine respects_session fun s => ?_
  split
  · exact respects_throw _
  refine respects_bind (respects_runIf (routes.notePathReceived _ _ _)) fun _ =>
    respects_bind (routes.modifyPath _) fun _ => respects_ite (respects_pure _) <|
      respects_ite (routes.modifyPath _) (respects_ite (respects_pure _) ?_)
  exact respects_bind (routes.modifyPath _) fun _ => routes.challenge now

private theorem settleProbe (kind : UInt8) (probe : PathProbe) (now : Time) : Respects R (settleProbe kind probe now) :=
  respects_ite (respects_ite (routes.startBasic now) (respects_pure _)) <|
    respects_ite (routes.change fun _ => rfl) (routes.modifyPath _)

theorem receivePath (sender : PacketPath) (body : Bytes) (size : ℕ) (now : Time) :
    Respects R (receivePath sender body size now) := by
  refine respects_session fun s => ?_
  split
  · exact respects_throw _
  · exact respects_throw _
  refine respects_bind (routes.notePathReceived _ _ _) fun _ => respects_ite (respects_pure _) <|
    respects_ite (respects_throw _) (respects_ite ?_ ?_)
  · exact respects_bind (routes.modifyPath _) fun _ => routes.sendMessage _ _ _ _
  split
  · exact respects_pure _
  · exact respects_ite (respects_pure _) (routes.settleProbe _ _ now)

theorem tickPath (now : Time) : Respects R (tickPath now) := by
  refine respects_session fun s => ?_
  split
  · exact respects_pure _
  split
  · exact respects_pure _
  · exact respects_ite (respects_pure _) (respects_ite (routes.startBasic now) (routes.modifyPath _))

theorem sendMTUProbe (datagramSize : ℕ) (now : Time) (kind : MTUProbeKind) :
    Respects R (sendMTUProbe datagramSize now kind) := by
  have sent : ∀ p : Packet, p.typ = contentRRC → Respects R (probeSend datagramSize p) := fun p same =>
    respects_guard fun _ => routes.transport (same ▸ by decide)
  refine respects_session fun s => respects_bind (respects_lift _) fun _ =>
    respects_guard fun _ => respects_bind (respects_lift _) fun _ =>
      respects_bind (routes.random _) fun _ => respects_bind (routes.change fun _ => rfl) fun _ =>
        respects_bind (respects_attempt (routes.send sent)) fun outcome => ?_
  split
  · exact respects_pure _
  · exact respects_bind (routes.change fun _ => rfl) fun _ => respects_throw _

end Routes

/-! ## As moves -/

theorem sends_mtuOnly {change : Session → Session} (only : ∀ s : Session, s.MTUOnly (change s)) :
    Respects sending.done (modifySession change) :=
  sends_modifySession fun w => endpoint_mtuOnly (only w.session)

/-- A record through any callback that sends nothing or sends on. -/
theorem sendRecordLimited_sends {epoch : ℕ} {typ : UInt8} {body cid : Bytes} {padding limit : ℕ}
    {send : Packet → SessionM Unit} (sends : ∀ p : Packet, p.typ = typ → Respects sending.done (send p)) :
    Respects sending.done (sendRecordLimited epoch typ body cid padding limit send) := fun _ =>
  sendRecordLimited_ends (fun _ => .refl) fun e _ found encoded =>
    (sends _ rfl).from (.single (SendMove.hand _ e ⟨found, rfl, rfl, encoded⟩))

theorem routes_sends : Routes sending.done where
  change only := sends_modifySession fun w => by
    rw [← only w.session]
    rfl
  note only := respects_modify fun w => by
    rw [← only w.history]
    exact .refl
  random _ _ := randRead_ends (fun _ _ _ => .refl) fun _ => .refl
  transport _ _ := transport_ends (fun _ => .refl) fun _ _ => .refl
  send := sendRecordLimited_sends

theorem tickMTUProbe_sends (now : Time) : Respects sending.done (tickMTUProbe now) :=
  Discovers.tickMTUProbe ⟨fun only => sends_mtuOnly fun s => (only s).mtuOnly, routes_sends.sendMTUProbe,
    fun _ _ _ _ => sends_mtuOnly fun _ => mtuOnly_probeRefused,
    fun _ => sends_mtuOnly fun _ => mtuOnly_expireMTUProbe⟩ now

end Socat.Dtls13
