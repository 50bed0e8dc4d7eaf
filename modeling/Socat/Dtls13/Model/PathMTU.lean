import Socat.Dtls13.Model.State

/-! # Timers and path MTU

The retransmission and path-challenge timers derive from one round-trip estimate. The working MTU
shrinks when the transport refuses a packet or a flight stays unanswered, and grows only through
acknowledged probes: discovery first confirms the working size, then searches the interval below
the ceiling, then watches. Everything here is a function on the session; sending a probe is left
to the path layer.
-/

namespace Socat.Dtls13

def initialPathChallenge : Duration := initialRetransmit
def minPathChallenge : Duration := initialRetransmit / 10
def minPathMTU : ℕ := 256
def maxMTUReductions : ℕ := 8
def defaultPLPMTU : ℕ := 1200
def probeTimeout : Duration := 16 * initialRetransmit
def probePace : Duration := initialRetransmit
def raiseTimer : Duration := 600 * initialRetransmit
def confirmTimer : Duration := 10 * initialRetransmit
def maxMTUDiff : ℤ := 20
def maxLostMTUProbes : ℕ := 3
def maxSearchProbes : ℕ := 24
def maxConfirmFails : ℕ := 3
def invalidProbeSize : ℤ := -1
def rrcCookieLen : ℕ := 8
def rrcMessageLen : ℕ := 1 + rrcCookieLen
def defaultAEADTag : ℕ := 16

def clampDuration (d lo hi : Duration) : Duration := if d < lo then lo else if hi < d then hi else d

def datagramOverhead (cidLen aeadTag : ℕ) : ℕ :=
  1 + cidLen + unifiedSeqLen + unifiedLengthLen + 1 + aeadTag

def rrcProbeOverhead (cidLen aeadTag : ℕ) : ℕ := datagramOverhead cidLen aeadTag + rrcMessageLen

def rrcProbePadding (datagramSize cidLen aeadTag : ℕ) : Except Err ℕ :=
  let overhead := rrcProbeOverhead cidLen aeadTag
  if datagramSize < overhead then .error .probeSize
  else
    let pad := datagramSize - overhead
    if maxContent < rrcMessageLen + pad then .error .recordOverflow
    else if maxCiphertext < rrcMessageLen + 1 + pad + aeadTag then .error .recordOverflow
    else .ok pad

/-! ## The interval search -/

namespace MTUFinder

def init (start ceiling : ℤ) : MTUFinder :=
  let start := max start 1
  { floor := start, lost := [max ceiling start, invalidProbeSize, invalidProbeSize] }

/-- The last used slot of `lost`, or the floor when none is used. -/
def ceiling (f : MTUFinder) : ℤ :=
  ((f.lost.takeWhile (· ≠ invalidProbeSize)).getLast?).getD f.floor

def done (f : MTUFinder) : Bool :=
  decide (f.ceiling - f.floor ≤ maxMTUDiff + 1) || decide (maxSearchProbes ≤ f.probes)

def nextSize (f : MTUFinder) : ℤ :=
  if f.done then 0
  else
    let size := if f.lastProbeWasLost then (f.floor + f.lost.headD 0) / 2 else (f.floor + f.ceiling) / 2
    let size := if size ≤ f.floor then f.floor + 1 else size
    let size := if f.ceiling ≤ size ∧ f.floor < f.ceiling then f.ceiling - 1 else size
    if size ≤ f.floor ∨ f.ceiling < size then 0 else size

def onAcked (f : MTUFinder) (size : ℤ) : MTUFinder :=
  let shift := (f.lost.findIdx? fun v => decide (size < v)).getD 0
  { f with
    inFlight := 0
    floor := max f.floor size
    lastProbeWasLost := false
    lost := f.lost.drop shift ++ List.replicate shift invalidProbeSize }

def onLost (f : MTUFinder) (size : ℤ) : MTUFinder :=
  { f with
    lastProbeWasLost := true
    inFlight := 0
    lost := match f.lost.findIdx? fun v => decide (size < v) with
      | none => f.lost
      | some i => (f.lost.insertIdx i size).take maxLostMTUProbes }

def rejectHard (f : MTUFinder) (size : ℤ) : MTUFinder := ((f.onLost size).onLost size).onLost size

end MTUFinder

namespace Session

/-! ## Timers -/

def retransmitTimer (s : Session) : Duration :=
  if s.rtt = 0 then initialRetransmit
  else clampDuration (s.rtt + s.rtt / 2) minRetransmit maximumRetransmit

theorem retransmitTimer_pos (s : Session) : 0 < s.retransmitTimer := by
  have floor : 0 < minRetransmit := by decide
  unfold retransmitTimer clampDuration
  split
  · decide
  · split
    · exact floor
    · rename_i above
      split
      · decide
      · exact lt_of_lt_of_le floor (not_lt.mp above)

def ackDelay (s : Session) : Duration := s.retransmitTimer / 4

def pathChallengeTimer (s : Session) : Duration :=
  if s.rtt = 0 then initialPathChallenge else max (3 * s.rtt) minPathChallenge

/-! ## The working MTU -/

def mtuCeiling (s : Session) : ℕ := (s.handshake.config.map Config.MTU).getD defaultPLPMTU

def effectiveMTU (s : Session) : ℕ :=
  if 0 < s.working.pathMTU then min s.working.pathMTU s.mtuCeiling else s.mtuCeiling

/-- The size a reduction goes to, before the floor is applied. -/
def reducedMTU (current tooBig : ℕ) : ℕ :=
  if minPathMTU < tooBig then min (current / 2) (tooBig - 1) else current / 2

def reduceHandshakeMTU (s : Session) (tooBig : ℕ) : Bool × Session :=
  let current := s.effectiveMTU
  if current ≤ minPathMTU ∨ maxMTUReductions ≤ s.working.reductions then (false, s)
  else
    let next := max (reducedMTU current tooBig) minPathMTU
    if current ≤ next then (false, s)
    else (true, { s with working.pathMTU := next, working.reductions := s.working.reductions + 1 })

def setWorkingMTU (s : Session) (n : ℕ) : Session :=
  if n = 0 then s
  else
    let n := max (min n s.mtuCeiling) minPathMTU
    if n ≤ s.effectiveMTU then s else { s with working.pathMTU := n, working.reductions := 0 }

/-! ## Discovery -/

def recordTagLen (s : Session) : ℕ :=
  match s.epochs.write.lookup s.currentWriteEpoch with
  | some ⟨some _, _⟩ => aeadOverhead
  | _ => defaultAEADTag

def probeCID (s : Session) : Bytes := if s.handshake.cidNegotiated then s.handshake.peerCID else []

def handshakeAcknowledged (s : Session) : Bool := s.handshake.complete && !s.flightPending

def mtuDiscoveryEnabled (s : Session) : Bool :=
  s.working.canProbe && s.handshakeAcknowledged &&
    s.handshake.config.any Config.unfragmentedProbes && s.handshake.rrc &&
    s.handshake.cidNegotiated && s.path.isSome

def mtuProbeMin (s : Session) : ℕ := rrcProbeOverhead s.probeCID.length s.recordTagLen

def mtuProbeCeiling (s : Session) : ℕ :=
  min s.mtuCeiling (rrcProbeOverhead s.probeCID.length s.recordTagLen + (maxContent - rrcMessageLen))

def restartMTUConfirm (s : Session) : Session :=
  let enabled := s.mtuDiscoveryEnabled
  { s with mtu :=
    { generation := s.mtu.generation + 1
      phase := if enabled then .confirm else .disabled
      appSinceProbe := s.mtu.appSinceProbe
      searchAfterConfirm := enabled } }

def noteMTUActivity (s : Session) : Session := { s with mtu.appSinceProbe := true }

def onApplicationTooBig (s : Session) : Session :=
  let s := (s.reduceHandshakeMTU s.working.lastSendSize).2
  if s.mtuDiscoveryEnabled then s.restartMTUConfirm else s

def scheduleMTUWatch (s : Session) (now : Time) : Session :=
  { s with
    mtu.phase := .watch
    mtu.raiseAt := if s.mtu.raiseAt = 0 ∨ s.mtu.raiseAt ≤ now then now + raiseTimer else s.mtu.raiseAt
    mtu.confirmAt := now + confirmTimer
    mtu.nextProbe := 0 }

def beginMTUSearch (s : Session) (now : Time) : Session :=
  let s := { s with
    mtu.raiseAt := 0
    mtu.finder := MTUFinder.init s.effectiveMTU s.mtuProbeCeiling }
  if s.mtu.finder.done then s.scheduleMTUWatch now else { s with mtu.phase := .search }

def onMTUProbeAcked (s : Session) (probe : MTUProbe) (now : Time) : Session :=
  let s := { s with mtu.nextProbe := now + probePace }
  match probe.kind with
  | .confirm =>
    let s := { s with mtu.confirmFails := 0 }
    let s := if s.effectiveMTU < probe.size then s.setWorkingMTU probe.size else s
    if s.mtu.searchAfterConfirm then s.beginMTUSearch now else s.scheduleMTUWatch now
  | .search =>
    let s := { s with mtu.finder := s.mtu.finder.onAcked probe.size }
    let s := if s.effectiveMTU < probe.size then s.setWorkingMTU probe.size else s
    if s.mtu.finder.done then s.scheduleMTUWatch now else s

def onMTUProbeLost (s : Session) (probe : MTUProbe) (now : Time) (hard : Bool) : Session :=
  let s := { s with mtu.nextProbe := now + probePace }
  match probe.kind with
  | .confirm =>
    let fails := if hard then maxConfirmFails else s.mtu.confirmFails + 1
    if fails < maxConfirmFails then { s with mtu.confirmFails := fails }
    else
      match ({ s with mtu.confirmFails := 0 } : Session).reduceHandshakeMTU probe.size with
      | (false, s) => s.scheduleMTUWatch now
      | (true, s) => { s with mtu.searchAfterConfirm := true, mtu.phase := .confirm }
  | .search =>
    let s := { s with mtu.finder := s.mtu.finder.onLost probe.size }
    if s.mtu.finder.done then s.scheduleMTUWatch now else s

/-- `receiveMTUProbe`: a response or drop for the outstanding probe settles it. -/
def receiveMTUProbe (s : Session) (sender : PacketPath) (body : Bytes) (now : Time) : Session :=
  match s.mtu.outstanding, body with
  | some probe, kind :: cookie =>
    if cookie.length ≠ rrcCookieLen ∨ s.probing ∨ s.keyUpdate.localPending ∨ s.keyUpdate.updating ∨
        (kind ≠ 1 ∧ kind ≠ 2) ∨ probe.generation ≠ s.mtu.generation ∨ cookie ≠ probe.cookie ∨
        sender ≠ probe.path ∨ probe.deadline ≤ now then s
    else
      let s := { s with mtu.outstanding := none }
      if kind = 2 then s.onMTUProbeLost probe now false else s.onMTUProbeAcked probe now
  | _, _ => s

end Session

end Socat.Dtls13
