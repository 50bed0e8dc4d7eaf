import Socat.Dtls13.Moves.Sending

/-! # Calls of the path state machine

`PathMove` says what the calls of the path state machine are made of, as changes of the path state, the
connection ID of the peer and the logs of challenges and of bytes exchanged with addresses that are
not validated. The one change of the peer's path, `Switches`, is kept apart.
-/

namespace Socat.Dtls13

open Machine Option PathState

/-! ## What path validation works on -/

structure PathView where
  path : Option PathState
  peerCID : Bytes
  challenges : List Challenge
  sent : List (AddrPort × ℕ)
  received : List (AddrPort × ℕ)

def World.pathView (w : World) : PathView where
  path := w.session.path
  peerCID := w.session.handshake.peerCID
  challenges := w.history.challenges
  sent := w.history.pathSent.map fun (dest, packet) => (dest, packet.bytes.length)
  received := w.history.pathReceived

/-- `supplied` tells whether randomness is there for every challenge; without it a candidate can be
left with the cookie of the old path's challenge. -/
inductive PathMove (supplied : Bool) (v : PathView) : PathView → Prop
  | see (p : PathState) (number : RecordNumber) (path : v.path = some p) :
      PathMove supplied v { v with path := some (p.see number) }
  | hear (sender : AddrPort) (size : ℕ) :
      PathMove supplied v { v with received := (sender, size) :: v.received }
  | grant (p : PathState) (probe : PathProbe) (size : ℕ) (path : v.path = some p)
      (probing : p.probe = some probe) :
      PathMove supplied v { v with
        path := some (p.grant probe.candidate size)
        received := (probe.candidate.remote, size) :: v.received }
  | answer (sender : AddrPort) (size spent : ℕ) (bound : spent ≤ 3 * size) :
      PathMove supplied v { v with
        sent := (sender, spent) :: v.sent
        received := (sender, size) :: v.received }
  | pay (p : PathState) (probe : PathProbe) (size : ℕ) (path : v.path = some p)
      (probing : p.probe = some probe) (affordable : size ≤ probe.credit) :
      PathMove supplied v { v with
        path := some (p.setProbe { probe with credit := probe.credit - size })
        sent := (probe.candidate.remote, size) :: v.sent }
  | start (p : PathState) (sender : PacketPath) (size : ℕ) (path : v.path = some p)
      (idle : p.probe = none) (allowed : p.allowed sender.remote = true)
      (elsewhere : sender.remote ≠ p.peer.remote) :
      PathMove supplied v { v with
        path := some (p.setProbe { candidate := sender, phase := .validateOld, credit := 3 * size })
        received := (sender.remote, size) :: v.received }
  | challengeOld (p : PathState) (probe : PathProbe) (cookie : Bytes) (deadline : Time)
      (path : v.path = some p) (probing : p.probe = some probe) (phase : probe.phase = .validateOld) :
      PathMove supplied v { v with
        path := some (p.setProbe { probe with cookie, deadline })
        challenges := ⟨p.peer, .validateOld, cookie, deadline⟩ :: v.challenges }
  | challengeCandidate (p : PathState) (probe : PathProbe) (cid cookie : Bytes) (deadline : Time)
      (path : v.path = some p) (probing : p.probe = some probe) :
      PathMove supplied v { v with
        path := some (p.setProbe { probe with phase := .validateCandidate, cid, cookie, deadline })
        challenges := ⟨probe.candidate, .validateCandidate, cookie, deadline⟩ :: v.challenges }
  | stall (p : PathState) (probe : PathProbe) (cid : Bytes) (path : v.path = some p)
      (probing : p.probe = some probe) (short : supplied = false) :
      PathMove supplied v { v with
        path := some (p.setProbe { probe with phase := .validateCandidate, cid }) }
  | rename (p : PathState) (probe : PathProbe) (cid : Bytes) (path : v.path = some p)
      (probing : p.probe = some probe) : PathMove supplied v { v with path := some (p.setProbe { probe with cid }) }
  | close (p : PathState) (path : v.path = some p) :
      PathMove supplied v { v with path := some { p with probe := none } }

abbrev PathMoves (supplied : Bool) : PathView → PathView → Prop :=
  Relation.ReflTransGen (PathMove supplied)

/-- The response `cookie` from the challenged candidate, before the deadline, makes it the peer. -/
inductive Switches (sender : PacketPath) (cookie : Bytes) (now : Time) (v : PathView) : PathView → Prop
  | switch (p : PathState) (probe : PathProbe) (log : List (AddrPort × ℕ)) (path : v.path = some p)
      (probing : p.probe = some probe) (phase : probe.phase = .validateCandidate)
      (candidate : sender = probe.candidate) (echoed : cookie = probe.cookie)
      (early : now < probe.deadline) :
      Switches sender cookie now v { v with
        path := some { p with peer := probe.candidate, probe := none }
        peerCID := probe.cid
        received := log ++ v.received }

/-- A probed address is not the peer's. -/
def PathState.Apart (p : PathState) : Prop :=
  ∀ probe, p.probe = some probe → probe.candidate.remote ≠ p.peer.remote

def PathView.Apart (v : PathView) : Prop := ∀ p, v.path = some p → p.Apart

/-! ## Messages -/

variable {w : World}

/-- What a path message costs. -/
inductive Pays (dest : PacketPath) (credit : ℕ) (v : PathView) : PathView → Prop
  | nothing : Pays dest credit v v
  | probe (p : PathState) (probe : PathProbe) (size : ℕ) (path : v.path = some p)
      (probing : p.probe = some probe) (candidate : dest = probe.candidate)
      (affordable : size ≤ probe.credit) :
      Pays dest credit v { v with
        path := some (p.setProbe { probe with credit := probe.credit - size })
        sent := (probe.candidate.remote, size) :: v.sent }
  | once (p : PathState) (size : ℕ) (path : v.path = some p)
      (elsewhere : dest.remote ≠ p.peer.remote) (affordable : size ≤ credit)
      (other : ∀ probe, p.probe = some probe → dest ≠ probe.candidate) :
      Pays dest credit v { v with sent := (dest.remote, size) :: v.sent }

/-- However the computation ends, the views are related. -/
abbrev Views {α : Type} (R : PathView → PathView → Prop) (v : PathView) (w : World) (x : SessionM α) : Prop :=
  Ends x w (fun _ w' => R v w'.pathView) (fun _ w' => R v w'.pathView)

private theorem pathSend_pays (dest : PacketPath) (credit : ℕ) (packet : Packet) :
    Views (Pays dest credit) w.pathView w (pathSend dest credit packet) := by
  have carried : ∀ {p : PathState} {w : World} {v : PathView}, Pays dest credit v
      (if dest.remote = p.peer.remote then w.pathView else { w.pathView with
        sent := (dest.remote, packet.bytes.length) :: w.pathView.sent }) →
      Views (Pays dest credit) v w (transportTo p dest packet) := by
    intro p w v paid
    rw [Views, transportTo, ends_bind, ends_runIf]
    refine ⟨fun elsewhere => ?_, fun peer => ?_⟩
    · rw [if_neg elsewhere] at paid
      exact transport_ends (fun _ => paid) (fun _ _ => paid)
    · rw [if_pos (not_not.mp peer)] at paid
      exact transport_ends (fun _ => paid) (fun _ _ => paid)
  rw [Views, pathSend, ends_session]
  split
  · exact ends_throw.mpr .nothing
  · next p present =>
    dsimp only
    split
    · rename_i peer
      exact carried (by rw [if_pos peer]; exact .nothing)
    · rename_i peer
      split
      · next probe found =>
        obtain ⟨probing, candidate⟩ := filter_eq_some_iff.mp found
        obtain rfl := of_decide_eq_true candidate
        split_ifs with short
        · exact ends_pure.mpr .nothing
        · rw [ends_bind, modifyPath, ends_modifySession]
          refine carried ?_
          rw [if_neg peer]
          have paid : Pays probe.candidate credit w.pathView _ :=
            .probe p probe packet.bytes.length present probing rfl (Nat.le_of_not_lt short)
          simpa only [World.pathView, present, map_some] using paid
      · next missing =>
        split_ifs with short
        · exact ends_pure.mpr .nothing
        · refine carried ?_
          rw [if_neg peer]
          refine Pays.once (v := w.pathView) p packet.bytes.length present peer (Nat.le_of_not_lt short)
            fun probe probing candidate => ?_
          rw [probing, filter_eq_none_iff] at missing
          exact absurd (decide_eq_true candidate) (missing probe rfl)

theorem sendMessage_pays [Crypto] (dest : PacketPath) (typ : UInt8) (cookie : Bytes) (credit : ℕ) :
    Views (Pays dest credit) w.pathView w (sendMessage dest typ cookie credit) := by
  rw [Views, sendMessage, ends_session]
  split
  · exact ends_throw.mpr .nothing
  · unfold sendRecordWith
    simp only [ends_bind, ends_getSession, ends_pure]
    exact sendRecordLimited_ends (fun _ => .nothing) fun _ _ _ _ => pathSend_pays dest credit _

/-! ## Challenges -/

variable {supplied : Bool} {v v' : PathView}

/-- What a call of `challenge` does. -/
inductive Challenges (supplied : Bool) (v : PathView) : PathView → Prop
  | idle (idle : ∀ p probe, v.path = some p → p.probe ≠ some probe) : Challenges supplied v v
  | short (short : supplied = false) : Challenges supplied v v
  | drawn (p : PathState) (probe : PathProbe) (cookie : Bytes) (deadline : Time) {v' : PathView}
      (path : v.path = some p) (probing : p.probe = some probe)
      (pays : Pays (p.challengedPath probe) 0 { v with
        path := some (p.setProbe { probe with cookie, deadline })
        challenges := ⟨p.challengedPath probe, probe.phase, cookie, deadline⟩ :: v.challenges } v') :
      Challenges supplied v v'

/-- Randomness is there for a challenge, if it is supposed to be. -/
abbrev World.Supplied (w : World) (supplied : Bool) : Prop := supplied = true → rrcCookieLen ≤ w.env.random.length

theorem challenge_ends [Crypto] (now : Time) (supply : w.Supplied supplied) :
    Views (Challenges supplied) w.pathView w (challenge now) := by
  rw [Views, challenge, ends_session]
  split
  · next absent =>
    refine ends_throw.mpr (.idle fun p probe present => ?_)
    exact absurd (absent.symm.trans present) (by simp)
  · next p present =>
    split
    · next absent =>
      refine ends_throw.mpr (.idle fun q probe listed => ?_)
      obtain rfl : p = q := Option.some.inj (present.symm.trans listed)
      simp [absent]
    · next probe probing =>
      rw [ends_bind]
      refine randRead_ends (fun cookie env _ => ?_) fun few => .short ?_
      · simp only [ends_bind, modifyPath, ends_modifySession, ends_note]
        have drawn : ∀ w' : World, Pays _ 0 _ w'.pathView → Challenges supplied w.pathView w'.pathView :=
          fun w' => .drawn p probe cookie (probe.challenged cookie w.session.pathChallengeTimer now).deadline
            present probing
        refine (sendMessage_pays _ _ _ _).mono (fun _ w' pays => drawn w' ?_) (fun _ w' pays => drawn w' ?_) <;>
        · simp only [World.pathView, present, map_some] at pays ⊢
          exact pays
      · cases supplied with
        | false => rfl
        | true => exact absurd (supply rfl) (Nat.not_le.mpr few)

variable {p : PathState} {sender : PacketPath} {size : ℕ}

/-- A challenge to the peer is free, one to the candidate is paid for by the probe. -/
theorem Pays.moves {dest : PacketPath} {probe : PathProbe} (pays : Pays dest 0 v v')
    (path : v.path = some p) (probing : p.probe = some probe)
    (target : dest.remote = p.peer.remote ∨ dest = probe.candidate) : PathMoves supplied v v' := by
  cases pays with
  | nothing => exact .refl
  | probe q other size present current candidate affordable =>
    exact .single (.pay q other size present current affordable)
  | once q size present elsewhere affordable other =>
    obtain rfl : p = q := Option.some.inj (path.symm.trans present)
    rcases target with peer | candidate
    · exact absurd peer elsewhere
    · exact absurd candidate (other probe probing)

theorem Challenges.moves (challenges : Challenges supplied v v') : PathMoves supplied v v' := by
  cases challenges with
  | idle | short => exact .refl
  | drawn p probe cookie deadline path probing pays =>
    obtain ⟨candidate, phase, _, _, credit, cid⟩ := probe
    cases phase with
    | validateOld =>
      exact .head (.challengeOld p _ cookie deadline path probing rfl) (pays.moves rfl rfl (.inl rfl))
    | validateCandidate =>
      exact .head (.challengeCandidate p _ cid cookie deadline path probing) (pays.moves rfl rfl (.inr rfl))

/-- The candidate path is challenged under a connection ID of its own. -/
theorem startBasic_moves [Crypto] (now : Time) (supply : w.Supplied supplied) :
    Views (PathMoves supplied) w.pathView w (startBasic now) := by
  rw [Views, startBasic, ends_session]
  split_ifs with probing
  · obtain ⟨p, present, held⟩ := (any_eq_true _ _).mp probing
    obtain ⟨probe, current⟩ := isSome_iff_exists.mp held
    rw [ends_bind, ends_modifySession]
    have turned : ({ w with session := w.session.beginCandidate } : World).pathView = { w.pathView with
        path := some (p.setProbe { probe with
          phase := .validateCandidate
          cid := w.session.cid.peerSpare.headD w.session.handshake.peerCID }) } := by
      simp only [World.pathView, Session.beginCandidate, present, map_some, current, setProbe]
    have reached : ∀ {v' : PathView},
        Challenges supplied ({ w with session := w.session.beginCandidate } : World).pathView v' →
        PathMoves supplied w.pathView v' := by
      intro v' challenges
      rw [turned] at challenges
      cases challenges with
      | idle idle => exact absurd rfl (idle _ _ rfl)
      | short short => exact .single (.stall p probe _ present current short)
      | drawn q other cookie deadline path chosen pays =>
        obtain rfl := Option.some.inj path
        obtain rfl := Option.some.inj chosen
        exact .head (.challengeCandidate p probe _ cookie deadline present current)
          (pays.moves rfl rfl (.inr rfl))
    exact (challenge_ends (w := { w with session := w.session.beginCandidate }) now supply).mono
      (fun _ _ => reached) (fun _ _ => reached)
  · exact ends_throw.mpr .refl

/-! ## Calls -/

@[simp] theorem PathState.see_probe (p : PathState) (number : RecordNumber) : (p.see number).probe = p.probe := by
  unfold see
  split <;> rfl

@[simp] theorem PathState.see_peer (p : PathState) (number : RecordNumber) : (p.see number).peer = p.peer := by
  unfold see
  split <;> rfl

@[simp] theorem PathState.see_allowed (p : PathState) (number : RecordNumber) (address : AddrPort) :
    (p.see number).allowed address = p.allowed address := by
  unfold see
  split <;> rfl

theorem PathState.grant_of_ne (other : ∀ probe, p.probe = some probe → sender ≠ probe.candidate) :
    p.grant sender size = p := by
  obtain ⟨peer, probe, highest, seen, allowPeer⟩ := p
  cases probe with
  | none => rfl
  | some probe => simp [grant, other probe rfl]

theorem tickPath_moves [Crypto] (now : Time) (supply : w.Supplied supplied) :
    Views (PathMoves supplied) w.pathView w (tickPath now) := by
  rw [Views, tickPath, ends_session]
  split
  · exact ends_pure.mpr .refl
  · next p present =>
    split
    · exact ends_pure.mpr .refl
    · split_ifs
      · exact ends_pure.mpr .refl
      · exact startBasic_moves now supply
      · refine ends_modifySession.mpr (.single ?_)
        have move : PathMove supplied w.pathView _ := .close p present
        simpa only [World.pathView, present, map_some] using move

theorem observe_moves [Crypto] (sender : PacketPath) (number : RecordNumber) (typ : UInt8) (size : ℕ) (now : Time)
    (supply : w.Supplied supplied) :
    Views (PathMoves supplied) w.pathView w (observe sender number typ size now) := by
  rw [Views, observe, ends_session]
  split
  · exact ends_throw.mpr .refl
  · next p present =>
    have seen : PathMove supplied w.pathView { w.pathView with path := some (p.see number) } :=
      .see p number present
    simp only [ends_bind, ends_runIf, notePathReceived, modifyPath, ends_note, ends_modifySession]
    refine ⟨fun other => ⟨fun elsewhere => ?_, fun same => ?_⟩, fun rrc => ?_⟩
    · -- the record counts as received, whatever it leads to
      have heard : PathMoves supplied w.pathView { w.pathView with
          path := some (p.see number)
          received := (sender.remote, size) :: w.history.pathReceived } :=
        .tail (.single seen) (.hear sender.remote size)
      split_ifs with ignored probing stale
      · refine ends_pure.mpr ?_
        simpa only [World.pathView, present, map_some] using heard
      · refine ends_modifySession.mpr ?_
        simp only [World.pathView, present, map_some]
        obtain ⟨probe, current⟩ := isSome_iff_exists.mp probing
        have current' : (p.see number).probe = some probe := by rw [see_probe, current]
        by_cases candidate : sender = probe.candidate
        · subst candidate
          have granted : PathMove supplied { w.pathView with path := some (p.see number) } _ :=
            .grant (p.see number) probe size rfl current'
          exact .tail (.single (by simpa only [World.pathView, present] using seen)) granted
        · rw [grant_of_ne fun other listed => ?_]
          · simpa only [World.pathView, present] using heard
          · obtain rfl : probe = other := Option.some.inj (current'.symm.trans listed)
            exact candidate
      · refine ends_pure.mpr ?_
        simpa only [World.pathView, present, map_some] using heard
      · rw [ends_bind, ends_modifySession]
        simp only [not_or, Bool.not_eq_false] at stale
        have idle : (p.see number).probe = none := by simpa using probing
        have started : PathMove supplied { w.pathView with path := some (p.see number) } _ :=
          .start (p.see number) sender size rfl idle (by simpa using stale.2) (by simpa using elsewhere)
        refine (@challenge_ends _ supplied _ now ?_).mono (fun _ w' challenges => ?_)
          (fun _ w' challenges => ?_)
        · exact supply
        all_goals
          simp only [World.pathView, present, map_some] at challenges
          exact .head seen (.head started challenges.moves)
    · rw [if_pos (.inl (not_not.mp same))]
      refine ends_pure.mpr (.single ?_)
      simpa only [World.pathView, present, map_some] using seen
    · rw [if_pos (.inr (.inr (not_not.mp rrc)))]
      refine ends_pure.mpr (.single ?_)
      simpa only [World.pathView, present, map_some] using seen

/-- A challenge is answered out of the probe's credit if it comes from the candidate, and otherwise out
of what it brings itself. -/
theorem answered_moves (path : v.path = some p) (apart : v.Apart) (pays : Pays sender (3 * size) { v with
      path := some (p.grant sender size)
      received := if sender.remote ≠ p.peer.remote then (sender.remote, size) :: v.received else v.received } v') :
    PathMoves supplied v v' := by
  by_cases candidate : ∃ probe, p.probe = some probe ∧ sender = probe.candidate
  · obtain ⟨probe, probing, rfl⟩ := candidate
    have elsewhere := apart p path probe probing
    rw [if_pos elsewhere] at pays
    refine .head (.grant p probe size path probing) ?_
    cases pays with
    | nothing => exact .refl
    | probe q other spent present current same affordable =>
      obtain rfl := Option.some.inj present
      exact .single (.pay _ other spent rfl current affordable)
    | once q spent present _ affordable other =>
      obtain rfl := Option.some.inj present
      have granted : (p.grant probe.candidate size).probe =
          some { probe with credit := min maxCredit (probe.credit + 3 * size) } := by
        simp [grant, probing]
      exact (other _ granted rfl).elim
  · simp only [not_exists, not_and] at candidate
    rw [grant_of_ne candidate] at pays
    cases pays with
    | nothing =>
      rw [← path]
      split_ifs with elsewhere
      · exact .single (.hear sender.remote size)
      · exact .refl
    | probe q other spent present current same affordable =>
      obtain rfl := Option.some.inj present
      exact absurd same (candidate other current)
    | once q spent present elsewhere affordable other =>
      obtain rfl := Option.some.inj present
      rw [if_pos elsewhere, ← path]
      exact .single (.answer sender.remote size spent affordable)

/-- The log of received bytes after a record from `sender`. -/
def PathState.heard (p : PathState) (sender : PacketPath) (size : ℕ) (log : List (AddrPort × ℕ)) :
    List (AddrPort × ℕ) :=
  if sender.remote ≠ p.peer.remote then (sender.remote, size) :: log else log

private theorem ends_notePathReceived {Q : Unit → World → Prop} {E : Err → World → Prop} :
    Ends (notePathReceived p sender size) w Q E ↔
      Q () { w with history.pathReceived := p.heard sender size w.history.pathReceived } := by
  unfold notePathReceived heard
  rw [ends_runIf]
  by_cases elsewhere : sender.remote ≠ p.peer.remote
  · simp [elsewhere]
  · simp [not_not.mp elsewhere]

theorem Switches.of_heard {source : PacketPath} {cookie : Bytes} {now : Time}
    (switches : Switches sender cookie now { v with received := p.heard source size v.received } v') :
    Switches sender cookie now v v' := by
  obtain ⟨log, received⟩ : ∃ log, p.heard source size v.received = log ++ v.received := by
    unfold heard
    split_ifs
    · exact ⟨[(source.remote, size)], rfl⟩
    · exact ⟨[], rfl⟩
  cases switches with
  | switch p probe later path probing phase candidate echoed early =>
    rw [received, ← List.append_assoc]
    exact .switch p probe (later ++ log) path probing phase candidate echoed early

private theorem kind_eq_response {kind : UInt8} (known : ¬pathDrop < kind) (response : kind ≠ pathChallenge)
    (kept : kind ≠ pathDrop) : kind = pathResponse := by
  rw [ne_eq, ← UInt8.toNat_inj] at response kept
  rw [← UInt8.toNat_inj]
  rw [UInt8.lt_iff_toNat_lt] at known
  simp only [pathDrop, pathChallenge, pathResponse, UInt8.reduceToNat] at *
  omega

private theorem settleProbe_moves [Crypto] {probe : PathProbe} {kind : UInt8} {now : Time}
    (supply : w.Supplied supplied) (path : w.session.path = some p)
    (probing : p.probe = some probe) (early : now < probe.deadline)
    (expected : sender = p.challengedPath probe) : Ends (settleProbe kind probe now) w
      (fun _ w' => PathMoves supplied w.pathView w'.pathView ∨
        kind ≠ pathDrop ∧ Switches sender probe.cookie now w.pathView w'.pathView)
      (fun _ w' => PathMoves supplied w.pathView w'.pathView) := by
  unfold settleProbe
  split_ifs with drop old candidate
  · exact (startBasic_moves now supply).imp fun _ _ => .inl
  · exact ends_pure.mpr (.inl .refl)
  · refine ends_modifySession.mpr (.inr ⟨drop, ?_⟩)
    rw [challengedPath, if_pos candidate] at expected
    have switched : Switches sender probe.cookie now w.pathView _ :=
      .switch p probe [] path probing candidate expected rfl early
    simpa only [World.pathView, Session.switchPath, Session.restartMTUConfirm, path, map_some,
      List.nil_append] using switched
  · refine ends_modifySession.mpr (.inl (.single ?_))
    have move : PathMove supplied w.pathView _ := .close p path
    simpa only [World.pathView, path, map_some] using move

theorem receivePath_moves [Crypto] (sender : PacketPath) (body : Bytes) (size : ℕ) (now : Time)
    (supply : w.Supplied supplied) (apart : w.pathView.Apart) :
    Ends (receivePath sender body size now) w
      (fun _ w' => PathMoves supplied w.pathView w'.pathView ∨
        ∃ cookie, body = pathResponse :: cookie ∧ Switches sender cookie now w.pathView w'.pathView)
      (fun _ w' => PathMoves supplied w.pathView w'.pathView) := by
  unfold receivePath
  rw [ends_session]
  split
  · exact ends_throw.mpr .refl
  · exact ends_throw.mpr .refl
  · next p kind cookie present =>
    have heard : PathMoves supplied w.pathView { w.pathView with
        received := p.heard sender size w.history.pathReceived } := by
      unfold heard
      split_ifs
      · exact .single (.hear sender.remote size)
      · exact .refl
    rw [ends_bind, ends_notePathReceived]
    split
    · exact ends_pure.mpr (.inl heard)
    · rename_i unknown
      split
      · exact ends_throw.mpr heard
      · split
        · rw [ends_bind, modifyPath, ends_modifySession]
          refine (sendMessage_pays _ _ _ _).mono (fun _ w' pays => .inl ?_) (fun _ w' pays => ?_) <;>
          · simp only [World.pathView, present, map_some] at pays
            exact answered_moves present apart pays
        · rename_i response
          split
          · exact ends_pure.mpr (.inl heard)
          · next probe probing =>
            split_ifs with ignored
            · exact ends_pure.mpr (.inl heard)
            · simp only [not_or, not_not, Nat.not_le] at ignored
              obtain ⟨rfl, early, expected⟩ := ignored
              refine (settleProbe_moves ?_ ?_ probing early expected).mono (fun _ w' settled => ?_)
                (fun _ w' moves => heard.trans moves)
              · exact supply
              · exact present
              obtain moves | ⟨kept, switches⟩ := settled
              · exact .inl (heard.trans moves)
              · refine .inr ⟨probe.cookie, ?_, switches.of_heard⟩
                rw [kind_eq_response unknown response kept]

end Socat.Dtls13
