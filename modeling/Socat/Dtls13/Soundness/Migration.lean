import Socat.Dtls13.Model.TransparentCipher
import Socat.Dtls13.Moves.PathCalls

/-! # Path validation

The path state machine is called with records from any address and with timer ticks; the rest of the
session may do anything in between that leaves it alone. Packets to an address that is not the validated
peer are paid for with three times the bytes received from there, and the peer address moves only to a
path that has answered its own challenge in time.
-/

namespace Socat.Dtls13

open Machine PathState

variable {w : World} [Crypto] {supplied : Bool}

/-! ## Runs -/

inductive PathCall where
  | observe (sender : PacketPath) (number : RecordNumber) (typ : UInt8) (size : ℕ) (now : Time)
  | receive (sender : PacketPath) (body : Bytes) (size : ℕ) (now : Time)
  | tick (now : Time)
  | challenge (now : Time)

def PathCall.run : PathCall → SessionM Unit
  | .observe sender number typ size now => Socat.Dtls13.observe sender number typ size now
  | .receive sender body size now => receivePath sender body size now
  | .tick now => tickPath now
  | .challenge now => Socat.Dtls13.challenge now

/-- A call with any outcome, or anything the rest of the session does: it may give the probe another connection ID. -/
inductive PathStep (supplied : Bool) (w : World) : World → Prop
  | call (c : PathCall) (env : Env) (supply : supplied = true → rrcCookieLen ≤ env.random.length) :
      PathStep supplied w (final c.run (w.withEnv env))
  | elsewhere {w' : World} (path : w'.session.path = w.session.path ∨ ∃ p probe cid, w.session.path = some p ∧
        p.probe = some probe ∧ w'.session.path = some (p.setProbe { probe with cid }))
      (challenges : w'.history.challenges = w.history.challenges)
      (sent : w'.history.pathSent = w.history.pathSent)
      (received : w'.history.pathReceived = w.history.pathReceived) : PathStep supplied w w'

abbrev PathRuns (supplied : Bool) : World → World → Prop := Relation.ReflTransGen (PathStep supplied)

/-- A script of calls, one after the other. -/
def performCalls (script : List (PathCall × Env)) (w : World) : World :=
  script.foldl (fun w entry => final entry.1.run (w.withEnv entry.2)) w

private theorem pathRuns_performCalls {script : List (PathCall × Env)} (w : World)
    (supply : ∀ entry ∈ script, supplied = true → rrcCookieLen ≤ entry.2.random.length) :
    PathRuns supplied w (performCalls script w) := by
  induction script generalizing w with
  | nil => exact .refl
  | cons entry rest ih =>
    exact .head (.call entry.1 entry.2 (supply entry (by simp))) (ih _ fun later listed =>
      supply later (List.mem_cons_of_mem entry listed))

/-- No address has been probed yet. -/
structure World.Unprobed (w : World) : Prop where
  idle : ∀ p, w.session.path = some p → p.probe = none
  challenges : w.history.challenges = []
  sent : w.history.pathSent = []
  received : w.history.pathReceived = []

theorem PathCall.moves (c : PathCall) (supply : w.Supplied supplied)
    (apart : w.pathView.Apart) :
    PathMoves supplied w.pathView (final c.run w).pathView ∨ ∃ sender cookie size now,
      c = .receive sender (pathResponse :: cookie) size now ∧
        Switches sender cookie now w.pathView (final c.run w).pathView := by
  have moved : ∀ {x : SessionM Unit}, Views (PathMoves supplied) w.pathView w x →
      PathMoves supplied w.pathView (final x w).pathView :=
        Ends.final (P := fun w' : World => PathMoves supplied _ w'.pathView)
  cases c with
  | observe sender number typ size now => exact .inl (moved (observe_moves sender number typ size now supply))
  | tick now => exact .inl (moved (tickPath_moves now supply))
  | challenge now =>
    exact .inl (moved ((challenge_ends now supply).mono (fun _ _ => Challenges.moves) (fun _ _ => Challenges.moves)))
  | receive sender body size now =>
    have ended := Ends.final (P := fun w' : World => PathMoves supplied w.pathView w'.pathView ∨
        ∃ cookie, body = pathResponse :: cookie ∧ Switches sender cookie now w.pathView w'.pathView)
      ((receivePath_moves sender body size now supply apart).mono (fun _ _ => id) (fun _ _ => .inl))
    refine ended.imp_right fun ⟨cookie, response, switches⟩ => ?_
    subst response
    exact ⟨sender, cookie, size, now, rfl, switches⟩

/-- What moves and switches keep holds after every step. -/
theorem PathStep.invariant {P : PathView → Prop} {w' : World} (step : PathStep supplied w w')
    (apart : w.pathView.Apart) (holds : P w.pathView) (move : ∀ v v', P v → PathMove supplied v v' → P v')
    (switch : ∀ sender cookie now v v', P v → Switches sender cookie now v v' → P v')
    (rest : ∀ v cid, P v → P { v with peerCID := cid }) : P w'.pathView := by
  cases step with
  | call c env supply =>
    obtain moves | ⟨sender, cookie, size, now, -, switches⟩ :=
      PathCall.moves (w := w.withEnv env) c supply apart
    · have kept : ∀ v', PathMoves supplied w.pathView v' → P v' := by
        intro v' moves
        induction moves with
        | refl => exact holds
        | tail _ last ih => exact move _ _ ih last
      exact kept _ moves
    · exact switch _ _ _ _ _ holds switches
  | elsewhere path challenges sent received =>
    have same : w'.pathView = { w.pathView with
        path := w'.session.path, peerCID := w'.session.handshake.peerCID } := by
      simp only [World.pathView, challenges, sent, received]
    rw [same]
    obtain kept | ⟨p, probe, cid, present, probing, renamed⟩ := path
    · rw [kept]
      exact rest _ _ holds
    · rw [renamed]
      exact rest _ _ (move _ _ holds (.rename p probe cid present probing))

/-! ## Addresses apart -/

omit [Crypto]

/-- What holds of the path state, or of the probe, that is there. -/
theorem forall_some {α : Type} {P : α → Prop} {a : α} (holds : P a) : ∀ b, some a = some b → P b := by
  intro b same
  exact Option.some.inj same ▸ holds

namespace PathState

variable {p : PathState} {probe other : PathProbe}

theorem Apart.setProbe (apart : p.Apart) (probing : p.probe = some probe)
    (candidate : other.candidate = probe.candidate) : (p.setProbe other).Apart :=
  forall_some (candidate ▸ apart probe probing)

theorem Apart.see (apart : p.Apart) (number : RecordNumber) : (p.see number).Apart := by
  intro probe probing
  rw [see_peer]
  exact apart probe (see_probe p number ▸ probing)

theorem grant_eq (probing : p.probe = some probe) (size : ℕ) : p.grant probe.candidate size =
    p.setProbe { probe with credit := min maxCredit (probe.credit + 3 * size) } := by
  simp [grant, setProbe, probing]

end PathState

variable {v v' : PathView} {sender : PacketPath} {cookie : Bytes}

theorem PathMove.apart {supplied : Bool} (move : PathMove supplied v v') (apart : v.Apart) : v'.Apart := by
  cases move with
  | see p number path => exact forall_some ((apart p path).see number)
  | hear | answer => exact apart
  | grant p probe size path probing =>
    rw [grant_eq probing]
    exact forall_some ((apart p path).setProbe probing rfl)
  | pay p probe size path probing | stall p probe cid path probing | rename p probe cid path probing =>
    exact forall_some ((apart p path).setProbe probing rfl)
  | start p sender size path idle allowed elsewhere => exact forall_some (forall_some elsewhere)
  | challengeOld p probe cookie deadline path probing
  | challengeCandidate p probe cid cookie deadline path probing =>
    exact forall_some ((apart p path).setProbe probing rfl)
  | close p path => exact forall_some fun _ => nofun

theorem Switches.apart {now : Time} (switches : Switches sender cookie now v v') : v'.Apart := by
  cases switches with
  | switch p probe log path => exact forall_some fun _ => nofun

/-! ## Credit -/

/-- The bytes a log holds for an address. -/
def total (address : AddrPort) (log : List (AddrPort × ℕ)) : ℕ :=
  ((log.filter fun entry => entry.1 = address).map Prod.snd).sum

private theorem total_cons (address other : AddrPort) (size : ℕ) (log : List (AddrPort × ℕ)) :
    total address ((other, size) :: log) = (if other = address then size else 0) + total address log := by
  by_cases same : other = address <;> simp [total, same]

private theorem total_append (address : AddrPort) (first second : List (AddrPort × ℕ)) :
    total address (first ++ second) = total address first + total address second := by
  simp [total]

/-- The credit that can still be spent on an address. -/
def PathState.credit (p : PathState) (address : AddrPort) : ℕ :=
  (p.probe.map fun probe => if probe.candidate.remote = address then probe.credit else 0).getD 0

theorem PathState.credit_of_probe {p : PathState} {probe : PathProbe} (probing : p.probe = some probe)
    (address : AddrPort) : p.credit address = if probe.candidate.remote = address then probe.credit else 0 := by
  simp [credit, probing]

@[simp] theorem PathState.credit_setProbe (p : PathState) (probe : PathProbe) (address : AddrPort) :
    (p.setProbe probe).credit address = if probe.candidate.remote = address then probe.credit else 0 := rfl

@[simp] theorem PathState.credit_see (p : PathState) (number : RecordNumber) (address : AddrPort) :
    (p.see number).credit address = p.credit address := by
  simp [credit]

/-- What was sent to an address and what may still be is at most three times what came from there. -/
structure PathView.Solvent (v : PathView) : Prop where
  spent : ∀ address, total address v.sent ≤ 3 * total address v.received
  held : ∀ p, v.path = some p → ∀ address,
    total address v.sent + p.credit address ≤ 3 * total address v.received

/-- The books stay balanced when no more is sent than three times what comes in. -/
theorem PathView.Solvent.book (solvent : v.Solvent) {sent received : List (AddrPort × ℕ)}
    (covered : ∀ address, total address sent + 3 * total address v.received ≤
      total address v.sent + 3 * total address received) : ({ v with sent, received } : PathView).Solvent := by
  refine ⟨fun address => ?_, fun p path address => ?_⟩ <;> have := covered address <;> dsimp only
  · have := solvent.spent address
    omega
  · have := solvent.held p path address
    omega

theorem PathMove.solvent {supplied : Bool} (move : PathMove supplied v v') (solvent : v.Solvent) : v'.Solvent := by
  have heard : ∀ sender size, ({ v with received := (sender, size) :: v.received } : PathView).Solvent := fun _ _ =>
    solvent.book fun address => by rw [total_cons]; omega
  have ⟨spent, held⟩ := solvent
  cases move with
  | see p number path =>
    exact ⟨spent, forall_some fun address => by simpa using held p path address⟩
  | hear sender size => exact heard sender size
  | grant p probe size path probing =>
    rw [grant_eq probing]
    refine ⟨(heard _ _).spent, forall_some fun address => ?_⟩
    have := held p path address
    rw [credit_of_probe probing] at this
    simp only [total_cons, credit_setProbe]
    split_ifs at this ⊢ <;> omega
  | answer sender size paid bound =>
    refine solvent.book fun address => ?_
    rw [total_cons, total_cons]
    split_ifs <;> omega
  | pay p probe size path probing affordable =>
    have paid : ∀ address, total address ((probe.candidate.remote, size) :: v.sent) +
        (if probe.candidate.remote = address then probe.credit - size else 0) ≤
          3 * total address v.received := by
      intro address
      have := held p path address
      rw [credit_of_probe probing] at this
      rw [total_cons]
      split_ifs at this ⊢ <;> omega
    exact ⟨fun address => le_trans (Nat.le_add_right _ _) (paid address), forall_some paid⟩
  | start p sender size path =>
    refine ⟨(heard _ _).spent, forall_some fun address => ?_⟩
    have := spent address
    simp only [total_cons, credit_setProbe]
    split_ifs <;> omega
  | challengeOld p probe cookie deadline path probing
  | challengeCandidate p probe cid cookie deadline path probing
  | stall p probe cid path probing | rename p probe cid path probing =>
    refine ⟨spent, forall_some fun address => ?_⟩
    simpa [credit_of_probe probing] using held p path address
  | close p path => exact ⟨spent, forall_some fun address => by simpa [credit] using spent address⟩

theorem Switches.solvent {now : Time} (switches : Switches sender cookie now v v') (solvent : v.Solvent) :
    v'.Solvent := by
  cases switches with
  | switch p probe log path =>
    have ⟨spent, _⟩ : ({ v with received := log ++ v.received } : PathView).Solvent :=
      solvent.book fun address => by rw [total_append]; omega
    exact ⟨spent, forall_some fun address => by simpa [credit] using spent address⟩

/-- The path state machine never sends an address that is not the validated peer more than three times
the bytes it has received from there. -/
theorem pathRuns_solvent [Crypto] {w w' : World} (unprobed : w.Unprobed) (runs : PathRuns false w w')
    (address : AddrPort) : total address w'.pathView.sent ≤ 3 * total address w'.pathView.received := by
  have invariant : w'.pathView.Apart ∧ w'.pathView.Solvent := by
    induction runs with
    | refl =>
      refine ⟨fun p path probe probing => ?_, fun other => ?_, fun p path other => ?_⟩
      · exact absurd ((unprobed.idle p path).symm.trans probing) (by simp)
      · simp [World.pathView, unprobed.sent, total]
      · simp [World.pathView, unprobed.sent, total, credit, unprobed.idle p path]
    | tail _ step ih =>
      exact step.invariant (P := fun v => v.Apart ∧ v.Solvent) ih.1 ih
        (fun _ _ holds move => ⟨move.apart holds.1, move.solvent holds.2⟩)
        (fun _ _ _ _ _ holds switches => ⟨switches.apart, switches.solvent holds.2⟩)
        (fun _ _ holds => ⟨holds.1, holds.2.spent, holds.2.held⟩)
  exact invariant.2.spent address

/-- A client with application keys whose peer is at port 1. -/
def pathClient : World := { newWorld true with
  session.epochs.write := AList.singleton 3 { keys := some (transparentKeys 1) }
  session.path := some { peer := ⟨some (1, 1), 0⟩ } }

def cookieEnv : Env := { random := [1, 2, 3, 4, 5, 6, 7, 8] }

/-- A record from port 2 arrives, and the old path does not answer. -/
def challengeScript : List (PathCall × Env) :=
  [(.observe ⟨some (1, 2), 0⟩ ⟨3, 9⟩ contentData 100 5, cookieEnv), (.tick (2 ^ 40), cookieEnv)]

def challengedClient : World := @performCalls transparent challengeScript pathClient

theorem unprobed_pathClient : pathClient.Unprobed where
  idle p path := by
    obtain rfl := Option.some.inj path
    rfl
  challenges := rfl
  sent := rfl
  received := rfl

theorem pathRuns_challengedClient (supplied : Bool) : @PathRuns transparent supplied pathClient challengedClient := by
  unfold challengedClient
  refine @pathRuns_performCalls transparent _ _ _ fun entry listed _ => ?_
  simp only [challengeScript, List.mem_cons, List.not_mem_nil, or_false] at listed
  rcases listed with rfl | rfl <;> decide

theorem challengedClient_solvent :
    total (some (1, 2)) challengedClient.pathView.sent ≠ 0 ∧
    total (some (1, 2)) challengedClient.pathView.sent ≤
      3 * total (some (1, 2)) challengedClient.pathView.received := by
  refine ⟨by decide +kernel, ?_⟩
  exact @pathRuns_solvent transparent _ _ unprobed_pathClient (pathRuns_challengedClient false) _

/-! ## Challenged candidates -/

/-- The most recent challenge of a path as a candidate. -/
def lastChallenge (path : PacketPath) (challenges : List Challenge) : Option Challenge :=
  challenges.find? fun c => c.path = path ∧ c.phase = .validateCandidate

/-- The candidate is an address the filter allows; in its own phase the probe holds the cookie and the
deadline of its most recent challenge. -/
def PathState.Tracked (p : PathState) (challenges : List Challenge) : Prop :=
  ∀ probe, p.probe = some probe → p.allowed probe.candidate.remote = true ∧
    (probe.phase = .validateCandidate → ∃ c, lastChallenge probe.candidate challenges = some c ∧
      c.cookie = probe.cookie ∧ c.deadline = probe.deadline)

def PathView.Tracked (v : PathView) : Prop := ∀ p, v.path = some p → p.Tracked v.challenges

/-- A change of the probe's credit. -/
theorem PathState.Tracked.spend {p : PathState} {probe : PathProbe} {challenges : List Challenge}
    (tracked : p.Tracked challenges) (probing : p.probe = some probe) (credit : ℕ) :
    (p.setProbe { probe with credit }).Tracked challenges := forall_some (tracked probe probing)

theorem PathMove.tracked (move : PathMove true v v') (tracked : v.Tracked) : v'.Tracked := by
  cases move with
  | see p number path =>
    refine forall_some fun probe probing => ?_
    rw [see_allowed]
    exact tracked p path probe (see_probe p number ▸ probing)
  | hear | answer => exact tracked
  | grant p probe size path probing =>
    rw [grant_eq probing]
    exact forall_some ((tracked p path).spend probing _)
  | pay p probe size path probing => exact forall_some ((tracked p path).spend probing _)
  | start p sender size path idle allowed => exact forall_some (forall_some ⟨allowed, nofun⟩)
  | challengeOld p probe cookie deadline path probing phase =>
    exact forall_some (forall_some ⟨(tracked p path probe probing).1,
      fun candidate => absurd (phase.symm.trans candidate) (by decide)⟩)
  | challengeCandidate p probe cid cookie deadline path probing =>
    exact forall_some (forall_some ⟨(tracked p path probe probing).1, fun _ =>
      ⟨⟨probe.candidate, .validateCandidate, cookie, deadline⟩, by simp [lastChallenge], rfl, rfl⟩⟩)
  | stall p probe cid path probing short => cases short
  | rename p probe cid path probing => exact forall_some (forall_some (tracked p path probe probing))
  | close p path => exact forall_some fun _ => nofun

theorem Switches.tracked {now : Time} (switches : Switches sender cookie now v v') : v'.Tracked := by
  cases switches with
  | switch p probe log path => exact forall_some fun _ => nofun

theorem PathRuns.tracked [Crypto] {w w' : World} (runs : PathRuns true w w') (unprobed : w.Unprobed) :
    w'.pathView.Apart ∧ w'.pathView.Tracked := by
  induction runs with
  | refl =>
    refine ⟨fun p path probe probing => ?_, fun p path probe probing => ?_⟩ <;>
      exact absurd ((unprobed.idle p path).symm.trans probing) (by simp)
  | tail _ step ih =>
    exact step.invariant (P := fun v => v.Apart ∧ v.Tracked) ih.1 ih
      (fun _ _ holds move => ⟨move.apart holds.1, move.tracked holds.2⟩)
      (fun _ _ _ _ _ _ switches => ⟨switches.apart, switches.tracked⟩)
      (fun _ _ holds => holds)

/-- The validated path and the connection ID of the peer. -/
def PathView.route (v : PathView) : Option PacketPath × Bytes := (v.path.map PathState.peer, v.peerCID)

theorem PathMove.route {supplied : Bool} (move : PathMove supplied v v') : v'.route = v.route := by
  cases move with
  | see p number path => simp [PathView.route, path]
  | hear | answer => rfl
  | grant p probe size path | pay p probe size path | start p sender size path
  | challengeOld p probe cookie deadline path | challengeCandidate p probe cid cookie deadline path
  | stall p probe cid path | rename p probe cid path | close p path =>
    simp [PathView.route, path, PathState.grant, setProbe]

theorem PathMoves.route {supplied : Bool} (moves : PathMoves supplied v v') : v'.route = v.route := by
  induction moves with
  | refl => rfl
  | tail _ move ih => exact move.route.trans ih

end Socat.Dtls13
