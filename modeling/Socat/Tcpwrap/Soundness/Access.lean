import Socat.Tcpwrap.Model.Access
import Socat.Xio.Model.NetIP

/-! # Tables cut off by a framing error

A table that stops at a framing error is compared with any complete table that begins with the same
lines. The error of hosts.deny refuses everyone the lines before it did not decide, so it never lets
a peer in. The error of hosts.allow does, when the lines that were lost would have refused the peer.
-/

namespace Socat.Tcpwrap

variable {cfg : TcpwrapConfig} {files files' : Side → Opened}

/-- One table stops at a framing error after `lines`, the other one goes on with `more`. -/
structure Truncated (cfg : TcpwrapConfig) (files files' : Side → Opened) (side : Side)
    (lines more : List Text) : Prop where
  broken : ∃ frame, cfg.read files side = some ⟨lines, some frame⟩
  whole : cfg.read files' side = some ⟨lines ++ more, none⟩
  others : ∀ other, other ≠ side → files' other = files other

theorem Truncated.read_other {side : Side} {lines more : List Text}
    (truncated : Truncated cfg files files' side lines more) {other : Side} (ne : other ≠ side) :
    cfg.read files' other = cfg.read files other := by
  cases other <;> simp only [TcpwrapConfig.read, truncated.others _ ne]

theorem decideTable_eq_ok {verdict : Except HostsError AccessVerdict} {next : Except Refusal Unit} :
    decideTable verdict next = .ok () ↔
      verdict = .ok .permit ∨ verdict = .ok .none ∧ next = .ok () := by
  cases verdict with
  | error e => simp [decideTable]
  | ok verdict => cases verdict <;> simp [decideTable]

section

variable [Surroundings] {peer localAddr : NetAddr} {daemon : Text} {client server : Endpoint}
  {fromAllow : Bool}

/-! ## The first matching line -/

private theorem matchHostsTable_cons (raw : Text) (rest : List Text) :
    matchHostsTable daemon client server fromAllow (raw :: rest) =
      match matchHostsLine raw daemon client server fromAllow with
      | .ok .none => matchHostsTable daemon client server fromAllow rest
      | decided => decided := by
  rw [matchHostsTable]
  cases matchHostsLine raw daemon client server fromAllow with
  | error e => rfl
  | ok verdict => cases verdict <;> rfl

/-- Further lines count only if the ones before them decide nothing. -/
theorem matchHostsTable_append (lines more : List Text) :
    matchHostsTable daemon client server fromAllow (lines ++ more) =
      match matchHostsTable daemon client server fromAllow lines with
      | .ok .none => matchHostsTable daemon client server fromAllow more
      | decided => decided := by
  induction lines with
  | nil => rfl
  | cons raw rest ih =>
    rw [List.cons_append, matchHostsTable_cons, matchHostsTable_cons, ih]
    cases matchHostsLine raw daemon client server fromAllow with
    | error e => rfl
    | ok verdict => cases verdict <;> rfl

/-! ## Truncation -/

/-- No line before the framing error of hosts.allow decides, and those after it refuse. -/
structure Overruled (cfg : TcpwrapConfig) (peer localAddr : NetAddr) (lines more : List Text) : Prop where
  enabled : cfg.enabled = true
  undecided :
    matchHostsTable cfg.daemon (newEndpoint peer) (newEndpoint localAddr) true lines = .ok .none
  refusing :
    matchHostsTable cfg.daemon (newEndpoint peer) (newEndpoint localAddr) true more = .ok .deny ∨
    ∃ e, matchHostsTable cfg.daemon (newEndpoint peer) (newEndpoint localAddr) true more = .error e

/-- What the tables of an enabled filter have to say for a peer to be let in. -/
structure LetIn (cfg : TcpwrapConfig) (files : Side → Opened) (peer localAddr : NetAddr)
    (allow deny : HostsTable) : Prop where
  identified : ¬((newEndpoint peer).ip = none ∧ (newEndpoint peer).literal = [])
  allowed : cfg.read files .allow = some allow
  denied : cfg.read files .deny = some deny
  verdict :
    matchHostsTable cfg.daemon (newEndpoint peer) (newEndpoint localAddr) true allow.lines =
      .ok .permit ∨
    matchHostsTable cfg.daemon (newEndpoint peer) (newEndpoint localAddr) true allow.lines =
      .ok .none ∧
    (matchHostsTable cfg.daemon (newEndpoint peer) (newEndpoint localAddr) false deny.lines =
        .ok .permit ∨
      matchHostsTable cfg.daemon (newEndpoint peer) (newEndpoint localAddr) false deny.lines =
        .ok .none ∧ deny.frame = none)

private theorem tcpwrapAllowed_iff (enabled : cfg.enabled = true) :
    tcpwrapAllowedWithResolver cfg files peer localAddr = .ok () ↔
      ∃ allow deny, LetIn cfg files peer localAddr allow deny := by
  rw [tcpwrapAllowedWithResolver, enabled, Bool.not_true, if_neg Bool.false_ne_true]
  constructor
  · intro allowed
    dsimp only at allowed
    split_ifs at allowed with identified
    split at allowed
    · contradiction
    · next allow readAllow =>
      split at allowed
      · contradiction
      · next deny readDeny =>
        refine ⟨allow, deny, identified, readAllow, readDeny, ?_⟩
        rw [decideTable_eq_ok, decideTable_eq_ok] at allowed
        refine allowed.imp_right (And.imp_right (Or.imp_right (And.imp_right fun unframed => ?_)))
        cases frame : deny.frame with
        | none => rfl
        | some e => simp [frame] at unframed
  · rintro ⟨allow, deny, identified, readAllow, readDeny, verdict⟩
    simp only [if_neg identified, readAllow, readDeny, decideTable_eq_ok]
    refine verdict.imp_right (And.imp_right (Or.imp_right (And.imp_right fun unframed => ?_)))
    rw [unframed]

/-- A peer that a broken hosts.deny lets in was let in by a line before the error. -/
theorem Truncated.deny_letIn {lines more : List Text} {allow deny : HostsTable}
    (truncated : Truncated cfg files files' .deny lines more) (letIn : LetIn cfg files peer localAddr allow deny) :
    LetIn cfg files' peer localAddr allow ⟨lines ++ more, none⟩ := by
  obtain ⟨frame, broken⟩ := truncated.broken
  obtain rfl : ⟨lines, some frame⟩ = deny := Option.some.inj (broken.symm.trans letIn.denied)
  refine ⟨letIn.identified, ?_, truncated.whole, ?_⟩
  · rw [truncated.read_other (by decide), letIn.allowed]
  · refine letIn.verdict.imp_right (And.imp_right fun denied => .inl ?_)
    obtain permitted | ⟨_, unframed⟩ := denied
    · rw [matchHostsTable_append, permitted]
    · cases unframed

/-- The lines lost from hosts.allow matter only when they refuse the peer. -/
theorem Truncated.allow_letIn {lines more : List Text} {allow deny : HostsTable}
    (truncated : Truncated cfg files files' .allow lines more) (enabled : cfg.enabled = true)
    (letIn : LetIn cfg files peer localAddr allow deny) :
    (∃ allow' deny', LetIn cfg files' peer localAddr allow' deny') ↔
      ¬Overruled cfg peer localAddr lines more := by
  obtain ⟨frame, broken⟩ := truncated.broken
  obtain rfl : ⟨lines, some frame⟩ = allow := Option.some.inj (broken.symm.trans letIn.allowed)
  have readDeny : cfg.read files' .deny = some deny := by
    rw [truncated.read_other (by decide), letIn.denied]
  constructor
  · rintro ⟨allow', deny', letIn'⟩ ⟨_, undecided, refusing⟩
    obtain rfl : ⟨lines ++ more, none⟩ = allow' :=
      Option.some.inj (truncated.whole.symm.trans letIn'.allowed)
    have verdict := letIn'.verdict
    rw [matchHostsTable_append, undecided] at verdict
    obtain denying | ⟨e, failing⟩ := refusing
    · simp [denying] at verdict
    · simp [failing] at verdict
  · intro unruled
    refine ⟨⟨lines ++ more, none⟩, deny, letIn.identified, truncated.whole, readDeny, ?_⟩
    rw [matchHostsTable_append]
    obtain permitted | ⟨undecided, denied⟩ := letIn.verdict
    · rw [permitted]
      exact .inl rfl
    · rw [undecided]
      cases further : matchHostsTable cfg.daemon (newEndpoint peer) (newEndpoint localAddr) true more with
      | error e => exact absurd ⟨enabled, undecided, .inr ⟨e, further⟩⟩ unruled
      | ok verdict =>
        cases verdict with
        | none => exact .inr ⟨rfl, denied⟩
        | permit => exact .inl rfl
        | deny => exact absurd ⟨enabled, undecided, .inl further⟩ unruled

/-- A peer let in through a table cut off by a framing error is let in through every complete table
with the same first lines, unless that table is hosts.allow and its further lines refuse the peer. -/
theorem truncated_permits {side : Side} {lines more : List Text}
    (truncated : Truncated cfg files files' side lines more)
    (permitted : tcpwrapAllowedWithResolver cfg files peer localAddr = .ok ()) :
    tcpwrapAllowedWithResolver cfg files' peer localAddr = .ok () ↔
      ¬(side = .allow ∧ Overruled cfg peer localAddr lines more) := by
  cases enabled : cfg.enabled with
  | false =>
    have unruled : ¬Overruled cfg peer localAddr lines more := fun overruled =>
      Bool.false_ne_true (enabled.symm.trans overruled.enabled)
    simp [tcpwrapAllowedWithResolver, enabled, unruled]
  | true =>
    obtain ⟨allow, deny, letIn⟩ := (tcpwrapAllowed_iff enabled).mp permitted
    rw [tcpwrapAllowed_iff enabled]
    cases side with
    | allow => simpa using truncated.allow_letIn enabled letIn
    | deny => simpa using ⟨_, _, truncated.deny_letIn letIn⟩

end

/-! ## Two concrete filters -/

/-- Surroundings of ASCII text, without names and accounts. -/
@[reducible] def plainSurroundings : Surroundings where
  toLower s := s.map Char.toLower
  trimSpace s := ((s.dropWhile Char.isWhitespace).reverse.dropWhile Char.isWhitespace).reverse
  fields s := (s.splitOnP Char.isWhitespace).filter (· ≠ [])
  equalFold a b := a.map Char.toLower = b.map Char.toLower
  splitHostPort _ := none
  atoi _ := none
  parseIP := Xio.parseIP
  ipString _ := "127.0.0.1".toList
  parseAddr := Xio.parseAddr
  userExists _ := false
  groupExists _ := false
  lookupAddr _ := ⟨[], none, false, false⟩
  lookupCNAME _ := ⟨[], none, false, false⟩
  lookupIP _ := ⟨[], none, false, false⟩

def plainConfig : TcpwrapConfig :=
  ⟨true, "socat".toList, "hosts.allow".toList, "hosts.deny".toList, false, false⟩

def plainFiles (allow deny : String) : Side → Opened
  | .allow => .reader ⟨allow.toList, false⟩
  | .deny => .reader ⟨deny.toList, false⟩

def loopback : NetAddr := .tcp (some [127, 0, 0, 1]) [] 40000

theorem brokenDeny_permits : let _ := plainSurroundings
    tcpwrapAllowedWithResolver plainConfig
      (plainFiles "" "socat: 127.0.0.1: allow\nALL: ALL\n") loopback .none = .ok () := by
  let _ := plainSurroundings
  have truncated : Truncated plainConfig (plainFiles "" "socat: 127.0.0.1: allow\nALL: ALL")
      (plainFiles "" "socat: 127.0.0.1: allow\nALL: ALL\n") .deny
      ["socat: 127.0.0.1: allow".toList] ["ALL: ALL".toList] := by
    refine ⟨⟨hostsSyntax "missing newline".toList, by decide +kernel⟩, by decide +kernel, ?_⟩
    intro other ne
    cases other with
    | allow => rfl
    | deny => contradiction
  exact (truncated_permits truncated (by decide +kernel)).mpr (by simp)

/-- Without its final newline the rule of hosts.allow that refuses everyone is lost, and the peer is
let in; with the newline it is refused. -/
theorem brokenAllow_permits : let _ := plainSurroundings
    plainConfig.read (plainFiles "ALL: ALL: deny" "") .allow =
      some ⟨[], some (hostsSyntax "missing newline".toList)⟩ ∧
    tcpwrapAllowedWithResolver plainConfig (plainFiles "ALL: ALL: deny" "") loopback .none =
      .ok () ∧
    plainConfig.read (plainFiles "ALL: ALL: deny\n" "") .allow =
      some ⟨[] ++ ["ALL: ALL: deny".toList], none⟩ ∧
    tcpwrapAllowedWithResolver plainConfig (plainFiles "ALL: ALL: deny\n" "") loopback .none =
      .error .peer := by
  decide +kernel

end Socat.Tcpwrap
