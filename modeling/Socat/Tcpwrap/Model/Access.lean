import Socat.Tcpwrap.Model.Pattern

/-! # Access control by hosts.allow and hosts.deny

The first rule that matches decides, in hosts.allow before hosts.deny; options of a rule may turn
its verdict around. Messages of the logger are left out: nothing depends on them.
-/

namespace Socat.Tcpwrap

variable [Surroundings]

/-! ## Rules -/

/-- With `skip` the byte stands behind a backslash. -/
def indexHostsColonFrom (honorEscape : Bool) : Bool → ℕ → ℕ → Text → Option ℕ
  | _, _, _, [] => none
  | true, depth, i, _ :: rest => indexHostsColonFrom honorEscape false depth (i + 1) rest
  | false, depth, i, c :: rest =>
    if honorEscape ∧ c = '\\' then indexHostsColonFrom honorEscape true depth (i + 1) rest
    else if c = '[' then indexHostsColonFrom honorEscape false (depth + 1) (i + 1) rest
    else if c = ']' then indexHostsColonFrom honorEscape false (depth - 1) (i + 1) rest
    else if c = ':' ∧ depth = 0 then some i
    else indexHostsColonFrom honorEscape false depth (i + 1) rest

/-- The first colon outside brackets. -/
def indexHostsColon (s : Text) (honorEscape : Bool) : Option ℕ :=
  indexHostsColonFrom honorEscape false 0 0 s

/-- Every colon splits but one behind a backslash, which loses the backslash. -/
def splitOptionField (b : Text) : Text → List Text
  | [] => [trimSpace b]
  | '\\' :: ':' :: rest => splitOptionField (b ++ [':']) rest
  | ':' :: rest => trimSpace b :: splitOptionField [] rest
  | c :: rest => splitOptionField (b ++ [c]) rest

structure HostsRule where
  daemonList : Text
  clientList : Text
  /-- `none` without an option field. -/
  options : Option (List Text)
deriving DecidableEq, Repr

def splitHostsRule (line : Text) : Except HostsError HostsRule :=
  match indexHostsColon line false with
  | none => .error (.missingColon line)
  | some dEnd =>
    let rest := line.drop (dEnd + 1)
    match indexHostsColon rest false with
    | none => .ok ⟨trimSpace (line.take dEnd), trimSpace rest, none⟩
    | some cEnd =>
      .ok ⟨trimSpace (line.take dEnd), trimSpace (rest.take cEnd),
        some (splitOptionField [] (rest.drop (cEnd + 1)))⟩

def splitHostsList (s : Text) : List Text :=
  ((fields (s.map fun c => if c = ',' then ' ' else c)).map trimSpace).filter (· ≠ [])

/-- The tokens from the cursor on. After a `hit` the rest of its sublist is skipped; `EXCEPT` then
negates what follows, and ends a sublist without a hit. -/
def matchListAt (token : Text → Except HostsError Bool) : Bool → List Text → Except HostsError Bool
  | hit, [] => .ok hit
  | hit, tok :: rest =>
    if equalFold tok "EXCEPT".toList then
      if hit then (!·) <$> matchListAt token false rest else .ok false
    else if hit then matchListAt token true rest
    else do matchListAt token (← token tok) rest

def matchList (tokens : List Text) (token : Text → Except HostsError Bool) : Except HostsError Bool :=
  matchListAt token false tokens

/-- Where the cursor stands after the rest of a sublist: at the next `EXCEPT` or at the end. -/
def skipSublist (tokens : List Text) (i : ℕ) : ℕ :=
  i + ((tokens.drop i).takeWhile fun tok => !equalFold tok "EXCEPT".toList).length

private theorem le_skipSublist (tokens : List Text) (i : ℕ) : i ≤ skipSublist tokens i := Nat.le_add_right ..

/-- `matchListAt` with the cursor that its calls share and with results as Go returns them: a verdict beside the
error. The cursor it leaves behind comes last. -/
def matchListCursor (token : Text → Bool × Option HostsError) (tokens : List Text) (i : ℕ) :
    (Bool × Option HostsError) × ℕ :=
  match _here : tokens[i]? with
  | none => ((false, none), i)
  | some tok =>
    if equalFold tok "EXCEPT".toList then ((false, none), i + 1)
    else
      match token tok with
      | (_, some e) => ((false, some e), i + 1)
      | (false, none) => matchListCursor token tokens (i + 1)
      | (true, none) =>
        if tokens.length ≤ skipSublist tokens (i + 1) then ((true, none), skipSublist tokens (i + 1))
        else
          match matchListCursor token tokens (skipSublist tokens (i + 1) + 1) with
          | ((_, some e), last) => ((false, some e), last)
          | ((excluded, none), last) => ((!excluded, none), last)
termination_by tokens.length - i
decreasing_by
  all_goals
    have inside := (List.getElem?_eq_some_iff.mp _here).1
    have later := le_skipSublist tokens (i + 1)
    omega

/-! ## Options -/

inductive AccessVerdict
  | none
  | permit
  | deny
deriving DecidableEq, Repr

/-- The keyword ends at the first `=`, space, tab or newline. -/
def splitOptionKey (opt : Text) : Text × Text :=
  let ends (c : Char) : Bool := ['=', ' ', '\t', '\n'].contains c
  match opt.dropWhile (!ends ·) with
  | [] => (opt, [])
  | c :: rest =>
    let rest := if c = '=' then rest else
      let rest := rest.dropWhile [' ', '\t', '\n'].contains
      if rest.head? = some '=' then rest.tail else rest
    (opt.takeWhile (!ends ·), trimSpace rest)

def syslogLevel (s : Text) : Bool :=
  ["emerg", "alert", "crit", "err", "warning", "notice", "info", "debug"].any (·.toList = s)

def syslogFacility (s : Text) : Bool :=
  ["kern", "user", "mail", "daemon", "auth", "lpr", "news", "uucp", "cron"].any (·.toList = s) ∨
    s.take 5 = "local".toList ∧ s.length = 6 ∧ (s.drop 5).all fun c => '0' ≤ c ∧ c ≤ '7'

def validSeverity (value : Text) : Bool :=
  let value := toLower (trimSpace value)
  if value = [] ∨ value.contains ' ' then false
  else match cut value '.' with
    | (_, none) => syslogLevel value
    | (fac, some level) => syslogFacility fac && syslogLevel level

def validUmask (value : Text) : Bool :=
  value ≠ [] ∧ value.length ≤ 4 ∧ (value.all fun c => '0' ≤ c ∧ c ≤ '7') ∧
    value.foldl (fun n c => n * 8 + digitValue c) 0 ≤ 0o777

def validNumber (value : Text) (negative : Bool) : Bool :=
  match value with
  | [] => false
  | first :: rest =>
    if negative && first = '-' then rest ≠ [] ∧ rest.all isDigit else value.all isDigit

/-- The loop stops once the number is over a billion. -/
def positiveDecimalFrom (n : ℕ) : Text → Bool
  | [] => 0 < n
  | c :: rest =>
    if 1000000000 < n * 10 + digitValue c then true
    else positiveDecimalFrom (n * 10 + digitValue c) rest

def positiveDecimal (value : Text) : Bool := validNumber value false && positiveDecimalFrom 0 value

def validGroupOption (value : Text) : Bool :=
  let value := trimSpace value
  value ≠ [] ∧ ¬containsAny value [' ', '\t'] ∧ groupExists value

def validUserOption (value : Text) : Bool :=
  match cut (trimSpace value) '.' with
  | (name, none) => name ≠ [] ∧ userExists name
  | (name, some group) => name ≠ [] ∧ userExists name ∧ validGroupOption group

/-- The check of an option that does not decide. -/
def validOption (key value : Text) : Bool :=
  if key = "spawn".toList then trimSpace value ≠ []
  else if key = "keepalive".toList then value = []
  else if key = "severity".toList then validSeverity value
  else if key = "umask".toList then validUmask value
  else if key = "linger".toList then validNumber value false
  else if key = "nice".toList then value = [] || validNumber value true
  else if key = "rfc931".toList then value = [] || positiveDecimal value
  else if key = "banners".toList then trimSpace value ≠ []
  else if key = "setenv".toList then 1 ≤ (fields value).length
  else if key = "user".toList then validUserOption value
  else if key = "group".toList then validGroupOption value
  -- `twist`, `aclexec` and unknown keywords are refused
  else false

/-- `allow` and `deny` decide and must be last; the others are checked and not executed. -/
def applyOptionsFrom (implicit : AccessVerdict) : List Text → Except HostsError AccessVerdict
  | [] => .ok implicit
  | opt :: rest =>
    if trimSpace opt = [] then .error (hostsSyntax "empty option".toList)
    else
      let (key, value) := splitOptionKey opt
      let key := toLower key
      if key = "allow".toList ∨ key = "deny".toList then
        if value ≠ [] ∨ rest ≠ [] then .error (hostsSyntax opt)
        else .ok (if key = "allow".toList then .permit else .deny)
      else if validOption key value then applyOptionsFrom implicit rest
      else .error (hostsSyntax opt)

def applyOptions (options : List Text) (fromAllow : Bool) : Except HostsError AccessVerdict :=
  applyOptionsFrom (if fromAllow then .permit else .deny) options

/-! ## Tables -/

/-- What one line says about the connection: `none` if it does not match. -/
def matchHostsLine (raw daemon : Text) (client server : Endpoint) (fromAllow : Bool) :
    Except HostsError AccessVerdict := do
  if raw = [] ∨ raw.head? = some '#' then return .none
  let line := trimSpace raw
  if line = [] then return .none
  let rule ← splitHostsRule line
  let daemonOK ← matchList (splitHostsList rule.daemonList) fun tok => serverToken tok daemon server
  if !daemonOK then return .none
  let clientOK ← matchList (splitHostsList rule.clientList) fun tok => clientToken tok client
  if !clientOK then return .none
  applyOptions (rule.options.getD []) fromAllow

def matchHostsTable (daemon : Text) (client server : Endpoint) (fromAllow : Bool) :
    List Text → Except HostsError AccessVerdict
  | [] => .ok .none
  | raw :: rest => do
    match ← matchHostsLine raw daemon client server fromAllow with
    | .none => matchHostsTable daemon client server fromAllow rest
    | verdict => return verdict

structure TcpwrapConfig where
  enabled : Bool
  daemon : Text
  allow : Text
  deny : Text
  allowRequired : Bool
  denyRequired : Bool
deriving DecidableEq, Repr

/-- Why a peer is refused. -/
inductive Refusal
  /-- `refusing connection from … due to tcpwrapper option` -/
  | peer
  /-- The same, with the cause. -/
  | cause (e : HostsError)
  /-- `read tcpwrapper table` with the path. -/
  | table (path : Text)
deriving DecidableEq, Repr

inductive Side
  | allow
  | deny
deriving DecidableEq, Repr

def TcpwrapConfig.read (cfg : TcpwrapConfig) (files : Side → Opened) : Side → Option HostsTable
  | .allow => readHostsTable cfg.allow cfg.allowRequired (files .allow)
  | .deny => readHostsTable cfg.deny cfg.denyRequired (files .deny)

/-- The table of one side decides, or the next one does. -/
def decideTable (verdict : Except HostsError AccessVerdict) (next : Except Refusal Unit) : Except Refusal Unit :=
  match verdict with
  | .error e => .error (.cause e)
  | .ok .permit => .ok ()
  | .ok .deny => .error .peer
  | .ok .none => next

/-- A framing error of hosts.allow only drops its remaining lines; one of hosts.deny refuses every
peer that no earlier line decided. -/
def tcpwrapAllowedWithResolver (cfg : TcpwrapConfig) (files : Side → Opened)
    (peer localAddr : NetAddr) : Except Refusal Unit :=
  if !cfg.enabled then .ok ()
  else
    let client := newEndpoint peer
    if client.ip = none ∧ client.literal = [] then .error .peer
    else
      let server := newEndpoint localAddr
      match cfg.read files .allow with
      | none => .error (.table cfg.allow)
      | some allow => match cfg.read files .deny with
        | none => .error (.table cfg.deny)
        | some deny =>
          decideTable (matchHostsTable cfg.daemon client server true allow.lines) <|
          decideTable (matchHostsTable cfg.daemon client server false deny.lines) <|
          match deny.frame with
          | some frame => .error (.cause frame)
          | none => .ok ()

end Socat.Tcpwrap
