import Socat.Tcpwrap.Model.Table

/-! # Patterns of hosts_access

Tokens of a rule compared with an endpoint of the connection. `Surroundings` is what the code calls
and does not contain: the string functions that depend on Unicode, the address parsers, the account
database and the resolver, whose answers are fixed. An endpoint keeps the first answer of its
reverse lookup; with fixed answers asking again gives the same one.
-/

namespace Socat.Tcpwrap

/-! ## Addresses -/

/-- `net.IP` -/
abbrev IP := List UInt8

def mappedHead : IP := [0, 0, 0, 0, 0, 0, 0, 0, 0, 0, 0xff, 0xff]

def is4In6 (ip : IP) : Bool := ip.length = 16 ∧ ip.take 12 = mappedHead

def to4 (ip : IP) : Option IP :=
  if ip.length = 4 then some ip else if is4In6 ip then some (ip.drop 12) else none

/-- `net.IP.Equal` takes an IPv4 address and its mapped form to be equal. -/
def ipEqual (a b : IP) : Bool := a = b ∨ (to4 a).isSome ∧ to4 a = to4 b

/-- `netip.Addr` -/
structure Addr where
  bytes : IP
  zone : Text
deriving DecidableEq, Repr

namespace Addr

def fromSlice (ip : IP) : Option Addr :=
  if ip.length = 4 ∨ ip.length = 16 then some ⟨ip, []⟩ else none

def unmap (a : Addr) : Addr := if is4In6 a.bytes then ⟨a.bytes.drop 12, []⟩ else a

def is6 (a : Addr) : Bool := a.bytes.length = 16

def withoutZone (a : Addr) : Addr := { a with zone := [] }

def value (a : Addr) : ℕ := a.bytes.foldl (fun n b => n * 256 + b.toNat) 0

/-- The prefix of this many bits of the IPv6 address `a` contains `b`. -/
def contains (a : Addr) (bits : ℕ) (b : Addr) : Bool :=
  a.value / 2 ^ (128 - bits) = b.value / 2 ^ (128 - bits)

end Addr

/-- `net.Addr`; a nil pointer of any kind is `none`. -/
inductive NetAddr
  | none
  | tcp (ip : Option IP) (zone : Text) (port : ℤ)
  | udp (ip : Option IP) (zone : Text) (port : ℤ)
  | ip (ip : Option IP) (zone : Text)
  | other (text : Text)
deriving DecidableEq, Repr

/-! ## Surroundings -/

structure DNSError where
  notFound : Bool
  temporary : Bool
  timeout : Bool
deriving DecidableEq, Repr

structure LookupError where
  deadlineExceeded : Bool
  dns : Option DNSError
deriving DecidableEq, Repr

/-- One lookup, with the state of the two contexts after it. -/
structure Answer (α : Type) where
  value : α
  error : Option LookupError
  cancelled : Bool
  expired : Bool

class Surroundings where
  toLower : Text → Text
  trimSpace : Text → Text
  fields : Text → List Text
  equalFold : Text → Text → Bool
  splitHostPort : Text → Option (Text × Text)
  atoi : Text → Option ℤ
  parseIP : Text → Option IP
  ipString : IP → Text
  parseAddr : Text → Option Addr
  userExists : Text → Bool
  groupExists : Text → Bool
  lookupAddr : Text → Answer (List Text)
  lookupCNAME : Text → Answer Text
  lookupIP : Text → Answer (List IP)

export Surroundings (toLower trimSpace fields equalFold splitHostPort atoi parseIP ipString parseAddr
  userExists groupExists lookupAddr lookupCNAME lookupIP)

/-- `strings.Cut` at one byte. -/
def cut (s : Text) (c : Char) : Text × Option Text :=
  match s.dropWhile (· ≠ c) with
  | [] => (s, none)
  | _ :: rest => (s.takeWhile (· ≠ c), some rest)

def containsAny (s chars : Text) : Bool := s.any chars.contains

def trimDot (name : Text) : Text := if name.getLast? = some '.' then name.dropLast else name

def stripBrackets (host : Text) : Text :=
  if 2 ≤ host.length ∧ host.head? = some '[' ∧ host.getLast? = some ']' then host.tail.dropLast
  else host

variable [Surroundings]

/-! ## Endpoints -/

structure Endpoint where
  ip : Option IP
  zone : Text
  addrText : Text
  literal : Text
  port : ℤ
deriving DecidableEq, Repr

/-- The zone stands behind the last percent sign. -/
def splitZone (host : Text) : Option (Text × Text) :=
  match host.reverse.dropWhile (· ≠ '%') with
  | [] => none
  | _ :: address => some (address.reverse, (host.reverse.takeWhile (· ≠ '%')).reverse)

def addrIdentity : NetAddr → Option IP × Text × Text × ℤ
  | .none => (none, [], [], 0)
  | .tcp ip zone port => (ip, zone, [], port)
  | .udp ip zone port => (ip, zone, [], port)
  | .ip ip zone => (ip, zone, [], 0)
  | .other text =>
    let (host, port) := match splitHostPort text with
      | none => (text, 0)
      | some (host, portText) => (host, (atoi portText).getD 0)
    let host := stripBrackets host
    match (splitZone host).bind fun (address, zone) => (parseIP address).map (·, zone) with
    | some (ip, zone) => (some ip, zone, [], port)
    | none => match parseIP host with
      | some ip => (some ip, [], [], port)
      | none => (none, [], host, port)

def newEndpoint (addr : NetAddr) : Endpoint :=
  let (ip, zone, literal, port) := addrIdentity addr
  ⟨ip, zone, (ip.map ipString).getD "unknown".toList, literal, port⟩

/-! ## The name of an endpoint -/

inductive NameStatus
  | unknown
  | known
  | paranoid
deriving DecidableEq, Repr

def lookupDeadline {α : Type} (a : Answer α) : Option HostsError :=
  if a.cancelled then some .cancelled
  else if a.expired ∨ a.error.any (·.deadlineExceeded) then some .lookupTimedOut
  else if (a.error.bind (·.dns)).any (·.timeout) then some .lookupTimedOut
  else none

def dnsNotFound (e : LookupError) : Bool := e.dns.any (·.notFound)

def normDNSName (name : Text) : Text := trimDot (toLower name)

def rootedDNSName (name : Text) : Text :=
  if name.getLast? = some '.' then name else name ++ ['.']

def numericDNSName (name : Text) : Bool := (parseAddr (trimDot name)).isSome

/-- A deadline or a cancellation during a lookup refuses the peer. -/
def answered {α : Type} (a : Answer α) : Except HostsError (Answer α) :=
  match lookupDeadline a with
  | some e => .error e
  | none => .ok a

/-- The status of an address without a name. -/
def unnamedStatus : Option LookupError → NameStatus
  | none => .unknown
  | some e => if dnsNotFound e then .unknown
    else if e.dns.any (!·.temporary) then .paranoid
    else .unknown

/-- The first name only, and only if it is its own canonical name and resolves back. -/
def lookupHostStatus (ipStr : Text) : Except HostsError (Text × NameStatus) := do
  match parseIP ipStr with
  | none => return ([], .unknown)
  | some ip =>
    let names ← answered (lookupAddr ipStr)
    match names.value with
    | [] => return ([], unnamedStatus names.error)
    | first :: _ =>
      let name := trimDot first
      if numericDNSName name then return ([], .paranoid)
      let cname ← answered (lookupCNAME (rootedDNSName name))
      if cname.error = none ∧ normDNSName cname.value ≠ normDNSName name then
        return ([], .paranoid)
      if cname.error.any (!dnsNotFound ·) then return ([], .paranoid)
      let ips ← answered (lookupIP (rootedDNSName name))
      if ips.error ≠ none then return ([], .paranoid)
      if ips.value.any (ipEqual · ip) then return (name, .known)
      return ([], .paranoid)

def Endpoint.dnsName (e : Endpoint) : Except HostsError (Text × NameStatus) :=
  match e.ip with
  | none => .ok ([], .unknown)
  | some ip => lookupHostStatus (ipString ip)

/-! ## Strings -/

def globMatch : Text → Text → Bool
  | [], s => s.isEmpty
  | p :: pat, s =>
    if p = '*' then pat.isEmpty || s.tails.any (globMatch pat)
    else match s with
      | [] => false
      | c :: rest => (p = '?' || p = c) && globMatch pat rest

def badWildcard (tok : Text) : Bool :=
  containsAny tok ['*', '?'] ∧
    (tok.head? = some '.' ∨ tok.getLast? = some '.' ∨ tok.contains '/')

def stringMatch (tok value : Text) : Except HostsError Bool :=
  if tok = [] then .ok false
  else if badWildcard tok then .error (hostsSyntax tok)
  else
    let tok := toLower tok
    let value := toLower value
    if tok.head? = some '.' then
      .ok (tok.length < value.length ∧ value.drop (value.length - tok.length) = tok)
    else if tok = "all".toList then .ok true
    else if tok = "known".toList then .ok (value ≠ "unknown".toList)
    else if tok.getLast? = some '.' then .ok (tok.isPrefixOf value)
    else if containsAny tok ['*', '?'] then .ok (globMatch tok value)
    else .ok (tok = value)

def isDigit (c : Char) : Bool := '0' ≤ c ∧ c ≤ '9'

def digitValue (c : Char) : ℕ := c.toNat - '0'.toNat

def addressShaped (tok : Text) : Bool :=
  tok ≠ [] ∧ tok.all fun c => isDigit c || c = '.' || c = '/'

/-! ## Networks -/

def parseInetDigits (base : ℕ) (n : ℕ) : Text → Option UInt8
  | [] => some (UInt8.ofNat n)
  | c :: rest =>
    let digit : Option ℕ :=
      if isDigit c then some (digitValue c)
      else if 'a' ≤ c ∧ c ≤ 'f' then some (c.toNat - 'a'.toNat + 10)
      else if 'A' ≤ c ∧ c ≤ 'F' then some (c.toNat - 'A'.toNat + 10)
      else none
    match digit with
    | none => none
    | some d =>
      if base ≤ d then none
      else if 255 < n * base + d then none
      else parseInetDigits base (n * base + d) rest

/-- Decimal, octal with a leading 0, or hexadecimal with a leading 0x, as `inet_addr` reads it. -/
def parseInetOctet (s : Text) : Option UInt8 :=
  match s with
  | [] => none
  | '0' :: x :: rest =>
    if x = 'x' ∨ x = 'X' then
      if rest = [] then none else parseInetDigits 16 0 rest
    else parseInetDigits 8 0 (x :: rest)
  | digits => parseInetDigits 10 0 digits

def parseInetQuad (s : Text) : Option IP :=
  match s.splitOn '.' with
  | [a, b, c, d] => [a, b, c, d].mapM parseInetOctet
  | _ => none

def parseDottedQuad (s : Text) : Option IP := parseInetQuad s

def parsePrefixLen (s : Text) (max : ℕ) : Option ℕ :=
  if s = [] ∨ 3 < s.length then none
  else if s.all isDigit then
    let n := s.foldl (fun n c => n * 10 + digitValue c) 0
    if max < n then none else some n
  else none

def maskFromLen (bits : ℕ) : IP :=
  (List.range 4).map fun i => UInt8.ofNat (256 - 2 ^ (8 - min 8 (bits - 8 * i)))

def broadcast : IP := [255, 255, 255, 255]

def matchV4 (netTok maskTok : Text) (ep : Endpoint) : Except HostsError Bool := do
  let whole := netTok ++ '/' :: maskTok
  let some network := parseDottedQuad netTok | .error (hostsSyntax whole)
  let mask ← match parseDottedQuad maskTok with
    | some mask => if mask = broadcast then .error (hostsSyntax whole) else .ok mask
    | none => match parsePrefixLen maskTok 32 with
      | some bits => if bits = 0 then .error (hostsSyntax whole) else .ok (maskFromLen bits)
      | none => .error (hostsSyntax whole)
  -- `inet_addr` cannot tell this address from an error, so it never matches
  if network = broadcast then return false
  let some ip4 := ep.ip.bind to4 | return false
  if ip4 = broadcast then return false
  return List.zipWith (· &&& ·) ip4 mask = network

def matchV6 (netTok maskTok : Text) (ep : Endpoint) : Except HostsError Bool := do
  let whole := netTok ++ '/' :: maskTok
  let some bits := parsePrefixLen maskTok 128 | .error (hostsSyntax whole)
  if netTok.head? ≠ some '[' ∨ netTok.getLast? ≠ some ']' then .error (hostsSyntax whole)
  let some pat := parseAddr netTok.tail.dropLast | .error (hostsSyntax whole)
  if !pat.is6 then .error (hostsSyntax whole)
  let some got := ep.ip.bind Addr.fromSlice | return false
  let got := got.unmap
  let pat := pat.unmap
  if !got.is6 || !pat.is6 then return false
  if pat.zone ≠ [] ∧ pat.zone ≠ ep.zone then return false
  return pat.withoutZone.contains bits got.withoutZone

def matchNet (tok : Text) (ep : Endpoint) : Except HostsError Bool :=
  match cut tok '/' with
  | (netTok, some maskTok) =>
    if maskTok = [] ∨ maskTok.contains '/' then .error (hostsSyntax tok)
    else if netTok.contains ':' ∨ netTok.head? = some '[' then matchV6 netTok maskTok ep
    else matchV4 netTok maskTok ep
  | (_, none) => .error (hostsSyntax tok)

def parseHostIP (tok : Text) : Option Addr := parseAddr (stripBrackets tok)

def ipMatches (pat : Addr) (ep : Endpoint) : Bool :=
  match ep.ip.bind Addr.fromSlice with
  | none => false
  | some got =>
    let got := got.unmap
    got.bytes.length = pat.bytes.length ∧ (pat.zone = [] ∨ pat.zone = ep.zone) ∧
      got.withoutZone = pat.withoutZone

/-! ## Tokens -/

/-- An endpoint without an address has no status. -/
def statusMatch (wanted : NameStatus) (ep : Endpoint) : Except HostsError Bool :=
  match ep.ip with
  | none => .ok false
  | some _ => do
    let (_, status) ← ep.dnsName
    return status = wanted

def knownMatch (ep : Endpoint) : Except HostsError Bool := statusMatch .known ep

def paranoidMatch (ep : Endpoint) : Except HostsError Bool := statusMatch .paranoid ep

/-- Unlike the other words, `unknown` matches an endpoint without an address. -/
def unknownMatch (ep : Endpoint) : Except HostsError Bool :=
  match ep.ip with
  | none => .ok true
  | some _ => do
    let (_, status) ← ep.dnsName
    return status = .unknown

def localMatch (ep : Endpoint) : Except HostsError Bool := do
  let (name, status) ← ep.dnsName
  return status = .known ∧ ¬name.contains '.'

def hostStringMatch (tok : Text) (ep : Endpoint) : Except HostsError Bool := do
  if ← stringMatch tok ep.addrText then return true
  if addressShaped tok then return false
  if ep.literal ≠ [] then return ← stringMatch tok ep.literal
  let (name, status) ← ep.dnsName
  if status ≠ .known then return false
  stringMatch tok name

def hostMatch (tok : Text) (ep : Endpoint) : Except HostsError Bool :=
  match tok.head? with
  | none => .ok false
  | some first =>
    if first = '@' ∨ first = '/' ∨ first = '\x7b' then .error (hostsSyntax tok)
    else
      let word := toLower tok
      if word = "known".toList then knownMatch ep
      else if word = "local".toList then localMatch ep
      else if word = "unknown".toList then unknownMatch ep
      else if word = "paranoid".toList then paranoidMatch ep
      else if badWildcard tok then .error (hostsSyntax tok)
      else if tok.contains '/' then matchNet tok ep
      else match parseHostIP tok with
        | some addr => .ok (ipMatches addr ep)
        | none => hostStringMatch tok ep

/-- An at-sign splits a token, but not at its first byte. -/
def splitMarker (tok : Text) : Option (Text × Text) :=
  match tok with
  | [] => none
  | first :: rest => match cut rest '@' with
    | (left, some right) => some (first :: left, right)
    | (_, none) => none

def numericPortFrom (n : ℕ) : Text → Option ℕ
  | [] => some n
  | c :: rest =>
    if !isDigit c then none
    else if 65535 < n * 10 + digitValue c then none
    else numericPortFrom (n * 10 + digitValue c) rest

/-- An all-digit token up to 65535, perhaps behind a plus sign, is the port of the server. -/
def numericPort (tok : Text) : Option ℕ :=
  let digits := if tok.head? = some '+' then tok.tail else tok
  if digits = [] then none else numericPortFrom 0 digits

/-- A port or the name of the daemon. -/
def daemonMatch (tok daemon : Text) (server : Endpoint) : Except HostsError Bool :=
  match numericPort tok with
  | some port => .ok (server.port = port)
  | none => stringMatch tok daemon

def serverToken (tok daemon : Text) (server : Endpoint) : Except HostsError Bool :=
  match splitMarker tok with
  | none => daemonMatch tok daemon server
  | some (name, host) => do
    if ← daemonMatch name daemon server then hostMatch host server
    else return false

/-- `user@host` would need the name of the user, so a matching host is refused. -/
def clientToken (tok : Text) (client : Endpoint) : Except HostsError Bool :=
  match splitMarker tok with
  | none => hostMatch tok client
  | some (_, host) => do
    if ← hostMatch host client then .error (hostsSyntax tok)
    else return false

end Socat.Tcpwrap
