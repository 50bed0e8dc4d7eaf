import Socat.Tcpwrap.Model.Access
import Socat.Xio.Model.NetIP

/-! # The range= option

`ParseIPRange` tells the spellings of a network apart, and `compileIPRange` makes a matcher of the result, once
for the life of an address. A text is a list of bytes, and letters and spaces are those of ASCII.
-/

namespace Socat.Xio

open Tcpwrap (IP Addr Text to4 ipEqual cut containsAny stripBrackets)

/-! ## Socket address data -/

def byteOf (c : Char) : UInt8 := UInt8.ofNat c.toNat

def isSpace (c : Char) : Bool := ['\t', '\n', '\x0b', '\x0c', '\r', ' '].contains c

def trimSpace (s : Text) : Text := ((s.dropWhile isSpace).reverse.dropWhile isSpace).reverse

def socketEscapeByte (value : Char) : UInt8 :=
  if value = '0' then 0
  else if value = 'n' then 0x0a
  else if value = 'r' then 0x0d
  else if value = 't' then 0x09
  else if value = 'f' then 0x0c
  else if value = 'b' then 0x08
  else if value = 'a' then 0x07
  else if value = 'e' then 0x1b
  else byteOf value

def unescapeShellQuotes : Text → Text
  | [] => []
  | '\\' :: c :: rest =>
    if c = '"' ∨ c = '\\' then c :: unescapeShellQuotes rest else '\\' :: unescapeShellQuotes (c :: rest)
  | c :: rest => c :: unescapeShellQuotes rest

/-- A string behind its opening quote: the bytes up to the closing one, and the rest. -/
def parseSocketString (out : List UInt8) : Text → Option (List UInt8 × Text)
  | [] => none
  | '"' :: rest => some (out, rest)
  | ['\\'] => none
  | '\\' :: c :: rest => parseSocketString (out ++ [socketEscapeByte c]) rest
  | c :: rest => parseSocketString (out ++ [byteOf c]) rest

private theorem parseSocketString_shortens {out bytes : List UInt8} {s rest : Text}
    (parsed : parseSocketString out s = some (bytes, rest)) : rest.length < s.length := by
  fun_induction parseSocketString out s with
  | case1 | case3 => cases parsed
  | case2 =>
    cases parsed
    exact Nat.lt_succ_self _
  | case4 out c s ih | case5 out c s _ _ _ ih =>
    have shorter := ih parsed
    simp only [List.length_cons]
    omega

private theorem unescapeShellQuotes_length (s : Text) : (unescapeShellQuotes s).length ≤ s.length := by
  fun_induction unescapeShellQuotes s with
  | case1 => exact le_rfl
  | case2 c s _ ih | case4 c s _ ih =>
    simp only [List.length_cons]
    omega
  | case3 c s _ ih =>
    simp only [List.length_cons] at ih ⊢
    omega

/-- `hex.DecodeString` -/
def decodeHex : Text → Option (List UInt8)
  | [] => some []
  | [_] => none
  | high :: low :: rest => do
    let high ← hexDigit high
    let low ← hexDigit low
    return UInt8.ofNat (high * 16 + low) :: (← decodeHex rest)

def plainSocketData : Text → List UInt8
  | [] => []
  | '\\' :: c :: rest => socketEscapeByte c :: plainSocketData rest
  | c :: rest => byteOf c :: plainSocketData rest

private theorem trimSpace_length (s : Text) : (trimSpace s).length ≤ s.length := by
  unfold trimSpace
  rw [List.length_reverse]
  apply (List.dropWhile_sublist _).length_le.trans
  rw [List.length_reverse]
  exact (List.dropWhile_sublist _).length_le

/-- The data without surrounding spaces and, if it starts with an escaped quote, without the escapes. -/
def socketText (value : Text) : Text :=
  let value := trimSpace value
  if ['\\', '"'].isPrefixOf value then unescapeShellQuotes value else value

private theorem socketText_length (value : Text) : (socketText value).length ≤ value.length := by
  have trim := trimSpace_length value
  have unescape := unescapeShellQuotes_length (trimSpace value)
  unfold socketText
  dsimp only
  split_ifs <;> omega

/-- A character, strings, pairs of hexadecimal digits, or plain text; `none` is a syntax error. -/
def parseSocatData (value : Text) : Option (List UInt8) :=
  match _shape : socketText value with
  | [] => some []
  | '\'' :: rest =>
    match rest with
    | [c, '\''] => some [byteOf c]
    | ['\\', c, '\''] => some [socketEscapeByte c]
    | _ => none
  | '"' :: rest =>
    match _string : parseSocketString [] rest with
    | none => none
    | some (out, []) => some out
    | some (out, more) => (parseSocatData more).map (out ++ ·)
  | 'x' :: rest => ((rest.splitOn 'x').mapM decodeHex).map List.flatten
  | 'X' :: _ => none
  | text => some (plainSocketData text)
termination_by value.length
decreasing_by
  have shorter := parseSocketString_shortens _string
  have fits := socketText_length value
  rw [_shape, List.length_cons] at fits
  omega

/-! ## Parsing -/

/-- A literal address, or a name that is looked up when the range is compiled. -/
structure HostTarget where
  literal : Option Addr
  name : Text
deriving DecidableEq, Repr

def targetFromText (text : Text) : HostTarget := ⟨parseAddr (stripBrackets text), text⟩

/-- `IPRange` with its form. -/
inductive IPRange
  | none
  | any
  | cidr (network : Prefix)
  | exact (host : HostTarget)
  | addrMask (host : HostTarget) (mask : IP)
  | hex (net mask : List UInt8)
deriving DecidableEq, Repr

inductive RangeError
  /-- `range:` with the error of the prefix parser. -/
  | invalidPrefix (cidr : Text)
  /-- `range: invalid addr:mask` -/
  | invalidAddrMask (addrPart maskPart : Text)
  /-- `range: invalid hex sockaddr` -/
  | invalidHex
  /-- `range: hex sockaddr too short` -/
  | hexTooShort
  /-- `range: IPv6 mask too short` -/
  | maskTooShort
  /-- `range:` with the error of the lookup. -/
  | lookup (name : Text)
  /-- `range: resolve` with the name and the error of the lookup. -/
  | resolve (name : Text)
deriving DecidableEq, Repr

def parseAddrMask (addrPart maskPart : Text) : Except RangeError IPRange :=
  match parseIP (stripBrackets maskPart) with
  | none => .error (.invalidAddrMask addrPart maskPart)
  | some mask => .ok (.addrMask (targetFromText addrPart) ((to4 mask).getD mask))

/-- Splits before the first `:x` in either case of the letter. -/
def cutColonX (before : Text) : Text → Option (Text × Text)
  | [] => none
  | c :: rest =>
    if c = ':' ∧ (rest.head? = some 'x' ∨ rest.head? = some 'X') then some (before, rest)
    else cutColonX (before ++ [c]) rest

/-- The network and the mask of a hex range are split at the first `:x`, or else at the last colon. -/
def splitHexSockRange (spec : Text) : Option (Text × Text) :=
  match (cutColonX [] spec).filter (·.1 ≠ []) with
  | some parts => some parts
  | none => (cutLast spec ':').filter (·.1 ≠ [])

/-- `none` if the text is not of this form. -/
def parseHexSockRange (spec : Text) : Option (Except RangeError IPRange) :=
  match splitHexSockRange spec with
  | none => none
  | some (netPart, maskPart) =>
    if !containsAny netPart ['x', 'X'] || !containsAny maskPart ['x', 'X'] then none
    else match parseSocatData netPart, parseSocatData maskPart with
      | some net, some mask =>
        if net.length < 6 ∨ mask.length < 6 then some (.error .hexTooShort)
        else if 22 ≤ net.length ∧ mask.length < 22 then some (.error .maskTooShort)
        else some (.ok (.hex net mask))
      | _, _ => some (.error .invalidHex)

def parseCIDRRange (spec : Text) : Except RangeError IPRange :=
  let cidr := match cutLast spec '/' with
    | some (addrPart, length) => if addrPart = [] then spec else stripBrackets addrPart ++ '/' :: length
    | none => spec
  match parsePrefix cidr with
  | some network => .ok (.cidr network)
  | none => match parseCIDR cidr with
    | none => .error (.invalidPrefix cidr)
    | some (network, ones) => match Addr.fromSlice network.ip with
      | none => .error (.invalidPrefix cidr)
      | some addr => .ok (.cidr ⟨addr, ones⟩)

/-- `[addr]:mask` -/
def cutBracketed (spec : Text) : Option (Text × Text) :=
  if spec.head? ≠ some '[' then none
  else match cut spec ']' with
    | (addr, some (':' :: mask)) => some (addr ++ [']'], mask)
    | _ => none

/-- `addr:mask` with a mask of four fields. -/
def cutDotted (spec : Text) : Option (Text × Text) :=
  (cutLast spec ':').filter fun (addr, mask) => addr ≠ [] ∧ mask.count '.' = 3

def parseIPRange (spec : Text) : Except RangeError IPRange :=
  let spec := trimSpace spec
  if spec = [] then .ok .any
  else if spec.contains '/' then parseCIDRRange spec
  else
    let hex := if containsAny spec ['x', 'X'] then parseHexSockRange spec else none
    match hex with
    | some parsed => parsed
    | none => match cutBracketed spec with
      | some (addr, mask) => parseAddrMask addr mask
      | none => match cutDotted spec with
        | some (addr, mask) => parseAddrMask addr mask
        | none => .ok (.exact (targetFromText spec))

/-! ## Matchers -/

/-- The addresses of a host name, or `none` for an error and for no addresses. There is no host whose name has a
colon. -/
structure Resolver where
  lookupIP : Text → Option (List IP)
  refuses : ∀ name, ':' ∈ name → parseAddr name = none → lookupIP name = none

/-- Addresses under a mask: of the candidates the first of the family of the peer, or else the first. -/
def maskedIPMatcher (bases : List IP) (mask ip : IP) : Bool :=
  let base := ((bases.find? fun cand => (to4 cand).isSome == (to4 ip).isSome).or bases.head?).getD []
  match to4 base, to4 mask with
  | some b4, some m4 => match to4 ip with
    | none => false
    | some ip4 => masked ip4 m4 = masked b4 m4
  | _, _ => match to16 base, to16 mask, to16 ip with
    | some b16, some m16, some ip16 => masked ip16 m16 = masked b16 m16
    | _, _, _ => false

def compileHexSockRange (net mask : List UInt8) : Except RangeError (IP → Bool) :=
  if 22 ≤ net.length then
    if mask.length < 22 then .error .maskTooShort
    else .ok (maskedIPMatcher [(net.drop 6).take 16] ((mask.drop 6).take 16))
  else
    -- `net.IPv4` makes the long form
    .ok (maskedIPMatcher [Tcpwrap.mappedHead ++ (net.drop 2).take 4] (Tcpwrap.mappedHead ++ (mask.drop 2).take 4))

def compileAddrMask (resolver : Resolver) (addr : HostTarget) (mask : IP) : Except RangeError (IP → Bool) :=
  match addr.literal with
  | some literal => .ok (maskedIPMatcher [literal.bytes] mask)
  | none => match resolver.lookupIP (stripBrackets addr.name) with
    | none => .error (.resolve addr.name)
    | some ips => .ok (maskedIPMatcher ips mask)

def compileCIDRMatcher (network : Prefix) (ip : IP) : Bool :=
  IPNet.contains ⟨network.addr.bytes, cidrMask network.bits (Addr.bitLen network.addr)⟩ ip

def compileIPRange (resolver : Resolver) : IPRange → Except RangeError (IP → Bool)
  | .none | .any => .ok fun _ => true
  | .cidr network => .ok (compileCIDRMatcher network)
  | .hex net mask => compileHexSockRange net mask
  | .addrMask host mask => compileAddrMask resolver host mask
  | .exact host =>
    match host.literal with
    | some literal => .ok (ipEqual literal.bytes)
    | none => match resolver.lookupIP (stripBrackets host.name) with
      | none => .error (.lookup host.name)
      | some ips => .ok fun ip => ips.any (ipEqual · ip)

/-- The matcher of a range= value. -/
def rangeMatcher (resolver : Resolver) (spec : Text) : Except RangeError (IP → Bool) :=
  parseIPRange spec >>= compileIPRange resolver

end Socat.Xio
