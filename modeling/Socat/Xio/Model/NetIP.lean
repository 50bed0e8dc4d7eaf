import Socat.Tcpwrap.Model.Pattern
import Socat.ToMathlib.LeadingBits

/-! # Addresses and networks of `net` and `net/netip`

What `range=` uses of the two packages: the address parser, prefixes and networks. A parser that fails gives
`none`; the texts of its errors are left out.
-/

namespace Socat.Xio

open Tcpwrap (IP Addr Text to4 is4In6 mappedHead cut isDigit digitValue)

/-! ## Forms of an address -/

def to16 (ip : IP) : Option IP :=
  if ip.length = 4 then some (mappedHead ++ ip) else if ip.length = 16 then some ip else none

/-- The number of bits of an address. -/
def Addr.bitLen (a : Addr) : ℕ := 8 * a.bytes.length

/-! ## The address parser -/

/-- The four fields of `a.b.c.d`. A field has no leading zero and is at most 255. -/
def parseIPv4Fields (fields : IP) (val digLen : ℕ) : Text → Option IP
  | [] => if fields.length < 3 then none else some (fields ++ [UInt8.ofNat val])
  | c :: rest =>
    if isDigit c then
      if digLen = 1 ∧ val = 0 then none
      else if 255 < val * 10 + digitValue c then none
      else parseIPv4Fields fields (val * 10 + digitValue c) (digLen + 1) rest
    else if c = '.' then
      -- a field is empty, or there are too many
      if digLen = 0 ∨ rest = [] then none
      else if fields.length = 3 then none
      else parseIPv4Fields (fields ++ [UInt8.ofNat val]) 0 0 rest
    else none

def parseIPv4 (s : Text) : Option Addr := (parseIPv4Fields [] 0 0 s).map fun bytes => ⟨bytes, []⟩

def hexDigit (c : Char) : Option ℕ :=
  if isDigit c then some (digitValue c)
  else if 'a' ≤ c ∧ c ≤ 'f' then some (c.toNat - 'a'.toNat + 10)
  else if 'A' ≤ c ∧ c ≤ 'F' then some (c.toNat - 'A'.toNat + 10)
  else none

def isHex (c : Char) : Bool := (hexDigit c).isSome

def hexValue (s : Text) : ℕ := s.foldl (fun acc c => acc * 16 + (hexDigit c).getD 0) 0

/-- The two bytes of a group. -/
def groupBytes (digits : Text) : IP := [UInt8.ofNat (hexValue digits / 256), UInt8.ofNat (hexValue digits % 256)]

/-- The loop of `parseIPv6`: the bytes so far, the position of the ellipsis in them, and the text that is left.
There is room for this many more groups. -/
def parseGroups : ℕ → IP → Option ℕ → Text → Option (IP × Option ℕ × Text)
  | 0, ip, ellipsis, s => some (ip, ellipsis, s)
  | room + 1, ip, ellipsis, s =>
    let digits := s.takeWhile isHex
    if digits = [] ∨ 4 < digits.length then none
    else
      let next := ip ++ groupBytes digits
      match s.dropWhile isHex with
      | '.' :: _ =>
        -- an IPv4 address takes the place of the last two groups
        if ellipsis = none ∧ ip.length ≠ 12 then none
        else if 16 < ip.length + 4 then none
        else (parseIPv4Fields [] 0 0 s).map fun quad => (ip ++ quad, ellipsis, [])
      | [] => some (next, ellipsis, [])
      | [':'] => none
      | ':' :: ':' :: rest =>
        if ellipsis.isSome then none
        else if rest = [] then some (next, some next.length, [])
        else parseGroups room next (some next.length) rest
      | ':' :: rest => parseGroups room next ellipsis rest
      | _ => none

/-- The end of `parseIPv6`: all text was used, and an ellipsis stands for at least one group. -/
def expandGroups : IP × Option ℕ × Text → Option IP
  | (ip, ellipsis, s) =>
    if s ≠ [] then none
    else match ellipsis with
      | none => if ip.length < 16 then none else some ip
      | some at' =>
        if ip.length < 16 then some (ip.take at' ++ List.replicate (16 - ip.length) 0 ++ ip.drop at') else none

/-- An IPv6 address without its zone. -/
def parseHextets (s : Text) : Option IP :=
  match s with
  | [':', ':'] => some (List.replicate 16 0)
  | ':' :: ':' :: rest => (parseGroups 8 [] (some 0) rest).bind expandGroups
  | _ => (parseGroups 8 [] none s).bind expandGroups

def parseIPv6 (s : Text) : Option Addr :=
  match cut s '%' with
  | (address, none) => (parseHextets address).map fun bytes => ⟨bytes, []⟩
  | (_, some []) => none
  | (address, some zone) => (parseHextets address).map fun bytes => ⟨bytes, zone⟩

/-- The first separator tells the family. -/
def parseAddr (s : Text) : Option Addr :=
  match s.find? fun c => c = '.' ∨ c = ':' ∨ c = '%' with
  | some '.' => parseIPv4 s
  | some ':' => parseIPv6 s
  | _ => none

/-- `net.ParseIP` takes no zone, and gives the long form. -/
def parseIP (s : Text) : Option IP :=
  (parseAddr s).bind fun addr => if addr.zone = [] then to16 addr.bytes else none

/-! ## Prefixes and networks -/

/-- Splits at the last byte of this value. -/
def cutLast (s : Text) (c : Char) : Option (Text × Text) :=
  match s.reverse.dropWhile (· ≠ c) with
  | [] => none
  | _ :: before => some (before.reverse, (s.reverse.takeWhile (· ≠ c)).reverse)

def decimal (s : Text) : Option ℕ :=
  if s = [] ∨ !s.all isDigit then none else some (s.foldl (fun n c => n * 10 + digitValue c) 0)

/-- `netip.Prefix` -/
structure Prefix where
  addr : Addr
  bits : ℕ
deriving DecidableEq, Repr

/-- `netip.ParsePrefix`: no zone, and a length without a leading zero. -/
def parsePrefix (s : Text) : Option Prefix := do
  let (address, length) ← cutLast s '/'
  let addr ← parseAddr address
  if addr.is6 ∧ addr.zone ≠ [] then none
  if 1 < length.length ∧ length.head? = some '0' then none
  let bits ← decimal length
  if Addr.bitLen addr < bits then none
  return ⟨addr, bits⟩

/-- `net.CIDRMask` of a prefix that fits. -/
def cidrMask (ones bitLen : ℕ) : IP := leadingMask ones (bitLen / 8)

/-- `net.IPNet` -/
structure IPNet where
  ip : IP
  mask : IP
deriving DecidableEq, Repr

/-- `net.ParseCIDR`, which also reads leading zeros; the network has the short form for IPv4. -/
def parseCIDR (s : Text) : Option (IPNet × ℕ) :=
  match cut s '/' with
  | (_, none) => none
  | (address, some length) => do
    let addr ← parseAddr address
    if addr.zone ≠ [] then none
    let ones ← decimal length
    if Addr.bitLen addr < ones then none
    let mask := cidrMask ones (Addr.bitLen addr)
    return (⟨masked addr.bytes mask, mask⟩, ones)

/-- `networkNumberAndMask`: a mapped network counts as an IPv4 network. -/
def IPNet.numberAndMask (n : IPNet) : Option (IP × IP) :=
  let ip := (to4 n.ip).getD n.ip
  if ip.length ≠ 4 ∧ ip.length ≠ 16 then none
  else if n.mask.length = 4 then
    if ip.length ≠ 4 then none else some (ip, n.mask)
  else if n.mask.length = 16 then some (ip, if ip.length = 4 then n.mask.drop 12 else n.mask)
  else none

def IPNet.contains (n : IPNet) (ip : IP) : Bool :=
  let ip := (to4 ip).getD ip
  match n.numberAndMask with
  | none => ip = []
  | some (number, mask) => ip.length = number.length ∧ masked number mask = masked ip mask

end Socat.Xio
