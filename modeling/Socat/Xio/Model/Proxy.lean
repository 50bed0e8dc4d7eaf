import Socat.Machine.Fallible
import Socat.Machine.Lookahead

/-! # Handshakes with a proxy

A connection to a proxy is asked for a tunnel, and the same connection is the tunnel when the proxy has
answered. HTTP reads the answer through a buffer, whose rest goes before the tunnel; SOCKS reads field by field. What
the proxy sends arrives in chunks of its choice. The write that fails is fixed in advance, if there is one;
deadlines are among the errors that end a connection.
-/

namespace Socat.Xio

open Machine

abbrev Bytes := List UInt8

def ascii (s : String) : Bytes := s.toList.map fun c => UInt8.ofNat c.toNat

/-- Why nothing more arrives on a connection. -/
inductive ConnError
  | eof
  /-- The end of the stream inside a field. -/
  | unexpectedEOF
  | failed
deriving DecidableEq, Repr

/-- `io.ReadFull` reports the end of the stream differently when it has a part of the field. -/
def ConnError.short : ConnError → ConnError
  | .eof => .unexpectedEOF
  | e => e

inductive ProxyError
  | write
  /-- `only one of options proxy-authorization and proxy-authorization-file allowed` -/
  | authorizationTwice
  /-- `open("…", O_RDONLY)` -/
  | authorizationFile
  /-- `proxy response:` with the cause. -/
  | response (cause : ProxyError)
  /-- `proxy CONNECT failed:` with the status line, from which the text drops surrounding spaces. -/
  | connectFailed (status : Bytes)
  /-- `proxy response headers exceed 65536 bytes` -/
  | headersExceed
  /-- `proxy response header line exceeds 65536 bytes` -/
  | lineExceeds
  /-- `proxy response line is not CRLF-terminated (use ignorecr to allow LF)` -/
  | notCRLF
  /-- The connection has failed, or the buffered reader has given up. -/
  | read (cause : Option ConnError)
  /-- `socks4: invalid port` -/
  | socks4Port
  /-- `socks4 reply:` with the cause. -/
  | socks4Reply (cause : ConnError)
  /-- `socks4 rejected` with the code. -/
  | socks4Rejected (code : UInt8)
  /-- `socks5 hello:` with the cause. -/
  | socks5Hello (cause : ConnError)
  /-- `socks5: bad version` -/
  | socks5Version (version : UInt8)
  /-- `socks5: authentication with SOCKS5 server failed` -/
  | socks5Unoffered
  /-- `socks5: credentials too long` -/
  | socks5Credentials
  /-- `socks5 auth reply:` with the cause. -/
  | socks5AuthReply (cause : ConnError)
  /-- `socks5 auth failed` with the status. -/
  | socks5AuthFailed (status : UInt8)
  /-- `socks5: no acceptable auth method` -/
  | socks5NoMethod
  /-- `socks5: unsupported auth method` -/
  | socks5Method (method : UInt8)
  /-- `socks5: invalid port` -/
  | socks5Port
  /-- `socks5 reply:` with the cause. -/
  | socks5Reply (cause : ConnError)
  /-- `socks5: bad reply version` -/
  | socks5ReplyVersion (version : UInt8)
  /-- `socks5 request failed` with the code. -/
  | socks5Failed (code : UInt8)
  /-- `socks5: unknown atyp in reply` -/
  | socks5AddrType (atyp : UInt8)
deriving DecidableEq, Repr

/-- A connection to a proxy: what arrives on it, what was sent, how many more writes succeed if not all do, and
whether it was closed. -/
structure Conn where
  source : Source UInt8 ConnError
  sent : Bytes := []
  writes : Option ℕ := none
  closed : Bool := false
deriving DecidableEq, Repr

abbrev Handshake := EStateM ProxyError Conn

def Conn.write (data : Bytes) : Handshake Unit := fun c =>
  match c.writes with
  | some 0 => .error .write c
  | some (n + 1) => .ok () { c with writes := some n, sent := c.sent ++ data }
  | none => .ok () { c with sent := c.sent ++ data }

/-- `io.ReadFull` -/
def Conn.readFull (n : ℕ) (wrap : ConnError → ProxyError) : Handshake Bytes := fun c =>
  let (answer, source) := c.source.readFull ConnError.short n
  match answer.error with
  | some e => .error (wrap e) { c with source }
  | none => .ok answer.items { c with source }

def uint16 (n : ℕ) : Bytes := [UInt8.ofNat (n / 256), UInt8.ofNat (n % 256)]

/-! ## HTTP -/

def maxHTTP1ProxyResponseBytes : ℕ := 65536

/-- The options of the proxy; an empty text is an option that was not given. -/
structure Proxy where
  ignoreCR : Bool
  authorization : Bytes
  authorizationFile : Bytes
deriving DecidableEq, Repr

/-- What lies outside: files and the coding of credentials. -/
structure Files where
  readFile : Bytes → Option Bytes
  base64 : Bytes → Bytes

def proxyAuthString (files : Files) (proxy : Proxy) : Except ProxyError Bytes :=
  if proxy.authorization ≠ [] ∧ proxy.authorizationFile ≠ [] then .error .authorizationTwice
  else if proxy.authorizationFile ≠ [] then
    match files.readFile proxy.authorizationFile with
    | none => .error .authorizationFile
    | some content => .ok content
  else .ok proxy.authorization

def proxyAuthHeader (files : Files) (proxy : Proxy) : Except ProxyError Bytes := do
  let raw ← proxyAuthString files proxy
  if raw = [] then return []
  return ascii "Proxy-authorization: Basic " ++ files.base64 raw ++ ascii "\r\n"

/-- An IPv6 address stands in brackets. -/
def proxyCONNECTTarget (host : Bytes) (port : ℕ) : Bytes :=
  let host := if host.contains 0x3a then ascii "[" ++ host ++ ascii "]" else host
  host ++ ascii ":" ++ ascii (toString port)

/-- The start of a status line that is accepted, and the text behind it without spaces is a code of 200. -/
def proxyStatusOK (status : Bytes) : Bool :=
  let line := (status.reverse.dropWhile fun b => b = 0x0d ∨ b = 0x0a).reverse
  let code : Option Bytes :=
    if (ascii "HTTP/1.0 ").isPrefixOf line ∨ (ascii "HTTP/1.1 ").isPrefixOf line then some (line.drop 9)
    else if !(ascii "HTTP/1.").isPrefixOf line then none
    else match line.dropWhile (· ≠ 0x20) with
      | [] => none
      | _ :: rest => some rest
  match code with
  | none => false
  | some rest => (rest.dropWhile (· = 0x20)).take 3 = ascii "200"

/-- The buffered reader, and the bytes of the lines so far. -/
structure Response where
  reader : Lookahead UInt8 ConnError
  total : ℕ := 0
deriving DecidableEq, Repr

/-- One line. A reader that is not told to ignore carriage returns wants one before every newline. -/
def readProxyResponseLine (ignoreCR : Bool) (wrap : ProxyError → ProxyError) :
    EStateM ProxyError Response Bytes := fun r =>
  let (answer, reader) := r.reader.readSlice (maxHTTP1ProxyResponseBytes + 1) 100 0x0a
  let total := r.total + answer.items.length
  let r : Response := ⟨reader, total⟩
  if maxHTTP1ProxyResponseBytes < total then .error (wrap .headersExceed) r
  else match answer.error with
    | some .full => .error (wrap .lineExceeds) r
    | some .noProgress => .error (wrap (.read none)) r
    | some (.source e) => .error (wrap (.read (some e))) r
    | none =>
      if ignoreCR then .ok (answer.items.filter (· ≠ 0x0d)) r
      else if !(ascii "\r\n").isSuffixOf answer.items then .error (wrap .notCRLF) r
      else .ok answer.items r

def proxyHTTP1BlankLine (line : Bytes) : Bool := line = ascii "\r\n" ∨ line = ascii "\n"

/-- Headers up to the blank line. -/
def drainHeaders (ignoreCR : Bool) : ℕ → EStateM ProxyError Response Unit
  | 0 => throw .headersExceed
  | fuel + 1 => do
    let line ← readProxyResponseLine ignoreCR id
    if proxyHTTP1BlankLine line then pure () else drainHeaders ignoreCR fuel

def readProxyResponse (ignoreCR : Bool) : EStateM ProxyError Response Unit := do
  let status ← readProxyResponseLine ignoreCR .response
  throwIf (proxyStatusOK status = false) (.connectFailed status)
  let r ← get
  -- every line has at least one byte
  drainHeaders ignoreCR (r.reader.content.length + 1)

/-- The bytes that were read with the answer and go before the tunnel, or `none` if the connection is returned as
it is. -/
def proxyHTTP1Handshake (files : Files) (proxy : Proxy) (connectHost : Bytes) (targetPort : ℕ) (version : Bytes) :
    Handshake (Option Bytes) := do
  let auth ← lift (proxyAuthHeader files proxy)
  Conn.write (ascii "CONNECT " ++ proxyCONNECTTarget connectHost targetPort ++ ascii " HTTP/" ++ version ++
    ascii "\r\n" ++
    auth ++ ascii "\r\n")
  let c ← get
  match readProxyResponse proxy.ignoreCR ⟨⟨c.source, [], none⟩, 0⟩ with
  | .error e r => do
    set { c with source := r.reader.source }
    throw e
  | .ok _ r => do
    set { c with source := r.reader.source }
    return if r.reader.ahead = [] then none else some r.reader.ahead

/-- `prefixConn` -/
structure PrefixConn where
  ahead : Bytes
  source : Source UInt8 ConnError
deriving DecidableEq, Repr

def PrefixConn.read (n : ℕ) (p : PrefixConn) : Answer UInt8 ConnError × PrefixConn :=
  if p.ahead ≠ [] then (⟨p.ahead.take n, none⟩, { p with ahead := p.ahead.drop n })
  else ((p.source.read n).1, { p with source := (p.source.read n).2 })

/-! ## SOCKS 4 -/

def socks4ReadReply : Handshake Unit := do
  let resp ← Conn.readFull 8 .socks4Reply
  throwIf (resp.getD 1 0 ≠ 90) (.socks4Rejected (resp.getD 1 0))

def socks4Handshake (socks4a : Bool) (user hostName : Bytes) (ip4 : Bytes) (portNum : ℤ) : Handshake Unit := do
  throwIf (portNum < 0 ∨ 65535 < portNum) .socks4Port
  Conn.write ([4, 1] ++ uint16 portNum.toNat ++ ip4 ++ user ++ [0] ++ if socks4a then hostName ++ [0] else [])
  socks4ReadReply

/-! ## SOCKS 5 -/

inductive Socks5Command
  | connect
  | bind
deriving DecidableEq, Repr

def Socks5Command.code : Socks5Command → UInt8
  | .connect => 1
  | .bind => 2

structure Socks5Dest where
  addrType : UInt8
  addr : Bytes
  port : ℤ
deriving DecidableEq, Repr

structure Socks5Auth where
  user : Bytes
  pass : Bytes
  offerUserPass : Bool
deriving DecidableEq, Repr

def socks5AuthMethods (offerUserPass : Bool) : Bytes := if offerUserPass then [0, 2] else [0]

/-- The address behind the header is read and dropped. -/
def socks5ReadReply : Handshake Unit := do
  let hdr ← Conn.readFull 4 .socks5Reply
  throwIf (hdr.getD 0 0 ≠ 5) (.socks5ReplyVersion (hdr.getD 0 0))
  throwIf (hdr.getD 1 0 ≠ 0) (.socks5Failed (hdr.getD 1 0))
  if hdr.getD 3 0 = 1 then
    let _ ← Conn.readFull 6 fun e => .read (some e)
  else if hdr.getD 3 0 = 4 then
    let _ ← Conn.readFull 18 fun e => .read (some e)
  else if hdr.getD 3 0 = 3 then
    let ln ← Conn.readFull 1 fun e => .read (some e)
    let _ ← Conn.readFull ((ln.getD 0 0).toNat + 2) fun e => .read (some e)
  else throw (.socks5AddrType (hdr.getD 3 0))

def socks5Authenticate (auth : Socks5Auth) : Handshake Unit := do
  throwIf (auth.offerUserPass = false) .socks5Unoffered
  throwIf (255 < auth.user.length ∨ 255 < auth.pass.length) .socks5Credentials
  Conn.write ([1, UInt8.ofNat auth.user.length] ++ auth.user ++ [UInt8.ofNat auth.pass.length] ++ auth.pass)
  let aresp ← Conn.readFull 2 .socks5AuthReply
  throwIf (aresp.getD 1 0 ≠ 0) (.socks5AuthFailed (aresp.getD 1 0))

/-- The server chooses a method; it may choose none although credentials were offered. -/
def socks5Negotiate (auth : Socks5Auth) : Handshake Unit := do
  let methods := socks5AuthMethods auth.offerUserPass
  Conn.write ([5, UInt8.ofNat methods.length] ++ methods)
  let hello ← Conn.readFull 2 .socks5Hello
  throwIf (hello.getD 0 0 ≠ 5) (.socks5Version (hello.getD 0 0))
  if hello.getD 1 0 = 0 then pure ()
  else if hello.getD 1 0 = 2 then socks5Authenticate auth
  else if hello.getD 1 0 = 0xff then throw .socks5NoMethod
  else throw (.socks5Method (hello.getD 1 0))

/-- A bind is answered twice: when the port is open, and when a peer has connected. -/
def socks5Request (cmd : Socks5Command) (dest : Socks5Dest) : Handshake Unit := do
  throwIf (dest.port < 0 ∨ 65535 < dest.port) .socks5Port
  Conn.write ([5, cmd.code, 0, dest.addrType] ++ dest.addr ++ uint16 dest.port.toNat)
  socks5ReadReply
  runIf (cmd = .bind) socks5ReadReply

/-- A handshake that fails closes the connection. -/
def socks5Handshake (cmd : Socks5Command) (dest : Socks5Dest) (auth : Socks5Auth) : Handshake Unit := fun c =>
  match (do socks5Negotiate auth; socks5Request cmd dest : Handshake Unit) c with
  | .ok _ c => .ok () c
  | .error e c => .error e { c with closed := true }

end Socat.Xio
