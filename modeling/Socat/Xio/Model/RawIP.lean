import Mathlib.Data.Nat.Notation

/-! # Reading raw IP sockets

The kernel hands out IPv4 packets with their header. A read stores one packet in the caller's buffer, drops the header
in place if it recognises a complete packet, and reports how many bytes of the buffer count. Ancillary data, which a
read only passes on to the log and the environment, is left out.
-/

namespace Socat.Xio.RawIP

abbrev Bytes := List UInt8

inductive ReadError
  | eof
  | receive
  | stopped
deriving DecidableEq, Repr

/-- The buffer after a read, and what the read returned. -/
structure Received where
  buffer : Bytes
  result : ℕ × Option ReadError

def headerLength (p : Bytes) : ℕ := (p.getD 0 0 &&& 0x0f).toNat * 4

def totalLength (p : Bytes) : ℕ := (p.getD 2 0).toNat <<< 8 ||| (p.getD 3 0).toNat

/-- The buffer with the header dropped, and the bytes that count. -/
def skipIPv4HeaderIfPresent (p : Bytes) (n : ℕ) : Bytes × ℕ :=
  if n < 20 then (p, n)
  else if p.getD 0 0 >>> 4 ≠ 4 then (p, n)
  else
    let ihl := headerLength p
    if ihl < 20 ∨ n < ihl then (p, n)
    else if totalLength p ≠ n then (p, n)
    else ((p.take n).drop ihl ++ p.drop (n - ihl), n - ihl)

def zeroLengthMessageEOF (n : ℕ) (err : Option ReadError) (bufLen : ℕ) : ℕ × Option ReadError :=
  if n = 0 ∧ err = none ∧ 0 < bufLen then (0, some .eof) else (n, err)

def afterRawIPRecv (n kernelN bufLen : ℕ) : ℕ × Option ReadError :=
  if kernelN = 0 then (0, none) else zeroLengthMessageEOF n none bufLen

/-- Both readers end with this, once `kernelN` bytes were received. -/
def deliver (v4 : Bool) (p : Bytes) (kernelN : ℕ) : Received :=
  let (q, n) := if v4 then skipIPv4HeaderIfPresent p kernelN else (p, kernelN)
  ⟨q, afterRawIPRecv n kernelN p.length⟩

/-- What the kernel has for a read. -/
inductive Arrival
  | packet (bytes : Bytes)
  | failed (n : ℕ)

/-- The kernel stores as much of a packet as fits. -/
def store (p packet : Bytes) : Bytes := packet.take p.length ++ p.drop packet.length

/-- `rawIPConn.Read`. -/
def rawIPConnRead (v4 : Bool) (p : Bytes) : Arrival → Received
  | .packet bytes => deliver v4 (store p bytes) (min p.length bytes.length)
  | .failed n => ⟨p, n, some .receive⟩

/-- What the peer filter makes of a packet: a refusal is logged, unless the session is over. -/
inductive Verdict
  | keep
  | refuse
  | stop

/-- The loop over the packets that arrive; `none` while it waits for the next one. -/
def readRawIPFiltered (v4 : Bool) : Bytes → List (Arrival × Verdict) → Option Received
  | _, [] => none
  | p, (.failed n, _) :: _ => some ⟨p, n, some .receive⟩
  | p, (.packet bytes, .keep) :: _ => some (deliver v4 (store p bytes) (min p.length bytes.length))
  | p, (.packet bytes, .refuse) :: rest => readRawIPFiltered v4 (store p bytes) rest
  | p, (.packet bytes, .stop) :: _ => some ⟨store p bytes, 0, some .stopped⟩

end Socat.Xio.RawIP
