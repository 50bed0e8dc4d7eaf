import Mathlib

/-! # Bytes, errors and the wire reader

Handshake bodies are read and written through `wireReader` and `wireWriter`. A reader that runs
out of input becomes failed and returns empty values from then on; every parser checks the flag
once at its end. Integers on the wire are big-endian. Errors keep the identities the session
branches on: an alert code, a transport failure, or one of the named sentinel errors.
-/

namespace Socat.Dtls13

abbrev Bytes := List UInt8

instance : LawfulBEq Bytes := inferInstance

/-- The zero time stands for an unset timer. -/
abbrev Time := ℕ

abbrev Duration := ℕ

/-- What a send callback can answer besides success. -/
inductive SendError where
  | messageTooLong
  | closed
  | pending
  | other
deriving DecidableEq, Repr

inductive Err where
  | alert (code : UInt8)
  | fragmentConflict
  | handshakeLimit
  | handshakeTimeout
  | operationPending
  | pathPending
  | keyMaterial
  | cipherSuite
  | record
  | recordOverflow
  | sequence
  | replay
  | authentication
  | malformedACK
  | probeDisabled
  | probePending
  | probeBusy
  | probeSize
  | probeTooBig
  | transport (cause : SendError)
  | random
  | setLocal
  | signature
  | certificate
  | config
  /-- A Go run-time panic: the source dereferences a missing map entry here. -/
  | nilDereference
deriving DecidableEq, Repr

namespace Err

abbrev unexpectedMessage : Err := .alert 10
abbrev illegalParameter : Err := .alert 47
abbrev decode : Err := .alert 50

/-- `isMessageTooLong` looks through the wrapper the transport puts around EMSGSIZE. -/
def isMessageTooLong : Err → Bool
  | .transport .messageTooLong => true
  | _ => false

end Err

/-- The alert body a driver sends for the error that ended its association. -/
def errorAlert : Err → Bytes
  | .alert code => [2, code]
  | .fragmentConflict => [2, 47]
  | .signature => [2, 51]
  | .certificate => [2, 42]
  | .recordOverflow => [2, 22]
  | _ => [2, 80]

/-! ## Big-endian integers -/

def be16 (n : ℕ) : Bytes := [UInt8.ofNat (n / 256), UInt8.ofNat n]

def be24 (n : ℕ) : Bytes := [UInt8.ofNat (n / 65536), UInt8.ofNat (n / 256), UInt8.ofNat n]

/-- The low `width` bytes of `n`, most significant first. -/
def bigEndian (n : ℕ) : ℕ → Bytes
  | 0 => []
  | width + 1 => bigEndian (n / 256) width ++ [UInt8.ofNat n]

/-- The number a big-endian byte string denotes. -/
def readNat (bytes : Bytes) : ℕ := bytes.foldl (fun value byte => value * 256 + byte.toNat) 0

@[simp] theorem be16_length (n : ℕ) : (be16 n).length = 2 := rfl

@[simp] theorem be24_length (n : ℕ) : (be24 n).length = 3 := rfl

@[simp] theorem bigEndian_length (n width : ℕ) : (bigEndian n width).length = width := by
  induction width generalizing n with
  | zero => rfl
  | succ width ih => simp [bigEndian, ih]

/-- One more byte at the end shifts what was read before it. -/
theorem readNat_concat (bytes : Bytes) (byte : UInt8) :
    readNat (bytes ++ [byte]) = readNat bytes * 256 + byte.toNat := by
  simp only [readNat, List.foldl_append, List.foldl_cons, List.foldl_nil]

theorem readNat_bigEndian (n width : ℕ) : readNat (bigEndian n width) = n % 256 ^ width := by
  induction width generalizing n with
  | zero => simp [bigEndian, readNat, Nat.mod_one]
  | succ width ih =>
    have low : (UInt8.ofNat n).toNat = n % 256 := UInt8.toNat_ofNat'
    rw [bigEndian, readNat_concat, ih, low, pow_succ', Nat.mod_mul]
    omega

theorem be16_eq_bigEndian (n : ℕ) : be16 n = bigEndian n 2 := rfl

private theorem be24_eq_bigEndian (n : ℕ) : be24 n = bigEndian n 3 := by
  simp [be24, bigEndian, Nat.div_div_eq_div_mul]

theorem readNat_be16 {n : ℕ} (bound : n < 65536) : readNat (be16 n) = n := by
  rw [be16_eq_bigEndian, readNat_bigEndian]
  exact Nat.mod_eq_of_lt bound

theorem readNat_be24 {n : ℕ} (bound : n < 16777216) : readNat (be24 n) = n := by
  rw [be24_eq_bigEndian, readNat_bigEndian]
  exact Nat.mod_eq_of_lt bound

/-! ## Reader and writer -/

structure WireReader where
  data : Bytes
  failed : Bool := false
deriving DecidableEq, Repr

namespace WireReader

def take (r : WireReader) (n : ℕ) : Bytes × WireReader :=
  if r.failed || r.data.length < n then ([], { r with failed := true })
  else (r.data.take n, { r with data := r.data.drop n })

def readUint8 (r : WireReader) : UInt8 × WireReader :=
  let (bytes, r) := r.take 1
  (bytes.headD 0, r)

def readUint16 (r : WireReader) : ℕ × WireReader :=
  let (bytes, r) := r.take 2
  (readNat bytes, r)

def uint24 (r : WireReader) : ℕ × WireReader :=
  let (bytes, r) := r.take 3
  (readNat bytes, r)

def vector8 (r : WireReader) : Bytes × WireReader :=
  let (n, r) := r.readUint8
  r.take n.toNat

def vector16 (r : WireReader) : Bytes × WireReader :=
  let (n, r) := r.readUint16
  r.take n

def vector24 (r : WireReader) : Bytes × WireReader :=
  let (n, r) := r.uint24
  r.take n

/-- `done` fails on a reader that ran short and on trailing bytes. -/
def done (r : WireReader) : Bool := !r.failed && r.data.isEmpty

theorem take_append (front rest : Bytes) :
    (WireReader.mk (front ++ rest) false).take front.length = (front, ⟨rest, false⟩) := by
  simp [take]

theorem vector16_append (data rest : Bytes) (bound : data.length ≤ 65535) :
    (WireReader.mk (be16 data.length ++ data ++ rest) false).vector16 = (data, ⟨rest, false⟩) := by
  have size : readNat (be16 data.length) = data.length := readNat_be16 (by omega)
  have front := take_append (be16 data.length) (data ++ rest)
  rw [be16_length] at front
  simp only [vector16, readUint16, List.append_assoc, front, size, take_append]

end WireReader

structure WireWriter where
  data : Bytes := []
  failed : Bool := false
deriving DecidableEq, Repr

namespace WireWriter

def writeUint8 (w : WireWriter) (v : UInt8) : WireWriter := { w with data := w.data ++ [v] }

def writeUint16 (w : WireWriter) (v : ℕ) : WireWriter := { w with data := w.data ++ be16 v }

def uint24 (w : WireWriter) (v : ℕ) : WireWriter :=
  if 0xffffff < v then { w with failed := true } else { w with data := w.data ++ be24 v }

def vector8 (w : WireWriter) (v : Bytes) : WireWriter :=
  if 255 < v.length then { w with failed := true }
  else { w with data := w.data ++ UInt8.ofNat v.length :: v }

def vector16 (w : WireWriter) (v : Bytes) : WireWriter :=
  if 65535 < v.length then { w with failed := true }
  else { w with data := w.data ++ be16 v.length ++ v }

def vector24 (w : WireWriter) (v : Bytes) : WireWriter :=
  if 0xffffff < v.length then { w with failed := true }
  else { w with data := w.data ++ be24 v.length ++ v }

def result (w : WireWriter) : Except Err Bytes := if w.failed then .error .decode else .ok w.data

end WireWriter

end Socat.Dtls13
