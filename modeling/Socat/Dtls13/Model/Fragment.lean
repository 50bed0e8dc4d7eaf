import Socat.Dtls13.Model.Wire

/-! # Handshake fragments and their reassembly

A message is sent as fragments that name its total length and their offset in it. The reassembler
keeps one entry for each of at most sixteen sequences from the next expected one on, and hands out
messages in order. A fragment can be refused without an error, when it lies beyond the window,
exceeds the reserve for future messages, or finds the memory budget exhausted; a record is accepted
only if none of its fragments was refused. Memory budgets are shared between associations, so the
reassembler is written against any budget that answers reservations.
-/

namespace Socat.Dtls13

def handshakeHeader : ℕ := 12
def maxHandshakeBody : ℕ := 2 ^ 20
def maxPendingMessages : ℕ := 16

structure HandshakeMessage where
  typ : UInt8
  sequence : ℕ
  epoch : ℕ
  body : Bytes
deriving DecidableEq, Repr

def HandshakeMessage.fragment (m : HandshakeMessage) (offset length : ℕ) : Except Err Bytes :=
  if maxHandshakeBody < m.body.length then .error .handshakeLimit
  else if m.body.length < offset ∨ m.body.length - offset < length then .error .decode
  else
    ((((({} : WireWriter).writeUint8 m.typ).uint24 m.body.length).writeUint16 m.sequence).uint24
      offset |>.vector24 ((m.body.drop offset).take length)).result

structure HandshakeFragment where
  typ : UInt8
  sequence : ℕ
  total : ℕ
  offset : ℕ
  body : Bytes
deriving DecidableEq, Repr

def parseFragment (data : Bytes) : Except Err (HandshakeFragment × Bytes) :=
  let (typ, r) := (WireReader.mk data false).readUint8
  let (total, r) := r.uint24
  let (sequence, r) := r.readUint16
  let (offset, r) := r.uint24
  let (body, r) := r.vector24
  if r.failed ∨ total < offset ∨ total - offset < body.length then .error .decode
  else .ok (⟨typ, sequence, total, offset, body⟩, r.data)

/-! ## Memory budgets -/

/-- A budget answers reservations and takes releases; other holders may use it in between. -/
class Budget (β : Type*) where
  reserve : β → ℕ → Bool × β
  release : β → ℕ → β

/-- `memoryBudget` of one holder. A nil budget grants everything. -/
structure MemoryBudget where
  used : ℤ := 0
  limit : ℤ
deriving DecidableEq, Repr

instance : Budget (Option MemoryBudget) where
  reserve
    | none, _ => (true, none)
    | some b, size =>
      if b.limit - b.used < size then (false, some b) else (true, some { b with used := b.used + size })
  release b size := b.map fun b => { b with used := b.used - size }

def fragmentCost (size : ℕ) : ℕ := size + (size + 7) / 8 + 128

/-! ## The reassembler -/

/-- A message under reassembly: `seen` marks the body bytes already stored. -/
structure PartialHandshake where
  message : HandshakeMessage
  seen : List Bool
  remaining : ℕ
deriving DecidableEq, Repr

namespace PartialHandshake

/-- A fresh entry for a fragment's message. -/
def start (f : HandshakeFragment) (epoch : ℕ) : PartialHandshake where
  message := ⟨f.typ, f.sequence, epoch, List.replicate f.total 0⟩
  seen := List.replicate f.total false
  remaining := f.total

/-- Store one byte that was not seen before. -/
def put (p : PartialHandshake) (position : ℕ) (byte : UInt8) : PartialHandshake where
  message := { p.message with body := p.message.body.set position byte }
  seen := p.seen.set position true
  remaining := p.remaining - 1

/-- Store bytes from `position` on. A byte seen before must agree; the first disagreement stops
the copy and keeps what was stored. -/
def store (p : PartialHandshake) (position : ℕ) : Bytes → Bool × PartialHandshake
  | [] => (true, p)
  | byte :: rest =>
    if p.seen.getD position false then
      if p.message.body.getD position 0 = byte then p.store (position + 1) rest else (false, p)
    else (p.put position byte).store (position + 1) rest

def prefixLength (p : PartialHandshake) : ℕ := (p.seen.takeWhile id).length

end PartialHandshake

structure Reassembler where
  next : ℕ := 0
  pending : AList (fun _ : ℕ => PartialHandshake) := ∅
  buffered : ℕ := 0
deriving DecidableEq

namespace Reassembler

/-- The entry of the next expected message. -/
def head (r : Reassembler) : Option PartialHandshake := r.pending.lookup (r.next % 65536)

/-- Copy a fragment into its entry, which must describe the same message. -/
def storeInto (r : Reassembler) (p : PartialHandshake) (f : HandshakeFragment) (epoch : ℕ) :
    Except Err Bool × Reassembler :=
  if p.message.typ ≠ f.typ ∨ p.message.epoch ≠ epoch ∨ p.message.body.length ≠ f.total then
    (.error .fragmentConflict, r)
  else
    let (agrees, p) := p.store f.offset f.body
    (if agrees then .ok true else .error .fragmentConflict,
      { r with pending := r.pending.insert f.sequence p })

/-- Bytes buffered for messages other than the next expected one. -/
def futureBytes (r : Reassembler) : ℕ :=
  r.buffered - (r.head.map fun p => p.message.body.length).getD 0

variable {β : Type*} [Budget β]

def insert (r : Reassembler) (budget : β) (f : HandshakeFragment) (epoch : ℕ) : Except Err Bool × Reassembler × β :=
  if f.sequence < r.next then (.ok true, r, budget)
  else if maxPendingMessages ≤ f.sequence - r.next then (.ok false, r, budget)
  else if maxHandshakeBody < f.total then (.error .handshakeLimit, r, budget)
  else
    match r.pending.lookup f.sequence with
    | some p =>
      let (result, r) := r.storeInto p f epoch
      (result, r, budget)
    | none =>
      if f.sequence ≠ r.next ∧ maxHandshakeBody < r.futureBytes + f.total then (.ok false, r, budget)
      else
        let (granted, budget) := Budget.reserve budget (fragmentCost f.total)
        if granted = false then (.ok false, r, budget)
        else
          let p := PartialHandshake.start f epoch
          let r := { r with
            pending := r.pending.insert f.sequence p
            buffered := r.buffered + f.total }
          let (result, r) := r.storeInto p f epoch
          (result, r, budget)

/-- The loop of `add`. Every fragment takes at least its header off the data, so the length of the
data bounds the iterations. -/
def addLoop : ℕ → Reassembler → β → Bytes → ℕ → Bool → Except Err Bool × Reassembler × β
  | 0, r, budget, _, _, accepted => (.ok accepted, r, budget)
  | fuel + 1, r, budget, data, epoch, accepted =>
    if data = [] then (.ok accepted, r, budget)
    else
      match parseFragment data with
      | .error e => (.error e, r, budget)
      | .ok (f, rest) =>
        match r.insert budget f epoch with
        | (.error e, r, budget) => (.error e, r, budget)
        | (.ok stored, r, budget) => addLoop fuel r budget rest epoch (accepted && stored)

/-- `add` reports whether every fragment of a record was buffered or processed before. -/
def add (r : Reassembler) (budget : β) (data : Bytes) (epoch : ℕ) : Except Err Bool × Reassembler × β :=
  if data = [] then (.error .decode, r, budget)
  else addLoop data.length r budget data epoch true

def pop (r : Reassembler) (budget : β) : Option HandshakeMessage × Reassembler × β :=
  if 65535 < r.next then (none, r, budget)
  else
    match r.pending.lookup r.next with
    | none => (none, r, budget)
    | some p =>
      if p.remaining ≠ 0 then (none, r, budget)
      else
        (some p.message,
          { next := r.next + 1
            pending := r.pending.erase r.next
            buffered := r.buffered - p.message.body.length },
          Budget.release budget (fragmentCost p.message.body.length))

/-- Give up everything that is buffered. -/
def reset (r : Reassembler) (budget : β) : Reassembler × β :=
  ({ r with pending := ∅, buffered := 0 },
    r.pending.entries.foldl
      (fun budget entry => Budget.release budget (fragmentCost entry.2.message.body.length)) budget)

/-- Reassembly is disrupted when something arrived ahead of a gap. -/
def disrupted (r : Reassembler) : Bool :=
  match r.pending.entries with
  | [] => false
  | [_] =>
    match r.head with
    | none => true
    | some p => decide (p.prefixLength < p.message.body.length - p.remaining)
  | _ => true

end Reassembler

end Socat.Dtls13
