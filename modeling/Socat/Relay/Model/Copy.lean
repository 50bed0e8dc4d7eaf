import Mathlib.Data.Int.Notation
import Socat.Machine.Fallible
import Socat.Relay.Model.Outcome

/-! # One direction of a transfer

`copyBuffered` reads a block from the source and hands it to `writeBlock`, which calls the destination
until every byte of the block is accepted. What the streams, the poller and the dumps answer is a script,
consumed from its head. A script of reads or writes that is used up leaves the worker inside the call:
the computation fails with `Blocked`, and its state is the state at that moment. Answers of the poller and of the
dumps that are used up are successes.
-/

namespace Socat.Relay

open Machine

/-- Results of `Read`: the bytes and an error. -/
abbrev ReadResult := Bytes × Option GoError

/-- Results of `Write`: the count and an error. -/
abbrev WriteResult := ℤ × Option GoError

/-- A context that is cancelled after it has been looked at `lookups` times, or never. -/
structure Context where
  lookups : Option ℕ := none
  deadline : Bool := false
deriving DecidableEq, Repr

def Context.cause (ctx : Context) : GoError :=
  .sentinel (if ctx.deadline then .deadlineExceeded else .canceled)

/-- `ctx.Err()` and the context after it. -/
def Context.err (ctx : Context) : Option GoError × Context :=
  match ctx.lookups with
  | none => (none, ctx)
  | some 0 => (some ctx.cause, ctx)
  | some (n + 1) => (none, { ctx with lookups := some n })

/-- What the streams saw, in order: bytes the source returned, bytes the destination accepted, and the
calls of `OnEOF` and `ShutdownWrite`. -/
inductive CopyEvent where
  | read (data : Bytes)
  | accept (data : Bytes)
  | onEOF
  | shutdownWrite
deriving DecidableEq, Repr

/-- The call a worker is in. -/
inductive Blocked where
  | read
  | write
deriving DecidableEq, Repr

/-- `shared` tells whether a shared source holds input of an earlier session. -/
structure CopyWorld where
  writes : List WriteResult := []
  polls : List (Option GoError) := []
  dumps : List (Option GoError) := []
  shared : List Bool := []
  ctx : Context := {}
  bytes : UInt64 := 0
  blocks : UInt64 := 0
  trace : List CopyEvent := []

abbrev CopyM := EStateM Blocked CopyWorld

/-- The direction of a task, its descriptors, and the dumps that are switched on. -/
structure DirTask where
  dir : Direction
  dstFD : ℤ := -1
  srcFD : ℤ := -1
  verbose : Bool := false
  raw : Bool := false
deriving DecidableEq, Repr

def note (event : CopyEvent) : CopyM Unit := modify fun w => { w with trace := w.trace ++ [event] }

def ctxErr : CopyM (Option GoError) := do
  let w ← get
  set { w with ctx := w.ctx.err.2 }
  return w.ctx.err.1

/-- `waitReadableAndWritable` or `waitWritable`. -/
def wait : CopyM (Option GoError) := do
  let w ← get
  set { w with polls := w.polls.tail }
  return w.polls.headD none

def sharedPending : CopyM Bool := do
  let w ← get
  set { w with shared := w.shared.tail }
  return w.shared.headD false

/-- A dump that is switched on, with the text before its error. -/
def dump (on : Bool) (text : String) : CopyM (Option GoError) :=
  if on then do
    let w ← get
    set { w with dumps := w.dumps.tail }
    return (w.dumps.headD none).map (GoError.wrap text)
  else return none

/-- The verbose dump, then the raw one of the direction. -/
def dumpBlock (t : DirTask) : CopyM (Option GoError) := do
  match ← dump t.verbose "verbose dump" with
  | some err => return some err
  | none =>
    match t.dir with
    | .leftToRight => dump t.raw "raw left dump"
    | .rightToLeft => dump t.raw "raw right dump"

/-! ## Writing a block -/

/-- The destination accepts the next `n` bytes of a block. -/
def advance (data : Bytes) (written n : ℕ) : CopyM Unit := do
  note (.accept ((data.drop written).take n))
  modify fun w => { w with bytes := w.bytes + UInt64.ofNat n }

/-- What follows an error of a write that may be repeated: a full destination is waited for. -/
def waitRetry (t : DirTask) (err : GoError) : CopyM (Option GoError) :=
  if 0 ≤ t.dstFD ∧ isWouldBlock err = true then wait else return none

/-- The loop of `writeBlock`: some bytes of the block are written, and `wroteBlock` tells whether any.
A count outside of what was offered is no report of accepted bytes. -/
def writeLoop (t : DirTask) (data : Bytes) : List WriteResult → ℕ → Bool → CopyM (Bool × Option GoError)
  | writes, written, wroteBlock => do
    if data.length ≤ written then return (wroteBlock, none)
    match ← ctxErr with
    | some err => return (wroteBlock, some err)
    | none =>
      match writes with
      | [] => throw .write
      | (nw, err) :: rest => do
        modify fun w => { w with writes := rest }
        if nw < 0 ∨ ((data.length - written : ℕ) : ℤ) < nw then
          return (wroteBlock, some (.other "invalid write count" none none))
        runIf (0 < nw) (advance data written nw.toNat)
        let written' := written + nw.toNat
        let wroteBlock' := wroteBlock || decide (0 < nw)
        match err with
        | some err =>
          if isRetryableIOError err then do
            match ← waitRetry t err with
            | some waitErr => return (wroteBlock', some waitErr)
            | none => writeLoop t data rest written' wroteBlock'
          else return (wroteBlock', some err)
        | none =>
          if nw = 0 then return (wroteBlock', some (.sentinel .noProgress))
          else writeLoop t data rest written' wroteBlock'

def writeBlock (t : DirTask) (data : Bytes) : CopyM (Bool × Option GoError) := do
  let w ← get
  writeLoop t data w.writes 0 false

/-! ## Copying -/

def finishSourceEOF (t : DirTask) : CopyM DirOutcome := do
  note .onEOF
  let err ← ctxErr
  runIf (err = none) (note .shutdownWrite)
  return dirEOF t.dir

def countBlock (wroteBlock : Bool) : CopyM Unit :=
  runIf (wroteBlock = true) (modify fun w => { w with blocks := w.blocks + 1 })

/-- A block of at least one byte: dumped, then written. An outcome ends the direction. -/
def copyBlock (t : DirTask) (data : Bytes) : CopyM (Option DirOutcome) := do
  match ← dumpBlock t with
  | some err => return some (classifyDirError t.dir err)
  | none => do
    let (wroteBlock, err) ← writeBlock t data
    countBlock wroteBlock
    match err with
    | none => return none
    | some err => return some (if isBenignClose err then dirClosed t.dir else classifyDirError t.dir err)

/-- A read may return no bytes. -/
def copyData (t : DirTask) (data : Bytes) : CopyM (Option DirOutcome) :=
  if data = [] then return none else copyBlock t data

/-- What the error of a read does once its bytes are written: the outcome, or another round. -/
def readError (t : DirTask) (err : GoError) : CopyM (Option DirOutcome) := do
  -- A cancellation wakes the read with a timeout.
  let cause ← ctxErr
  match cause.filter fun _ => isTimeoutErr err with
  | some cause => return some (classifyDirError t.dir cause)
  | none =>
    if isRetryableIOError err then return none
    else if isBenignClose err then some <$> finishSourceEOF t
    else return some (classifyDirError t.dir err)

/-- The wait before a read when both descriptors can be polled. -/
def beforeRead (t : DirTask) : CopyM (Option DirOutcome) := do
  match ← ctxErr with
  | some err => return some (classifyDirError t.dir err)
  | none =>
    if 0 ≤ t.dstFD ∧ 0 ≤ t.srcFD then do
      if ← sharedPending then return none
      match ← wait with
      | none => return none
      | some err => return some (if isBenignClose err then dirClosed t.dir else classifyDirError t.dir err)
    else return none

/-- One read's bytes and error. -/
def takeRead (t : DirTask) (data : Bytes) (err : Option GoError) : CopyM (Option DirOutcome) := do
  note (.read data)
  let ended ← copyData t data
  match ended, err with
  | some outcome, _ => return some outcome
  | none, none => return none
  | none, some err => readError t err

/-- One round of `copyBuffered`, with the result of its read unless the source has no more to say. -/
def copyRound (t : DirTask) (read : Option ReadResult) : CopyM (Option DirOutcome) := do
  match ← beforeRead t with
  | some outcome => return some outcome
  | none =>
    match read with
    | none => throw .read
    | some (data, err) => takeRead t data err

/-- `copyBuffered` on the results of the source's reads. -/
def copyBuffered (t : DirTask) : List ReadResult → CopyM DirOutcome
  | [] => do
    match ← copyRound t none with
    | some outcome => return outcome
    | none => throw .read
  | read :: rest => do
    match ← copyRound t (some read) with
    | some outcome => return outcome
    | none => copyBuffered t rest

end Socat.Relay
