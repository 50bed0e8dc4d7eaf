import Mathlib.Data.Int.Notation
import Socat.Machine.Actions
import Socat.Relay.Model.Outcome

/-! # Both directions of a transfer

`Transfer` starts a worker for each direction and a goroutine that closes both streams once the context is
cancelled, and collects the workers' outcomes in a select loop. Workers, closer, idle watcher and the
loop interleave; each action is one of their steps, and where several cases of the select are ready any of
them may be taken. `sent`, `live` and `stopped` record what happened; no action looks at them.
-/

namespace Socat.Relay

/-! ## The outcomes and the selected error -/

/-- One stored return per direction and the completion order of those that may be selected. -/
structure TransferOutcomes where
  leftToRight : Option DirOutcome := none
  rightToLeft : Option DirOutcome := none
  inspect : List Direction := []
deriving DecidableEq, Repr

namespace TransferOutcomes

def accept (o : TransferOutcomes) (r : DirOutcome) (live : Bool) : TransferOutcomes :=
  let stored : TransferOutcomes :=
    match r.dir with
    | .leftToRight => { o with leftToRight := some r }
    | .rightToLeft => { o with rightToLeft := some r }
  if live then { stored with inspect := stored.inspect ++ [r.dir] } else stored

def outcome (o : TransferOutcomes) : Direction → Option DirOutcome
  | .leftToRight => o.leftToRight
  | .rightToLeft => o.rightToLeft

end TransferOutcomes

/-- The error with its direction before it. -/
def DirOutcome.wrapped (o : DirOutcome) : GoError :=
  .wrap o.dir.string (o.err.getD (.other "%!w(<nil>)" none none))

def selectTransferError (first : Option GoError) (o : Option DirOutcome) : Option GoError :=
  match first, o with
  | some err, _ => some err
  | none, some o => if o.cls = .failed then some o.wrapped else none
  | none, none => none

def selectedTransferError (o : TransferOutcomes) : Option GoError :=
  o.inspect.foldl (fun first dir => selectTransferError first (o.outcome dir)) none

/-! ## The machine -/

/-- `linger` in nanoseconds; `idle` is `IdleTimeout > 0`. -/
structure TransferConfig where
  leftToRight : Bool := false
  rightToLeft : Bool := false
  linger : ℤ := 0
  idle : Bool := false
deriving DecidableEq, Repr

def defaultLinger : ℤ := 500000000

/-- Both directions unless one is asked for, and the default linger for a negative one. -/
def TransferConfig.prepared (cfg : TransferConfig) : TransferConfig :=
  let both := !cfg.leftToRight && !cfg.rightToLeft
  { cfg with
    leftToRight := cfg.leftToRight || both
    rightToLeft := cfg.rightToLeft || both
    linger := if cfg.linger < 0 then defaultLinger else cfg.linger }

def TransferConfig.runs (cfg : TransferConfig) : Direction → Bool
  | .leftToRight => cfg.leftToRight
  | .rightToLeft => cfg.rightToLeft

/-- The number of workers. -/
def TransferConfig.nDirs (cfg : TransferConfig) : ℕ := cfg.leftToRight.toNat + cfg.rightToLeft.toNat

/-- A worker that has put its outcome into the channel is still counted by the wait group. -/
inductive WorkerState where
  | absent
  | running
  | sent
  | ended
deriving DecidableEq, Repr

/-- What `copyDir` returns. -/
inductive WorkerReturn where
  | eof
  | closed
  | error (err : GoError)
deriving DecidableEq, Repr

def WorkerReturn.outcome (dir : Direction) : WorkerReturn → DirOutcome
  | .eof => dirEOF dir
  | .closed => dirClosed dir
  | .error err => classifyDirError dir err

/-- Where `Transfer` is: in its select, draining, waiting for the workers, for the closer, or back. -/
inductive MainState where
  | select
  | drain
  | waitWorkers
  | waitCloser
  | returned (result : Option GoError)
deriving DecidableEq, Repr

/-- `cancelled` is the transfer's context; `lingering` tells whether the linger timer was started. -/
structure TransferState where
  cancelled : Bool := false
  workers : Direction → WorkerState
  results : List DirOutcome := []
  closerEnded : Bool := false
  watching : Bool
  lingering : Bool := false
  finished : ℕ := 0
  main : MainState := .select
  outcomes : TransferOutcomes := {}
  sent : List DirOutcome := []
  live : List DirOutcome := []
  stopped : Bool := false

inductive TransferAction where
  | workerReturns (dir : Direction) (result : WorkerReturn)
  | workerDone (dir : Direction)
  | parentCancels
  | idleExpires
  | idleStops
  | closerEnds
  | takeResult
  | takeLinger
  | takeDone
  | drain
  | waitWorkers
  | waitCloser
deriving DecidableEq, Repr

namespace TransferState

/-- All workers and the closer are started. -/
def start (cfg : TransferConfig) : TransferState where
  workers dir := if cfg.runs dir then .running else .absent
  watching := cfg.idle

def setWorker (s : TransferState) (dir : Direction) (worker : WorkerState) : TransferState :=
  { s with workers := Function.update s.workers dir worker }

/-- The loop is left when all workers are accounted for. -/
def resume (cfg : TransferConfig) (s : TransferState) (main : MainState) : TransferState :=
  { s with main := if s.finished < cfg.nDirs then main else .waitWorkers }

/-- An outcome taken out of the channel. -/
def accept (s : TransferState) (r : DirOutcome) (rest : List DirOutcome) (live : Bool) : TransferState :=
  { s with results := rest, finished := s.finished + 1, outcomes := s.outcomes.accept r live }

/-- After the first of two outcomes: the linger timer starts, or the transfer is cancelled at once. -/
def linger (cfg : TransferConfig) (s : TransferState) : TransferState :=
  if s.finished = 1 ∧ cfg.nDirs = 2 ∧ 0 < cfg.linger then { s with lingering := true }
  else if s.finished = 1 ∧ cfg.nDirs = 2 ∧ cfg.linger = 0 then { s with cancelled := true }
  else s

/-- No worker is left. -/
def idle (s : TransferState) : Bool :=
  [Direction.leftToRight, .rightToLeft].all fun dir => s.workers dir = .absent ∨ s.workers dir = .ended

/-- One step of one of the goroutines. -/
def step (cfg : TransferConfig) (s : TransferState) : TransferAction → Option TransferState
  | .workerReturns dir result =>
    if s.workers dir = .running then
      let r := result.outcome dir
      some { s.setWorker dir .sent with
        results := s.results ++ [r]
        sent := s.sent ++ [r]
        live := if s.cancelled then s.live else s.live ++ [r] }
    else none
  | .workerDone dir => if s.workers dir = .sent then some (s.setWorker dir .ended) else none
  | .parentCancels => some { s with cancelled := true }
  -- A stopped watcher may still take a tick that was ready.
  | .idleExpires => if s.watching then some { s with cancelled := true, watching := false } else none
  | .idleStops => some { s with watching := false }
  | .closerEnds => if s.cancelled then some { s with closerEnded := true } else none
  | .takeResult =>
    match s.main, s.results with
    | .select, r :: rest => some (((s.accept r rest true).linger cfg).resume cfg .select)
    | _, _ => none
  | .takeLinger =>
    if s.main = .select ∧ s.lingering then
      some ({ s with cancelled := true, stopped := true }.resume cfg .drain)
    else none
  | .takeDone =>
    if s.main = .select ∧ s.cancelled then some ({ s with stopped := true }.resume cfg .drain) else none
  | .drain =>
    match s.main, s.results with
    | .drain, r :: rest => some ((s.accept r rest false).resume cfg .drain)
    | _, _ => none
  | .waitWorkers =>
    if s.main = .waitWorkers ∧ s.idle then some { s with cancelled := true, main := .waitCloser } else none
  | .waitCloser =>
    if s.main = .waitCloser ∧ s.closerEnded then
      some { s with main := .returned (selectedTransferError s.outcomes) }
    else none

end TransferState

end Socat.Relay
