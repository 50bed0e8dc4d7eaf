import Socat.Machine.Actions
import Socat.Relay.Model.Outcome

/-! # A stream that serialized sessions share

Sessions are opened one after the other on one `Shared`. The state is that of the shared stream, of the
session that is open, and of its `Read` in progress, which is at one of the places where something else
may happen in between: a `Close`, the answer of the poller or of the inner stream, or a read in the
background, which may outlive the session. Each action is one such event or the code up to the next such
place. `results` records what the reads returned; no action looks at it.
-/

namespace Socat.Relay

/-- What the inner stream supports: polling its descriptor, and read deadlines. -/
structure StreamMode where
  poll : Bool
  deadline : Bool
deriving DecidableEq, Repr

/-- The answers of `waitPollRead`. -/
inductive PollResult where
  | ready
  | idle
  | failed (err : GoError)
deriving DecidableEq, Repr

/-- Where the `Read` of a session is; `size` is the length of its buffer. -/
inductive Reader where
  | none
  | loop (size : ℕ)
  | take (size : ℕ)
  | poll (size : ℕ)
  | polled (size : ℕ) (result : PollResult)
  | background (size : ℕ)
  | waiting (size : ℕ)
  | inner (size : ℕ)
  | returned (size : ℕ) (data : Bytes) (err : Option GoError)
deriving DecidableEq, Repr

/-- The goroutine of `background`. -/
inductive Background where
  | none
  | reading (size : ℕ)
  | returned (data : Bytes) (err : Option GoError)
deriving DecidableEq, Repr

/-- `results` is what the sessions' reads returned, in order. -/
structure SharedState where
  pending : Bytes := []
  err : Option GoError := none
  reading : Background := .none
  closed : Bool := true
  reader : Reader := .none
  results : List (Bytes × Option GoError) := []
deriving DecidableEq, Repr

/-- `newSession` is `newSessionWrap`; `read` a call of the open session's `Read`; `advance` the code of that
read up to the next place; `done` the choice of the closed session where the read waits for the background. -/
inductive SharedAction where
  | newSession
  | close
  | read (size : ℕ)
  | advance
  | done
  | pollReturns (result : PollResult)
  | innerReturns (data : Bytes) (err : Option GoError)
  | backgroundReturns (data : Bytes) (err : Option GoError)
  | backgroundStores
deriving DecidableEq, Repr

namespace SharedState

/-- The session's `Read` returns. -/
def finish (s : SharedState) (data : Bytes) (err : Option GoError) : SharedState :=
  { s with reader := .none, results := s.results ++ [(data, err)] }

/-- `take`: input of an earlier session, then the error that came with it, else on to the stream. -/
def take (mode : StreamMode) (s : SharedState) (size : ℕ) : SharedState :=
  if s.pending ≠ [] then { s with pending := s.pending.drop size }.finish (s.pending.take size) none
  else
    match s.err with
    | some err => { s with err := none }.finish [] (some err)
    | none =>
      { s with reader :=
          if mode.poll then .poll size else if mode.deadline then .inner size else .background size }

/-- `background`: a read without a session, unless one runs or has left something. -/
def startBackground (s : SharedState) (size : ℕ) : SharedState :=
  if s.pending ≠ [] ∨ s.err ≠ none ∨ s.reading ≠ .none then { s with reader := .waiting size }
  else { s with reader := .waiting size, reading := .reading size }

/-- `keep`. -/
def keep (s : SharedState) (data : Bytes) : SharedState := { s with pending := s.pending ++ data }

/-- The rest of the loop after the inner stream has returned. -/
def afterRead (s : SharedState) (size : ℕ) (data : Bytes) (err : Option GoError) : SharedState :=
  if s.closed then (s.keep data).finish [] (some (.sentinel .eof))
  else
    match err with
    | none => s.finish data none
    | some err =>
      if isTimeoutErr err then { s with reader := .loop size }
      else s.finish data (some err)

/-- The session's `Read` up to the next place where it waits. -/
def advance (mode : StreamMode) (s : SharedState) : Option SharedState :=
  match s.reader with
  | .loop size => some (if s.closed then s.finish [] (some (.sentinel .eof)) else { s with reader := .take size })
  | .take size => some (s.take mode size)
  | .polled size result =>
    some (if s.closed then s.finish [] (some (.sentinel .eof))
      else
        match result with
        | .ready => { s with reader := .inner size }
        | .idle => { s with reader := .loop size }
        | .failed err => s.finish [] (some err))
  | .background size => some (s.startBackground size)
  | .waiting size => if s.reading = .none then some { s with reader := .loop size } else none
  | .returned size data err => some (s.afterRead size data err)
  | .none | .poll _ | .inner _ => none

/-- One action. The inner stream returns at most what was asked for. -/
def step (mode : StreamMode) (s : SharedState) : SharedAction → Option SharedState
  | .newSession => if s.reader = .none then some { s with closed := false } else none
  | .close => some { s with closed := true }
  | .read size => if s.reader = .none then some { s with reader := .loop size } else none
  | .advance => s.advance mode
  | .done =>
    match s.reader with
    | .waiting _ => if s.closed then some (s.finish [] (some (.sentinel .eof))) else none
    | _ => none
  | .pollReturns result =>
    match s.reader with
    | .poll size => some { s with reader := .polled size result }
    | _ => none
  | .innerReturns data err =>
    match s.reader with
    | .inner size =>
      if data.length ≤ size then some { s with reader := .returned size data err } else none
    | _ => none
  | .backgroundReturns data err =>
    match s.reading with
    | .reading size =>
      if data.length ≤ size then some { s with reading := .returned data err } else none
    | _ => none
  | .backgroundStores =>
    match s.reading with
    | .returned data err => some { s with reading := .none, pending := s.pending ++ data, err }
    | _ => none

end SharedState

end Socat.Relay
