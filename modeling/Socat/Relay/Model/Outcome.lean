import Mathlib.Data.List.Basic

/-! # Errors and outcomes of a transfer

Errors wrap one another, and the relay asks two kinds of questions about them: whether a known error
is somewhere in the chain, and what the first error of the chain that has a certain method answers. A
direction of a transfer ends with one classified outcome.
-/

namespace Socat.Relay

abbrev Bytes := List UInt8

/-! ## Errors -/

/-- Errors the relay compares with. -/
inductive Sentinel where
  | eof
  | closedPipe
  | netClosed
  | osClosed
  | eio
  | ebadf
  | epipe
  | wouldBlock
  | noProgress
  | canceled
  | deadlineExceeded
  | osDeadlineExceeded
deriving DecidableEq, Repr

/-- `Timeout()` where the error has it: system errors, network errors and the deadline errors do. -/
def Sentinel.timeout : Sentinel → Option Bool
  | .wouldBlock | .deadlineExceeded | .osDeadlineExceeded => some true
  | .eio | .ebadf | .epipe | .netClosed => some false
  | .eof | .closedPipe | .osClosed | .noProgress | .canceled => none

/-- A known error, another one with the methods it may have, or an error with a text before it. -/
inductive GoError where
  | sentinel (known : Sentinel)
  | other (name : String) (retryable timeout : Option Bool)
  | wrap (text : String) (cause : GoError)
deriving DecidableEq, Repr

namespace GoError

/-- `errors.Is`. -/
def is (target : Sentinel) : GoError → Bool
  | sentinel known => known == target
  | other .. => false
  | wrap _ cause => cause.is target

/-- `errors.As` for `Retryable() bool`. -/
def retryable : GoError → Option Bool
  | sentinel _ => none
  | other _ retryable _ => retryable
  | wrap _ cause => cause.retryable

/-- `errors.As` for `Timeout() bool`. -/
def timeout : GoError → Option Bool
  | sentinel known => known.timeout
  | other _ _ timeout => timeout
  | wrap _ cause => cause.timeout

end GoError

def isWouldBlock (err : GoError) : Bool := err.is .wouldBlock

def isRetryableIOError (err : GoError) : Bool := err.retryable == some true || isWouldBlock err

/-- The errors of a peer or stream that is already closed. -/
def benignErrors : List Sentinel := [.eof, .closedPipe, .netClosed, .osClosed, .eio, .ebadf, .epipe]

def isBenignClose (err : GoError) : Bool := benignErrors.any err.is

def isTimeoutErr (err : GoError) : Bool :=
  err.is .osDeadlineExceeded || err.is .deadlineExceeded || err.timeout == some true

/-! ## Outcomes -/

inductive Direction where
  | leftToRight
  | rightToLeft
deriving DecidableEq, Repr

def Direction.string : Direction → String
  | .leftToRight => ">"
  | .rightToLeft => "<"

inductive DirClass where
  | eof
  | closed
  | canceled
  | failed
deriving DecidableEq, Repr

structure DirOutcome where
  dir : Direction
  cls : DirClass
  err : Option GoError := none
deriving DecidableEq, Repr

def dirEOF (dir : Direction) : DirOutcome := { dir, cls := .eof }

def dirClosed (dir : Direction) : DirOutcome := { dir, cls := .closed }

/-- Only the cancellation error itself is a cancellation, not one that wraps it. -/
def classifyDirError (dir : Direction) (err : GoError) : DirOutcome :=
  if err = .sentinel .canceled then { dir, cls := .canceled, err := some err }
  else { dir, cls := .failed, err := some err }

theorem classifyDirError_cls (dir : Direction) (err : GoError) : (classifyDirError dir err).cls ≠ .eof := by
  unfold classifyDirError
  split <;> simp

end Socat.Relay
