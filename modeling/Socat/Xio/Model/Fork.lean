import Socat.Machine.Actions
import Mathlib.Data.Int.Notation
import Mathlib.Data.Nat.Notation

/-! # The children of a forking address

`forEachAccepted` and `runConnectForkLoop` take a slot before they accept or dial, and hand it to the child they start.
A step is one operation on what is shared: the channel of slots, the wait group, the context. Between a successful
`acquire` and the start of the child the loop touches none of them.
-/

namespace Socat.Xio.Fork

inductive Kind
  | forEachAccepted
  | runConnectForkLoop
deriving DecidableEq, Repr

/-- Where the loop is. A turn is a successful `acquire`; turns are numbered. -/
inductive Loop
  | top
  | acquiring
  /-- From `acquire` on: in the accept or the dial, in the filter, in the wait before the child. -/
  | holding (turn : ℕ)
  /-- Before `slots.release()`, after a refused peer or an error. -/
  | releasing (turn : ℕ) (refused : Bool)
  /-- In the `select` on the interval between two dials. -/
  | pausing
  /-- In the deferred `children.Wait()`. -/
  | waiting
  | returned
deriving DecidableEq, Repr

/-- `slots` is the number of elements in the channel and `children` the counter of the wait group. The turns of the
children that run their body, of those behind `children.Done()`, and all that were released. -/
structure State where
  slots : ℕ := 0
  children : ℕ := 0
  cancelled : Bool := false
  loop : Loop := .top
  acquired : ℕ := 0
  running : List ℕ := []
  done : List ℕ := []
  released : List ℕ := []
deriving DecidableEq, Repr

/-- The capacity of the channel, if there is one. -/
def newChildSlots (maxChildren : ℤ) : Option ℕ := if maxChildren ≤ 0 then none else some maxChildren.toNat

/-- The receive of `release`, which waits for an element; without a channel there is nothing to do. -/
def State.release (s : State) (slots : Option ℕ) (turn : ℕ) : Option State :=
  match slots with
  | none => some { s with released := turn :: s.released }
  | some _ => if 0 < s.slots then some { s with slots := s.slots - 1, released := turn :: s.released } else none

inductive Action
  | cancel
  | enter
  | acquire
  /-- `acquire` returns false. -/
  | abandon
  /-- The accept or the dial fails or times out. -/
  | fail
  /-- The filter refuses the peer. -/
  | refuse
  | release
  | spawn
  /-- The timer of the interval fires. -/
  | resume
  | interrupt
  /-- The body of a child returns, and `children.Done()`. -/
  | finish (turn : ℕ)
  | childRelease (turn : ℕ)
  | wait
deriving DecidableEq, Repr

def step (kind : Kind) (slots : Option ℕ) (s : State) : Action → Option State
  | .cancel => some { s with cancelled := true }
  | .enter =>
    if s.loop = .top then
      some { s with loop := if kind = .runConnectForkLoop ∧ s.cancelled then .waiting else .acquiring }
    else none
  | .acquire =>
    if s.loop = .acquiring ∧ slots.all (s.slots < ·) then
      some { s with
        slots := s.slots + slots.toList.length
        acquired := s.acquired + 1
        loop := .holding s.acquired }
    else none
  | .abandon => if s.loop = .acquiring ∧ s.cancelled then some { s with loop := .waiting } else none
  | .fail =>
    match s.loop with
    | .holding turn => some { s with loop := .releasing turn false }
    | _ => none
  | .refuse =>
    match kind, s.loop with
    | .forEachAccepted, .holding turn => some { s with loop := .releasing turn true }
    | _, _ => none
  | .release =>
    match s.loop with
    | .releasing turn refused =>
      { s with loop := if refused ∧ ¬s.cancelled then .top else .waiting }.release slots turn
    | _ => none
  | .spawn =>
    match s.loop with
    | .holding turn => some { s with
        children := s.children + 1
        running := turn :: s.running
        loop := if kind = .runConnectForkLoop then .pausing else .top }
    | _ => none
  | .resume => if s.loop = .pausing then some { s with loop := .top } else none
  | .interrupt => if s.loop = .pausing ∧ s.cancelled then some { s with loop := .waiting } else none
  | .finish turn =>
    if turn ∈ s.running then
      some { s with children := s.children - 1, running := s.running.erase turn, done := turn :: s.done }
    else none
  | .childRelease turn =>
    if turn ∈ s.done then { s with done := s.done.erase turn }.release slots turn else none
  | .wait => if s.loop = .waiting ∧ s.children = 0 then some { s with loop := .returned } else none

end Socat.Xio.Fork
