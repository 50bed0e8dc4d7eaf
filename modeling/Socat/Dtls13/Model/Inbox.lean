import Socat.Dtls13.Model.Flight
import Socat.Machine.Actions

/-! # The packet queues of a listener

The listener delivers datagrams to the queues of its associations; the driver of each association takes them out.
Waiting bytes are counted twice: under the association's mutex in `incomingBytes`, and in an atomic counter that all
associations share. Every operation on shared memory is a step of its own, and the steps of all calls interleave. Of
the calls that hold `mu` only `deliver`, `releasePacket` and `shutdown` touch what is modelled here, and a call that
waits for `mu` has done nothing yet, so the holder stands for all calls that are under way.
-/

namespace Socat.Dtls13.Inbox

def maxQueuedRecords : ℕ := 256

def maxIncomingBytes : ℤ := flightBurst * 65535

/-- The limit of `packets` in a listener. -/
def packetLimit : ℤ := 2 ^ 23

/-- How far a call of `deliver` is that holds `mu`. -/
inductive DeliverStage
  /-- Before the checks that come ahead of the reservation. -/
  | checking
  /-- `reserve`: before the load, and before the compare-and-swap with the value that was loaded. -/
  | loading
  | swapping (used : ℤ)
  /-- Before the `select`. -/
  | sending
  /-- The packet is in the queue and not yet counted. -/
  | counting
  /-- The queue was full. -/
  | refunding
  | unlocking
deriving DecidableEq, Repr

/-- How far the one run of `shutdown` is that `once` allows. -/
inductive ShutdownStage
  | uncalled
  | called
  | locked
  | failed
  | returned
deriving DecidableEq, Repr

inductive Holder
  | deliver (data : Bytes) (stage : DeliverStage)
  | releasePacket
  | shutdown
deriving DecidableEq, Repr

/-- How far the driver is with `releasePacket`. -/
inductive ReleaseStage
  | called
  | locked
  | lowered
  | unlocked
deriving DecidableEq, Repr

/-- What the driver has in hand. -/
inductive Hand
  | empty
  | dequeued (packet : Bytes)
  | releasing (packet : Bytes) (stage : ReleaseStage)
deriving DecidableEq, Repr

/-- Where the driver is: in `run`, in the `fail` of `teardown`, in its loop over the queue, behind it. -/
inductive Life
  | running
  | failing
  | draining
  | closed
deriving DecidableEq, Repr

/-- `reserved` and `released` are the sizes this association has ever taken from the budget and given back. -/
structure Association where
  incoming : List Bytes := []
  incomingBytes : ℤ := 0
  err : Bool := false
  mu : Option Holder := none
  shutdown : ShutdownStage := .uncalled
  life : Life := .running
  hand : Hand := .empty
  reserved : List ℕ := []
  released : List ℕ := []
deriving DecidableEq, Repr

inductive Action
  /-- A call of `deliver` gets `mu`. -/
  | deliver (data : Bytes)
  /-- The call of `deliver` that holds `mu` goes on. -/
  | proceed
  /-- `shutdown` is called, or goes on. -/
  | shutdown
  /-- The driver takes a packet out of the queue. -/
  | dequeue
  /-- The driver calls `releasePacket`, or goes on in it. -/
  | release
  /-- `run` returns, and `teardown` starts. -/
  | teardown
  /-- The `fail` of `teardown` returns. -/
  | failed
  /-- The loop of `teardown` finds the queue empty. -/
  | drained
deriving DecidableEq, Repr

namespace Association

variable (a : Association) (b : MemoryBudget)

/-- The next step of a call of `deliver`. -/
def proceed (data : Bytes) : DeliverStage → MemoryBudget × Association
  | .checking =>
    if a.err ∨ a.incoming.length = maxQueuedRecords ∨ maxIncomingBytes - a.incomingBytes < data.length then
      (b, { a with mu := some (.deliver data .unlocking) })
    else (b, { a with mu := some (.deliver data .loading) })
  | .loading =>
    if b.limit - b.used < data.length then (b, { a with mu := some (.deliver data .unlocking) })
    else (b, { a with mu := some (.deliver data (.swapping b.used)) })
  | .swapping used =>
    if b.used = used then
      ({ b with used := used + data.length },
        { a with mu := some (.deliver data .sending), reserved := data.length :: a.reserved })
    else (b, { a with mu := some (.deliver data .loading) })
  | .sending =>
    if a.incoming.length < maxQueuedRecords then
      (b, { a with mu := some (.deliver data .counting), incoming := a.incoming ++ [data] })
    else (b, { a with mu := some (.deliver data .refunding) })
  | .counting =>
    (b, { a with mu := some (.deliver data .unlocking), incomingBytes := a.incomingBytes + data.length })
  | .refunding =>
    ({ b with used := b.used - data.length },
      { a with mu := some (.deliver data .unlocking), released := data.length :: a.released })
  | .unlocking => (b, { a with mu := none })

/-- The next step of `shutdown`. -/
def stepShutdown : ShutdownStage → Option Association
  | .uncalled => some { a with shutdown := .called }
  | .called => if a.mu = none then some { a with shutdown := .locked, mu := some .shutdown } else none
  | .locked => some { a with shutdown := .failed, err := true }
  | .failed => some { a with shutdown := .returned, mu := none }
  | .returned => none

/-- The next step of the driver with the packet in its hand. -/
def stepRelease : Hand → Option (MemoryBudget × Association)
  | .empty => none
  | .dequeued packet => some (b, { a with hand := .releasing packet .called })
  | .releasing packet .called =>
    if a.mu = none then some (b, { a with hand := .releasing packet .locked, mu := some .releasePacket }) else none
  | .releasing packet .locked =>
    some (b, { a with hand := .releasing packet .lowered, incomingBytes := a.incomingBytes - packet.length })
  | .releasing packet .lowered => some (b, { a with hand := .releasing packet .unlocked, mu := none })
  | .releasing packet .unlocked =>
    some ({ b with used := b.used - packet.length },
      { a with hand := .empty, released := packet.length :: a.released })

def step : Action → Option (MemoryBudget × Association)
  | .deliver data => if a.mu = none then some (b, { a with mu := some (.deliver data .checking) }) else none
  | .proceed =>
    match a.mu with
    | some (.deliver data stage) => some (a.proceed b data stage)
    | _ => none
  | .shutdown => (a.stepShutdown a.shutdown).map fun a => (b, a)
  | .dequeue =>
    if a.hand = .empty ∧ (a.life = .running ∨ a.life = .draining) then
      match a.incoming with
      | [] => none
      | packet :: rest => some (b, { a with incoming := rest, hand := .dequeued packet })
    else none
  | .release => a.stepRelease b a.hand
  | .teardown => if a.hand = .empty ∧ a.life = .running then some (b, { a with life := .failing }) else none
  | .failed => if a.life = .failing ∧ a.shutdown = .returned then some (b, { a with life := .draining }) else none
  | .drained =>
    if a.hand = .empty ∧ a.life = .draining ∧ a.incoming = [] then some (b, { a with life := .closed }) else none

end Association

/-! ## The listener -/

/-- The associations that were admitted are those below `admitted`. -/
structure World where
  budget : MemoryBudget := { limit := packetLimit }
  admitted : ℕ := 0
  associations : ℕ → Association := fun _ => {}

/-- A new association is admitted, or one of those there are goes on. -/
def World.step (w : World) : Option (ℕ × Action) → Option World
  | none => some { w with admitted := w.admitted + 1 }
  | some (i, action) =>
    if i < w.admitted then
      ((w.associations i).step w.budget action).map fun (budget, a) =>
        { w with budget, associations := Function.update w.associations i a }
    else none

end Socat.Dtls13.Inbox
