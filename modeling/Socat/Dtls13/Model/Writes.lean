import Socat.Dtls13.Model.Wire

/-! # Application writes of an association

`Conn.Write` gives its data to the driver of the association in a command and waits for the reply. The driver encodes
the data and hands the datagram to the transport: to the writer goroutine that the associations of a listener share,
or, at a client, to the socket itself. Deadlines, the end of a call, the end of the association and the end of the
transport cut in anywhere. Callers, driver and writer take steps of their own, in any order. Whether a deadline has
passed and what the socket answers is chosen with the step. Other users of the transport only take room in its queue,
and other commands have objects of their own and only keep the driver from taking one of these.
-/

namespace Socat.Dtls13.Writes

/-- The errors of a write. `session` is an error that `application` gives before it has a datagram. -/
inductive Reason
  | closed
  | deadlineExceeded
  | messageTooLong
  | writePending
  | recordOverflow
  | session
  | socket
deriving DecidableEq, Repr

/-- An error, or nil. -/
abbrev Outcome := Option Reason

/-- A `connCommand`: its call, its data, whether `cancel` is closed, and what `result` holds. A reply carries the call
it was made for, which the program does not see. -/
structure Command where
  call : ℕ := 0
  data : Bytes := []
  cancel : Bool := false
  result : Option (ℕ × Outcome) := none
deriving DecidableEq, Repr

/-- A `packetWrite`: its data, whether `cancel` is closed, the command whose `cancel` it watches, and what `result`
holds; and the call the data is from, which the program does not see. -/
structure Job where
  call : ℕ := 0
  data : Bytes := []
  cancel : Bool := false
  cancelled : ℕ := 0
  result : Option Outcome := none
deriving DecidableEq, Repr

/-- How far a call of `Write` is: in the loop of `execute` without and with the driver's attention, in its deferred
function, and behind it. What comes back and whether the driver took the command is kept. -/
inductive Phase
  | idle
  | waiting (command : ℕ)
  | taken (command : ℕ)
  | leaving (command : ℕ) (outcome : Outcome) (taken : Bool)
  | returned (outcome : Outcome) (taken : Bool)
deriving DecidableEq, Repr

/-- How far the driver is with its pending command: between two rounds, and in `writePacket` before the first and the
second `select`, in `waitWrite`, before the socket's own write, and before the deferred `cancelWrite`. -/
inductive Stage
  | ready
  | offering (job : ℕ)
  | blocked (job : ℕ)
  | awaiting (job : ℕ)
  | sending (job : ℕ)
  | settled (job : ℕ) (outcome : Outcome)
  | replying (outcome : Outcome)
  | stopped
deriving DecidableEq, Repr

/-- How far `writeLoop` is: before `startWrite`, before the socket's write, and before the report. -/
inductive Writer
  | idle
  | fetched (job : ℕ)
  | started (job : ℕ)
  | wrote (job : ℕ) (outcome : Outcome)
deriving DecidableEq, Repr

/-- The command the driver works on and the call it took it from. -/
structure Taken where
  command : ℕ
  call : ℕ
deriving DecidableEq, Repr

/-- `writes` holds up to 16 writes; those of others are `none`. `sent` has the application datagrams on the socket,
newest first. -/
structure World where
  once : Bool := false
  stop : Bool := false
  done : Bool := false
  cachedCommand : Option ℕ := some 0
  created : ℕ := 1
  commands : ℕ → Command := fun _ => {}
  calls : ℕ → Phase := fun _ => .idle
  pending : Option Taken := none
  stage : Stage := .ready
  issued : ℕ := 0
  jobs : ℕ → Job := fun _ => {}
  writes : List (Option ℕ) := []
  writer : Writer := .idle
  sent : List (ℕ × Bytes) := []
  /-- A closed channel was closed again. -/
  panicked : Bool := false

/-- What `startWrite` meets when nothing is closed. -/
inductive Start
  | expired
  | refused
  | proceeds
deriving DecidableEq, Repr

/-- The socket takes the whole datagram, or nothing and gives an error. -/
inductive Attempt
  | sends
  | timesOut
  | tooLong
  | fails
deriving DecidableEq, Repr

def Attempt.outcome : Attempt → Outcome
  | .sends => none
  | .timesOut => some .writePending
  | .tooLong => some .messageTooLong
  | .fails => some .socket

inductive Action
  /-- `Write` is called; the data may be too long. -/
  | call (k : ℕ) (tooLong : Bool)
  /-- The driver takes the command of a call. -/
  | take (k : ℕ)
  | reply (k : ℕ)
  /-- The write deadline passes in `execute`. -/
  | expire (k : ℕ)
  /-- `execute` sees the end of the association. -/
  | abandon (k : ℕ)
  /-- The deferred function of `execute`. -/
  | leave (k : ℕ)
  /-- The driver finds its pending command cancelled. -/
  | drop
  /-- `command` ends without a datagram. -/
  | refuse (reason : Reason)
  | postpone
  /-- `application` hands a datagram to `writePacket`. -/
  | attempt
  /-- The deadline of a write passes before the write is queued. -/
  | late
  | offer
  | enqueue
  /-- `writePacket` sees the end of the transport, of the association or of the call. -/
  | interrupt
  | collect
  /-- `startWrite` and the socket's write of a client. -/
  | begin (start : Start)
  | send (attempt : Attempt)
  /-- The deferred `cancelWrite` of `writePacket`. -/
  | settle
  | answer
  /-- `run` returns. -/
  | exit
  | fetch
  | start (start : Start)
  | write (attempt : Attempt)
  | report
  /-- Somebody else queues a write. -/
  | foreign
  /-- `shutdown` of the association and of the transport. -/
  | shutdown
  | close
deriving DecidableEq, Repr

namespace World

variable (data : ℕ → Bytes) (direct : Bool) (w : World)

def setCall (k : ℕ) (phase : Phase) : World := { w with calls := Function.update w.calls k phase }

def setCommand (o : ℕ) (c : Command) : World := { w with commands := Function.update w.commands o c }

def setJob (j : ℕ) (job : Job) : World := { w with jobs := Function.update w.jobs j job }

/-! ## Callers -/

/-- `Write` up to its call of `execute`. -/
def enter (k : ℕ) : World :=
  match w.cachedCommand with
  | some o =>
    { (w.setCommand o { w.commands o with call := k, data := data k }).setCall k (.waiting o) with
      cachedCommand := none }
  | none =>
    { (w.setCommand w.created { call := k, data := data k }).setCall k (.waiting w.created) with
      created := w.created + 1 }

/-- A command goes back to the cache after a reply without an error; any other is cancelled. -/
def leave (k : ℕ) (o : ℕ) (taken : Bool) : Outcome → World
  | none =>
    { (w.setCommand o { w.commands o with data := [] }).setCall k (.returned none taken) with
      cachedCommand := w.cachedCommand.or (some o) }
  | some reason =>
    { (w.setCommand o { w.commands o with cancel := true }).setCall k (.returned (some reason) taken) with
      panicked := w.panicked || (w.commands o).cancel }

/-! ## Transport -/

/-- The signals that end a write of this association. -/
def interrupted (j : ℕ) : Bool := w.done || w.stop || (w.commands (w.jobs j).cancelled).cancel

def startWrite (j : ℕ) : Start → Outcome
  | start =>
    if w.interrupted j || (w.jobs j).cancel then some .closed
    else
      match start with
      | .expired => some .writePending
      | .refused => some .socket
      | .proceeds => none

/-- The socket's write. -/
def writeTo (j : ℕ) : Attempt → World
  | .sends => { w with sent := ((w.jobs j).call, (w.jobs j).data) :: w.sent }
  | _ => w

/-! ## Driver -/

/-- The end of `command`: a pending write stays pending, everything else is the reply. -/
def conclude (outcome : Outcome) : World :=
  { w with stage := if outcome = some .writePending then .ready else .replying outcome }

/-- A new `packetWrite` for the pending command. -/
def issue (p : Taken) : World :=
  { w.setJob w.issued { call := p.call, data := (w.commands p.command).data, cancelled := p.command } with
    issued := w.issued + 1
    stage := .offering w.issued }

def push (j : ℕ) : World := { w with writes := w.writes ++ [some j], stage := .awaiting j }

def settle (j : ℕ) (outcome : Outcome) : World :=
  ({ w.setJob j { w.jobs j with cancel := true } with panicked := w.panicked || (w.jobs j).cancel }).conclude outcome

/-- What the driver does with its pending command. -/
def stepPending (p : Taken) : Action → Option World
  | .drop => if w.stage = .ready ∧ (w.commands p.command).cancel then some { w with pending := none } else none
  | .refuse reason =>
    if w.stage = .ready ∧ (w.commands p.command).cancel = false then some (w.conclude (some reason)) else none
  | .postpone => if w.stage = .ready ∧ (w.commands p.command).cancel = false then some w else none
  | .attempt => if w.stage = .ready ∧ (w.commands p.command).cancel = false then some (w.issue p) else none
  | .answer =>
    match w.stage, (w.commands p.command).result with
    | .replying outcome, none =>
      some { w.setCommand p.command { w.commands p.command with result := some (p.call, outcome) } with
        pending := none
        stage := .ready }
    | _, _ => none
  | _ => none

/-- What the driver does inside `writePacket`. -/
def stepWrite : Stage → Action → Option World
  | .offering j, .late => if direct then none else some { w with stage := .settled j (some .writePending) }
  | .offering j, .offer =>
    if direct then none else some (if w.writes.length < 16 then w.push j else { w with stage := .blocked j })
  | .offering j, .begin start =>
    if direct then
      some (match w.startWrite j start with
        | none => { w with stage := .sending j }
        | some reason => w.conclude (some reason))
    else none
  | .sending j, .send attempt => some ((w.writeTo j attempt).conclude attempt.outcome)
  | .blocked j, .late => some { w with stage := .settled j (some .writePending) }
  | .blocked j, .enqueue => if w.writes.length < 16 then some (w.push j) else none
  | .blocked j, .interrupt | .awaiting j, .interrupt =>
    if w.interrupted j then some { w with stage := .settled j (some .closed) } else none
  | .awaiting j, .collect =>
    (w.jobs j).result.map fun outcome =>
      { w.setJob j { w.jobs j with result := none } with stage := .settled j outcome }
  | .settled j outcome, .settle => some (w.settle j outcome)
  | _, _ => none

/-- What the writer goroutine does. -/
def stepWriter : Writer → Action → Option World
  | .idle, .fetch =>
    match w.writes with
    | [] => none
    | none :: rest => some { w with writes := rest }
    | some j :: rest => some { w with writes := rest, writer := .fetched j }
  | .fetched j, .start start =>
    some { w with writer := match w.startWrite j start with
      | none => .started j
      | some reason => .wrote j (some reason) }
  | .started j, .write attempt => some { w.writeTo j attempt with writer := .wrote j attempt.outcome }
  | .wrote j outcome, .report =>
    if (w.jobs j).result = none then
      some { w.setJob j { w.jobs j with result := some outcome } with writer := .idle }
    else none
  | _, _ => none

/-- What a call does in `execute`. -/
def stepCall (k : ℕ) : Phase → Action → Option World
  | .idle, .call _ tooLong =>
    some (if tooLong then w.setCall k (.returned (some .recordOverflow) false) else w.enter data k)
  | .waiting o, .take _ =>
    if w.stage = .ready ∧ w.pending = none then some { w.setCall k (.taken o) with pending := some ⟨o, k⟩ } else none
  | .taken o, .reply _ =>
    (w.commands o).result.map fun (_, outcome) =>
      (w.setCommand o { w.commands o with result := none }).setCall k (.leaving o outcome true)
  | .waiting o, .expire _ => some (w.setCall k (.leaving o (some .deadlineExceeded) false))
  | .taken o, .expire _ => some (w.setCall k (.leaving o (some .deadlineExceeded) true))
  | .waiting o, .abandon _ => if w.stop then some (w.setCall k (.leaving o (some .closed) false)) else none
  | .taken o, .abandon _ => if w.stop then some (w.setCall k (.leaving o (some .closed) true)) else none
  | .leaving o outcome taken, .leave _ => some (w.leave k o taken outcome)
  | _, _ => none

def step (action : Action) : Option World :=
  match action with
  | .call k _ | .take k | .reply k | .expire k | .abandon k | .leave k => w.stepCall data k (w.calls k) action
  | .drop | .refuse _ | .postpone | .attempt | .answer => w.pending.bind fun p => w.stepPending p action
  | .late | .offer | .enqueue | .interrupt | .collect | .begin _ | .send _ | .settle =>
    w.stepWrite direct w.stage action
  | .exit => if w.stage = .ready then some { w with pending := none, stage := .stopped } else none
  | .fetch | .start _ | .write _ | .report => w.stepWriter w.writer action
  | .foreign => if w.writes.length < 16 then some { w with writes := w.writes ++ [none] } else none
  | .shutdown =>
    if w.once then some w else some { w with once := true, stop := true, panicked := w.panicked || w.stop }
  | .close => if w.done then none else some { w with done := true }

end World

end Socat.Dtls13.Writes
