import Mathlib.Data.List.AList

/-! # Lock files and their removal

Any number of processes hold a lock by creating one path exclusively. `HoldLockFile` remembers the identity of
the file it created and registers it for removal on a signal; the release it returns, and
`UnlinkRegisteredPaths` on a signal, unlink the path if it still names a file of that identity. Every
operation of the file system is a step of its own, and the steps of all sessions and of all signal handlers
interleave. A session is one call of `HoldLockFile` with its release. Only entries for this path are
modelled, and the errors of the Unix build, where no failed create is transient.
-/

namespace Socat.Xio

/-- A file that was created at the path. The serial tells files apart and is not seen by the program; the
device is always the same one. -/
structure File where
  serial : ℕ
  inode : ℕ
deriving DecidableEq, Repr

/-- `os.SameFile` of the identity that was recorded and the file the path names now. -/
def sameRegisteredFile (original current : File) : Bool := original.inode == current.inode

/-- How far a session is. A file in `writing`, `statting` and `closing` is still open. -/
inductive Phase
  | idle
  /-- In the loop of `acquireLockFile`. -/
  | polling (wait : Bool)
  /-- `createLockFile`: before the write and the chmod, the fstat, the close, and the final lstat. -/
  | writing (file : File)
  | statting (file : File) (written : Bool)
  | closing (file : File) (written statted : Bool)
  | confirming (file : File)
  /-- `HoldLockFile`: before its first lstat, the registration, the second lstat, and the removal of the
  registration when that fails. -/
  | verifying (file : File)
  | registering (file : File)
  | registered (file : File) (id : ℕ)
  | unregistering (file : File) (id : ℕ)
  | holding (file : File) (id : ℕ)
  /-- The release was called: before the removal of the registration. -/
  | releasing (file : File) (id : ℕ)
  /-- `UnlinkIfSameFile`: before its lstat, and before the unlink. -/
  | checking (file : File)
  | unlinking (file : File)
  | returned
deriving DecidableEq, Repr

/-- How far a call of `UnlinkRegisteredPaths` is with the entries it took. -/
inductive Cleaning
  | checking (entries : List File)
  | unlinking (file : File) (rest : List File)
deriving DecidableEq, Repr

/-- `unlinkPaths` and `unlinkNextID` of one process. -/
structure Registry where
  unlinkPaths : AList (fun _ : ℕ => File) := ∅
  unlinkNextID : ℕ := 0
deriving DecidableEq

structure World where
  /-- The file the path names. -/
  name : Option File := none
  /-- The serial of the next file. -/
  created : ℕ := 0
  /-- The inodes of open files. -/
  opened : List ℕ := []
  sessions : ℕ → Phase := fun _ => .idle
  registries : ℕ → Registry := fun _ => {}
  cleaners : ℕ → Cleaning := fun _ => .checking []

/-- What the environment decides in a step of a session. -/
inductive Choice
  /-- `HoldLockFile` is called. -/
  | call (wait : Bool)
  /-- The context is cancelled. -/
  | cancel
  /-- The exclusive create gives a file with this inode. -/
  | create (inode : ℕ)
  /-- The exclusive create finds the path taken. -/
  | exists
  /-- The exclusive create fails in another way. -/
  | refuse
  /-- The next operation is made, and succeeds or fails. -/
  | proceed (ok : Bool)
  /-- The release is called. -/
  | release
deriving DecidableEq, Repr

inductive Action
  | session (s : ℕ) (choice : Choice)
  /-- A signal handler starts `UnlinkRegisteredPaths`. -/
  | signal (k : ℕ)
  | cleaner (k : ℕ) (ok : Bool)
deriving DecidableEq, Repr

/-- The process of each session and of each signal handler. -/
structure Setting where
  session : ℕ → ℕ
  cleaner : ℕ → ℕ

namespace World

variable (g : Setting)

/-- An lstat of the path succeeds and shows the file that was recorded. -/
def names (w : World) (ok : Bool) (original : File) : Bool := ok && w.name.any (sameRegisteredFile original)

def become (w : World) (s : ℕ) (phase : Phase) : World := { w with sessions := Function.update w.sessions s phase }

def setRegistry (w : World) (p : ℕ) (r : Registry) : World := { w with registries := Function.update w.registries p r }

/-- `RegisterUnlinkPathIdentity` of a path that is not empty and does not start with `@` or a zero byte; for the
others it registers nothing. -/
def register (w : World) (p : ℕ) (file : File) : World :=
  w.setRegistry p
    { unlinkPaths := (w.registries p).unlinkPaths.insert ((w.registries p).unlinkNextID + 1) file
      unlinkNextID := (w.registries p).unlinkNextID + 1 }

/-- The function `RegisterUnlinkPathIdentity` returns. -/
def unregister (w : World) (p : ℕ) (id : ℕ) : World :=
  w.setRegistry p { w.registries p with unlinkPaths := (w.registries p).unlinkPaths.erase id }

/-- The next step of a session in the loop of `acquireLockFile`. -/
def poll (w : World) (s : ℕ) (wait : Bool) : Choice → Option World
  | .cancel => some (w.become s .returned)
  | .refuse => some (w.become s .returned)
  | .exists => if w.name.isSome then some (w.become s (if wait then .polling wait else .returned)) else none
  | .create inode =>
    if w.name = none ∧ inode ∉ w.opened then
      some { w.become s (.writing ⟨w.created, inode⟩) with
        name := some ⟨w.created, inode⟩
        created := w.created + 1
        opened := inode :: w.opened }
    else none
  | _ => none

/-- The next operation of a session that has created its file. -/
def proceed (w : World) (s : ℕ) (ok : Bool) : Phase → Option World
  | .writing file => some (w.become s (.statting file ok))
  | .statting file written => some (w.become s (.closing file written ok))
  | .closing file written statted =>
    let phase := if written && statted && ok then .confirming file else if statted then .checking file else .returned
    some { w.become s phase with opened := w.opened.erase file.inode }
  | .confirming file => some (w.become s (if w.names ok file then .verifying file else .returned))
  | .verifying file => some (w.become s (if w.names ok file then .registering file else .returned))
  | .registering file =>
    some ((w.register (g.session s) file).become s
      (.registered file ((w.registries (g.session s)).unlinkNextID + 1)))
  | .registered file id => some (w.become s (if w.names ok file then .holding file id else .unregistering file id))
  | .unregistering _ id => some ((w.unregister (g.session s) id).become s .returned)
  | .releasing file id => some ((w.unregister (g.session s) id).become s (.checking file))
  | .checking file => some (w.become s (if w.names ok file then .unlinking file else .returned))
  | .unlinking _ => some { w.become s .returned with name := if ok then none else w.name }
  | _ => none

def stepSession (w : World) (s : ℕ) (choice : Choice) : Option World :=
  match w.sessions s with
  | .idle =>
    match choice with
    | .call wait => some (w.become s (.polling wait))
    | _ => none
  | .polling wait => w.poll s wait choice
  | .holding file id =>
    match choice with
    | .release => some (w.become s (.releasing file id))
    | _ => none
  | phase =>
    match choice with
    | .proceed ok => w.proceed g s ok phase
    | _ => none

/-- `UnlinkRegisteredPaths` takes all entries at once. -/
def stepSignal (w : World) (k : ℕ) : Option World :=
  match w.cleaners k with
  | .checking [] =>
    let taken := (w.registries (g.cleaner k)).unlinkPaths.entries.map Sigma.snd
    some { w.setRegistry (g.cleaner k) { w.registries (g.cleaner k) with unlinkPaths := ∅ } with
      cleaners := Function.update w.cleaners k (.checking taken) }
  | _ => none

/-- The loop of `UnlinkRegisteredPaths` over its entries. -/
def stepCleaner (w : World) (k : ℕ) (ok : Bool) : Option World :=
  match w.cleaners k with
  | .checking [] => none
  | .checking (file :: rest) =>
    let phase := if w.names ok file then .unlinking file rest else .checking rest
    some { w with cleaners := Function.update w.cleaners k phase }
  | .unlinking _ rest =>
    some { w with
      cleaners := Function.update w.cleaners k (.checking rest)
      name := if ok then none else w.name }

def step (w : World) : Action → Option World
  | .session s choice => w.stepSession g s choice
  | .signal k => w.stepSignal g k
  | .cleaner k ok => w.stepCleaner k ok

def run (w : World) (actions : List Action) : Option World := actions.foldlM (fun w a => w.step g a) w

/-- The path may be taken from the start by a file nobody here created. -/
def start (stale : Option ℕ) : World where
  name := stale.map fun inode => ⟨0, inode⟩
  created := 1

end World

/-- The process that acts. -/
def Action.process (g : Setting) : Action → ℕ
  | .session s _ => g.session s
  | .signal k => g.cleaner k
  | .cleaner k _ => g.cleaner k

end Socat.Xio
