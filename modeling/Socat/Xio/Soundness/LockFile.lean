import Socat.Machine.Actions
import Socat.Machine.Path
import Socat.Machine.Token
import Socat.ToMathlib.FiniteMap
import Socat.Xio.Model.LockFile

/-! # Who may remove a lock file

The right to unlink the file is a token. The session that created the file has it until it registers the file;
then the registration has it, and whoever takes the registration away gets it: the release of the session, or
the signal handler of its process. As long as no release goes on for a registration that a signal handler has
taken, there is only one token, and it names the file at the path. Without that, both check the path and both
unlink it, and the second unlink may hit the lock of another process.
-/

namespace Socat.Xio

open Machine List Function

/-- The file whose removal the session is responsible for. -/
def Phase.token : Phase → List File
  | .writing file | .statting file _ | .closing file _ _ | .confirming file | .verifying file | .registering file
  | .checking file | .unlinking file => [file]
  | _ => []

/-- The registration a session has made. -/
def Phase.registration : Phase → Option (File × ℕ)
  | .registered file id | .unregistering file id | .holding file id | .releasing file id => some (file, id)
  | _ => none

def Cleaning.token : Cleaning → List File
  | .checking entries => entries
  | .unlinking file rest => file :: rest

def Registry.token (r : Registry) : List File := r.unlinkPaths.entries.map Sigma.snd

/-- Where the token can be. -/
inductive Place
  | session (s : ℕ)
  | registry (p : ℕ)
  | cleaner (k : ℕ)

namespace World

variable {g : Setting} {w w' : World}

def tokens (w : World) : Place → List File
  | .session s => (w.sessions s).token
  | .registry p => (w.registries p).token
  | .cleaner k => (w.cleaners k).token

/-- The session holds the lock: `HoldLockFile` has returned, its release was not called, and no signal handler of
its process has taken the registration. -/
def Holder (g : Setting) (w : World) (s : ℕ) : Prop :=
  ∃ file id, w.sessions s = .holding file id ∧ id ∈ (w.registries (g.session s)).unlinkPaths

/-- Registrations are found under their number. -/
def Own (g : Setting) (w : World) : Prop :=
  ∀ s file id, (w.sessions s).registration = some (file, id) →
    id ≤ (w.registries (g.session s)).unlinkNextID ∧
      ∀ other, (w.registries (g.session s)).unlinkPaths.lookup id = some other → other = file

/-- The invariant: there is one token, and it names the file at the path. -/
structure Owned (g : Setting) (w : World) : Prop where
  sole : Sole w.tokens w.name
  own : Own g w

/-! ## Steps -/

section Steps

variable {s p k id : ℕ} {phase : Phase} {file : File}

theorem session_become (w : World) (s : ℕ) (phase : Phase) (t : ℕ) :
    (w.become s phase).sessions t = if t = s then phase else w.sessions t := update_apply _ _ _ _

theorem registry_setRegistry (w : World) (p : ℕ) (r : Registry) (q : ℕ) :
    (w.setRegistry p r).registries q = if q = p then r else w.registries q := update_apply _ _ _ _

theorem token_become {t : ℕ} (other : Place.session t ≠ .session s) :
    ((w.become s phase).sessions t).token.Sublist (w.sessions t).token := by
  rw [session_become, if_neg fun same : t = s => other (same ▸ rfl)]

theorem token_setRegistry {q : ℕ} {r : Registry} (other : Place.registry q ≠ .registry p) :
    ((w.setRegistry p r).registries q).token.Sublist (w.registries q).token := by
  rw [registry_setRegistry, if_neg fun same : q = p => other (same ▸ rfl)]

/-- Nobody registers anything, and registries only lose entries. -/
theorem Own.fewer (own : Own g w)
    (registrations : ∀ t, (w'.sessions t).registration = none ∨
      (w'.sessions t).registration = (w.sessions t).registration)
    (next : ∀ p, (w'.registries p).unlinkNextID = (w.registries p).unlinkNextID)
    (fewer : ∀ p id other, (w'.registries p).unlinkPaths.lookup id = some other →
      (w.registries p).unlinkPaths.lookup id = some other) : Own g w' := by
  intro t file id made
  rcases registrations t with none | kept
  · rw [none] at made
    cases made
  · obtain ⟨bound, found⟩ := own t file id (kept ▸ made)
    exact ⟨next _ ▸ bound, fun other present => found other (fewer _ _ _ present)⟩

theorem registration_become
    (registration : phase.registration = none ∨ phase.registration = (w.sessions s).registration)
    (t : ℕ) : ((w.become s phase).sessions t).registration = none ∨
      ((w.become s phase).sessions t).registration = (w.sessions t).registration := by
  rw [session_become]
  split_ifs with same
  · exact same ▸ registration
  · exact .inr rfl

/-- A session goes on without touching the path or the registry. -/
theorem Owned.become (owned : w.Owned g) (s : ℕ) (phase : Phase) (token : phase.token.Sublist (w.sessions s).token)
    (registration : phase.registration = none ∨ phase.registration = (w.sessions s).registration)
    (opened : List ℕ) : Owned g { w.become s phase with opened } := by
  constructor
  · apply owned.sole.keep
    rintro (t | q | l)
    · show ((w.become s phase).sessions t).token.Sublist (w.sessions t).token
      rw [session_become]
      split_ifs with same
      · exact same ▸ token
      · exact .refl _
    · exact .refl _
    · exact .refl _
  · exact owned.own.fewer (registration_become registration) (fun _ => rfl) fun _ _ _ => id

/-- The file is created: there was none, so there was no token either. -/
theorem Owned.create (owned : w.Owned g) (free : w.name = none) (created : ℕ) (opened : List ℕ) :
    Owned g { w.become s (.writing file) with name := some file, created, opened } := by
  constructor
  · have sole := owned.sole
    rw [free] at sole
    apply sole.acquire (j := .session s)
    · show ((w.become s (.writing file)).sessions s).token.Sublist [file]
      rw [session_become, if_pos rfl]
      exact .refl _
    · rintro (t | q | l) other
      · exact token_become other
      · exact .refl _
      · exact .refl _
  · exact owned.own.fewer (registration_become (.inl rfl)) (fun _ => rfl) fun _ _ _ => id

/-- The registration gets the token of the session. -/
theorem Owned.register (owned : w.Owned g) (here : w.sessions s = .registering file) :
    Owned g ((w.register (g.session s) file).become s
      (.registered file ((w.registries (g.session s)).unlinkNextID + 1))) := by
  have held : w.tokens (.session s) = [file] := by
    show (w.sessions s).token = [file]
    rw [here]
    rfl
  have empty : (w.registries (g.session s)).unlinkPaths = ∅ := by
    apply AList.ext
    by_contra some
    have place := owned.sole.place (.session s) (.registry (g.session s)) (by rw [held]; simp)
      (fun none => some (map_eq_nil_iff.mp none))
    cases place
  constructor
  · apply owned.sole.move (i := .session s) (j := .registry (g.session s))
    · show (((w.register (g.session s) file).become s _).sessions s).token = []
      rw [session_become, if_pos rfl]
      rfl
    · rw [held]
      show (((w.register (g.session s) file)).registries (g.session s)).token.Sublist [file]
      unfold World.register
      rw [registry_setRegistry, if_pos rfl, empty]
      exact .refl _
    · rintro (t | q | l) other other'
      · exact token_become (w := w.register (g.session s) file) other
      · exact token_setRegistry other'
      · exact .refl _
  · intro t other id made
    change (((w.register (g.session s) file).become s _).sessions t).registration = _ at made
    show id ≤ ((w.register (g.session s) file).registries (g.session t)).unlinkNextID ∧
      ∀ found, ((w.register (g.session s) file).registries (g.session t)).unlinkPaths.lookup id = some found →
        found = other
    rw [session_become] at made
    unfold World.register
    rw [registry_setRegistry]
    by_cases same : t = s
    · subst same
      rw [if_pos rfl] at made ⊢
      cases made
      refine ⟨le_rfl, fun found present => ?_⟩
      rw [AList.lookup_insert] at present
      exact (Option.some.inj present).symm
    · rw [if_neg same] at made
      obtain ⟨bound, found⟩ := owned.own t other id made
      split_ifs with process
      · rw [process] at bound found
        refine ⟨Nat.le_succ_of_le bound, fun other present => found other ?_⟩
        rwa [AList.lookup_insert_ne (by omega)] at present
      · exact ⟨bound, found⟩

/-- A registration is removed; nobody gets its token. -/
theorem Owned.unregister (owned : w.Owned g) (p id : ℕ) : Owned g (w.unregister p id) := by
  constructor
  · apply owned.sole.keep
    rintro (t | q | l)
    · exact .refl _
    · show ((w.unregister p id).registries q).token.Sublist (w.registries q).token
      unfold World.unregister
      rw [registry_setRegistry]
      split_ifs with same
      · subst same
        exact (kerase_sublist id _).map _
      · exact .refl _
    · exact .refl _
  · apply Own.fewer owned.own
    · intro t
      exact .inr rfl
    · intro q
      unfold World.unregister
      rw [registry_setRegistry]
      split_ifs with same
      · rw [same]
      · rfl
    · intro q other found present
      unfold World.unregister at present
      rw [registry_setRegistry] at present
      split_ifs at present with same
      · subst same
        rw [AList.lookup_erase_eq] at present
        split_ifs at present
        exact present
      · exact present

/-- The release takes the token from its registration. -/
theorem Owned.release (owned : w.Owned g) (here : w.sessions s = .releasing file id)
    (registered : id ∈ (w.registries (g.session s)).unlinkPaths) :
    Owned g ((w.unregister (g.session s) id).become s (.checking file)) := by
  obtain ⟨other, found⟩ := AList.exists_lookup_of_mem registered
  obtain ⟨-, mine⟩ := owned.own s file id (by rw [here]; rfl)
  obtain rfl := mine other found
  have only : (w.registries (g.session s)).unlinkPaths.entries = [⟨id, other⟩] := by
    have member := AList.mem_lookup_iff.mp found
    have single := owned.sole.single (.registry (g.session s))
    change ((w.registries (g.session s)).unlinkPaths.entries.map Sigma.snd).length ≤ 1 at single
    rw [length_map] at single
    obtain ⟨entry, same⟩ := length_eq_one_iff.mp (le_antisymm single (length_pos_of_mem member))
    rw [same] at member ⊢
    rw [mem_singleton.mp member]
  have quiet := owned.unregister (g.session s) id
  constructor
  · apply owned.sole.move (i := .registry (g.session s)) (j := .session s)
    · show ((w.unregister (g.session s) id).registries (g.session s)).token = []
      unfold World.unregister
      rw [registry_setRegistry, if_pos rfl]
      show ((w.registries (g.session s)).unlinkPaths.entries.kerase id).map Sigma.snd = []
      rw [only]
      simp
    · show (((w.unregister (g.session s) id).become s _).sessions s).token.Sublist
        ((w.registries (g.session s)).unlinkPaths.entries.map Sigma.snd)
      rw [session_become, if_pos rfl, only]
      exact .refl _
    · rintro (t | q | l) other other'
      · exact token_become (w := w.unregister (g.session s) id) other'
      · exact token_setRegistry other
      · exact .refl _
  · exact quiet.own.fewer (registration_become (.inl rfl)) (fun _ => rfl) fun _ _ _ found => found

/-- The session unlinks the path, or fails to. -/
theorem Owned.unlink (owned : w.Owned g) (here : w.sessions s = .unlinking file) (name : Option File) :
    Owned g { w.become s .returned with name } := by
  constructor
  · apply owned.sole.spend (i := .session s)
    · show (w.sessions s).token ≠ []
      rw [here]
      simp [Phase.token]
    · show ((w.become s .returned).sessions s).token = []
      rw [session_become, if_pos rfl]
      rfl
    · rintro (t | q | l) other
      · exact token_become other
      · exact .refl _
      · exact .refl _
  · exact owned.own.fewer (registration_become (.inl rfl)) (fun _ => rfl) fun _ _ _ => id

/-! ### Signal handlers -/

theorem cleaner_update (w : World) (k : ℕ) (phase : Cleaning) (l : ℕ) :
    update w.cleaners k phase l = if l = k then phase else w.cleaners l := update_apply _ _ _ _

/-- A signal handler takes the tokens of its process. -/
theorem Owned.signal (owned : w.Owned g) (k : ℕ) :
    Owned g { w.setRegistry (g.cleaner k) { w.registries (g.cleaner k) with unlinkPaths := ∅ } with
      cleaners := update w.cleaners k (.checking (w.registries (g.cleaner k)).token) } := by
  constructor
  · apply owned.sole.move (i := .registry (g.cleaner k)) (j := .cleaner k)
    · show ((w.setRegistry (g.cleaner k) _).registries (g.cleaner k)).token = []
      rw [registry_setRegistry, if_pos rfl]
      rfl
    · show (update w.cleaners k _ k).token.Sublist _
      rw [cleaner_update, if_pos rfl]
      exact .refl _
    · rintro (t | q | l) other other'
      · exact .refl _
      · exact token_setRegistry other
      · show (update w.cleaners k _ l).token.Sublist (w.cleaners l).token
        rw [cleaner_update, if_neg (fun same : l = k => other' (same ▸ rfl))]
  · apply Own.fewer owned.own
    · intro t
      exact .inr rfl
    · intro q
      show ((w.setRegistry (g.cleaner k) _).registries q).unlinkNextID = _
      rw [registry_setRegistry]
      split_ifs with same
      · rw [same]
      · rfl
    · intro q id other found
      change ((w.setRegistry (g.cleaner k) _).registries q).unlinkPaths.lookup id = some other at found
      rw [registry_setRegistry] at found
      split_ifs at found with same
      · cases found
      · exact found

/-- A signal handler passes over an entry, or has found it at the path. -/
theorem Owned.check {phase : Cleaning} (owned : w.Owned g) (token : phase.token.Sublist (w.cleaners k).token) :
    Owned g { w with cleaners := update w.cleaners k phase } := by
  constructor
  · apply owned.sole.keep
    rintro (t | q | l)
    · exact .refl _
    · exact .refl _
    · show (update w.cleaners k phase l).token.Sublist (w.cleaners l).token
      rw [cleaner_update]
      split_ifs with same
      · exact same ▸ token
      · exact .refl _
  · exact owned.own

/-- A signal handler unlinks the path, or fails to. -/
theorem Owned.clean {rest : List File} (owned : w.Owned g) (here : w.cleaners k = .unlinking file rest)
    (name : Option File) : Owned g { w with cleaners := update w.cleaners k (.checking rest), name } := by
  have held : w.tokens (.cleaner k) = file :: rest := by
    show (w.cleaners k).token = file :: rest
    rw [here]
    rfl
  have last : rest = [] := by
    have single := owned.sole.single (.cleaner k)
    rw [held, length_cons] at single
    exact eq_nil_of_length_eq_zero (by omega)
  constructor
  · apply owned.sole.spend (i := .cleaner k)
    · rw [held]
      simp
    · show (update w.cleaners k _ k).token = []
      rw [cleaner_update, if_pos rfl]
      exact last
    · rintro (t | q | l) other
      · exact .refl _
      · exact .refl _
      · show (update w.cleaners k _ l).token.Sublist (w.cleaners l).token
        rw [cleaner_update, if_neg (fun same : l = k => other (same ▸ rfl))]
  · exact owned.own

end Steps

/-! ## Runs -/

/-- A release goes on only while its lock is still registered: no signal handler has taken the registration. -/
def registered (g : Setting) (w : World) : Action → Bool
  | .session s _ =>
    match w.sessions s with
    | .releasing _ id => decide (id ∈ (w.registries (g.session s)).unlinkPaths)
    | _ => true
  | _ => true

theorem Owned.poll {s : ℕ} {wait : Bool} {choice : Choice} (owned : w.Owned g)
    (taken : w.poll s wait choice = some w') : Owned g w' := by
  have quiet : ∀ phase : Phase, phase.token = [] → phase.registration = none → Owned g (w.become s phase) := by
    intro phase token registration
    exact owned.become s phase (token ▸ nil_sublist _) (.inl registration) w.opened
  cases choice with
  | cancel | refuse =>
    cases taken
    exact quiet _ rfl rfl
  | «exists» =>
    unfold World.poll at taken
    dsimp only at taken
    split_ifs at taken <;> cases taken <;> exact quiet _ rfl rfl
  | create inode =>
    obtain ⟨free, rfl⟩ := guarded taken
    exact owned.create free.1 _ _
  | call | proceed | release => cases taken

theorem Owned.proceed {s : ℕ} {ok : Bool} {phase : Phase} (owned : w.Owned g) (here : w.sessions s = phase)
    (registered : ∀ file id, phase = .releasing file id → id ∈ (w.registries (g.session s)).unlinkPaths)
    (taken : w.proceed g s ok phase = some w') : Owned g w' := by
  -- a phase that keeps the token of the session, or drops it
  have quiet : ∀ next : Phase, next.token.Sublist phase.token →
      next.registration = none ∨ next.registration = phase.registration → ∀ opened,
      Owned g { w.become s next with opened } := by
    intro next token registration opened
    exact owned.become s next (here ▸ token) (here ▸ registration) opened
  cases phase with
  | idle | polling | holding | returned => cases taken
  | writing file =>
    cases taken
    exact quiet (.statting file ok) (.refl _) (.inl rfl) w.opened
  | statting file written =>
    cases taken
    exact quiet (.closing file written ok) (.refl _) (.inl rfl) w.opened
  | closing file | confirming file | verifying file | checking file =>
    cases taken
    apply quiet
    · split_ifs <;> simp [Phase.token]
    · split_ifs <;> exact .inl rfl
  | registered file id =>
    cases taken
    apply quiet
    · split_ifs <;> exact .refl _
    · split_ifs <;> exact .inr rfl
  | registering file =>
    cases taken
    exact owned.register here
  | unregistering file id =>
    cases taken
    exact (owned.unregister (g.session s) id).become s .returned (nil_sublist _) (.inl rfl) _
  | releasing file id =>
    cases taken
    exact owned.release here (registered file id rfl)
  | unlinking file =>
    cases taken
    exact owned.unlink here _

theorem Owned.step {a : Action} (owned : w.Owned g) (careful : registered g w a = true) (taken : w.step g a = some w') :
    Owned g w' := by
  cases a with
  | session s choice =>
    change w.stepSession g s choice = some w' at taken
    unfold World.stepSession at taken
    split at taken
    · rename_i here
      split at taken
      · cases taken
        exact owned.become s (.polling _) (nil_sublist _) (.inl rfl) w.opened
      · cases taken
    · exact owned.poll taken
    · rename_i file id here
      split at taken
      · cases taken
        exact owned.become s (.releasing file id) (nil_sublist _) (.inr (by rw [here]; rfl)) w.opened
      · cases taken
    · split at taken
      · refine owned.proceed rfl (fun file id releasing => ?_) taken
        simp only [registered, releasing] at careful
        exact of_decide_eq_true careful
      · cases taken
  | signal k =>
    change w.stepSignal g k = some w' at taken
    unfold World.stepSignal at taken
    split at taken
    · cases taken
      exact owned.signal k
    · cases taken
  | cleaner k ok =>
    change w.stepCleaner k ok = some w' at taken
    unfold World.stepCleaner at taken
    split at taken
    · cases taken
    · rename_i file rest here
      cases taken
      apply owned.check
      rw [here]
      split_ifs
      · exact .refl _
      · exact sublist_cons_self _ _
    · rename_i file rest here
      cases taken
      exact owned.clean here _

private theorem start_owned (g : Setting) (stale : Option ℕ) : Owned g (start stale) := by
  have none : ∀ place, (start stale).tokens place = [] := by
    rintro (s | p | k) <;> rfl
  constructor
  · constructor
    · intro place file member
      rw [none place] at member
      cases member
    · intro place other held
      exact absurd (none place) held
    · intro place
      rw [none place]
      exact Nat.zero_le 1
  · intro s file id made
    cases made

private theorem name_of_poll {s : ℕ} {wait : Bool} {choice : Choice} (taken : w.poll s wait choice = some w') :
    w'.name = w.name ∨ w.name = none := by
  unfold World.poll at taken
  split at taken
  · cases taken
    exact .inl rfl
  · cases taken
    exact .inl rfl
  · split at taken <;> cases taken
    exact .inl rfl
  · split at taken
    · rename_i free
      exact .inr free.1
    · cases taken
  · cases taken

theorem name_of_proceed {s : ℕ} {ok : Bool} {phase : Phase} (taken : w.proceed g s ok phase = some w') :
    w'.name = w.name ∨ phase.token ≠ [] := by
  cases phase <;> cases taken <;> first | exact .inl rfl | exact .inr (cons_ne_nil _ _)

/-- The path changes hands only by a create when it is free, and by a session or a signal handler that has the
token. -/
private theorem name_of_step {a : Action} (taken : w.step g a = some w') :
    w'.name = w.name ∨ w.name = none ∨ ∃ place, (∀ p, place ≠ .registry p) ∧ w.tokens place ≠ [] := by
  cases a with
  | session s choice =>
    change w.stepSession g s choice = some w' at taken
    unfold World.stepSession at taken
    split at taken
    · split at taken <;> cases taken
      exact .inl rfl
    · exact (name_of_poll taken).imp_right .inl
    · split at taken <;> cases taken
      exact .inl rfl
    · split at taken
      · refine (name_of_proceed taken).imp_right fun token => .inr ⟨.session s, ?_, token⟩
        intro p same
        cases same
      · cases taken
  | signal k =>
    change w.stepSignal g k = some w' at taken
    unfold World.stepSignal at taken
    split at taken <;> cases taken
    exact .inl rfl
  | cleaner k ok =>
    change w.stepCleaner k ok = some w' at taken
    unfold World.stepCleaner at taken
    split at taken
    · cases taken
    · cases taken
      exact .inl rfl
    · rename_i file rest here
      refine .inr (.inr ⟨.cleaner k, ?_, ?_⟩)
      · intro p same
        cases same
      · show (w.cleaners k).token ≠ []
        rw [here]
        exact cons_ne_nil _ _

/-- No two processes hold the lock. -/
def Exclusive (g : Setting) (w : World) : Prop :=
  ∀ s t, g.session s ≠ g.session t → ¬(Holder g w s ∧ Holder g w t)

/-- The step does not take away the file another process holds. -/
def Harmless (g : Setting) (w : World) (a : Action) (w' : World) : Prop :=
  ∀ t file id, w.sessions t = .holding file id → Holder g w t → g.session t ≠ a.process g →
    w.name = some file → w'.name = some file

theorem Holder.token {s : ℕ} (holder : Holder g w s) : w.tokens (.registry (g.session s)) ≠ [] := by
  obtain ⟨file, id, -, registered⟩ := holder
  obtain ⟨entry, found⟩ := AList.exists_lookup_of_mem registered
  exact ne_nil_of_mem (mem_map_of_mem (AList.mem_lookup_iff.mp found))

theorem Owned.exclusive (owned : w.Owned g) : Exclusive g w := by
  intro s t apart both
  have same := owned.sole.place _ _ both.1.token both.2.token
  exact apart (Place.registry.inj same)

theorem Owned.harmless {a : Action} (owned : w.Owned g) (taken : w.step g a = some w') : Harmless g w a w' := by
  intro t file id _ holder _ held
  rcases name_of_step taken with same | free | ⟨place, elsewhere, token⟩
  · exact same.trans held
  · rw [free] at held
    cases held
  · exact absurd (owned.sole.place _ _ token holder.token) (elsewhere _)

/-- A step in which no release goes on for a registration that was taken. -/
def Careful (g : Setting) (w : World) (a : Action) (w' : World) : Prop :=
  registered g w a = true ∧ w.step g a = some w'

/-- In every run in which no release goes on for a lock that a signal handler has taken, no two processes hold
the lock, and no process unlinks the file another one holds. -/
theorem lockFile_exclusive (g : Setting) (stale : Option ℕ) {actions : List Action}
    (run : Path (Careful g) (start stale) actions w) :
    Exclusive g w ∧ ∀ a w', Careful g w a w' → Harmless g w a w' := by
  have owned := run.invariant (P := Owned g) (fun _ _ _ owned careful => owned.step careful.1 careful.2)
    (start_owned g stale)
  exact ⟨owned.exclusive, fun _ _ careful => owned.harmless careful.2⟩

/-! ## Two runs -/

def carefully (g : Setting) (w : World) (actions : List Action) : Option World :=
  actions.foldlM (fun w a => if registered g w a then w.step g a else none) w

theorem path_of_carefully {actions : List Action} (done : carefully g w actions = some w') :
    Path (Careful g) w actions w' := by
  induction actions generalizing w with
  | nil =>
    cases done
    exact .nil _
  | cons a actions ih =>
    unfold carefully at done
    rw [foldlM_cons, Option.bind_eq_bind, Option.bind_eq_some_iff] at done
    obtain ⟨mid, step, rest⟩ := done
    split at step
    · rename_i careful
      exact .cons ⟨careful, step⟩ (ih rest)
    · cases step

/-- Every session and every signal handler is in a process of its own number. -/
def apart : Setting := ⟨id, id⟩

/-- `HoldLockFile` returns without an error; the file gets this inode. -/
def holds (s inode : ℕ) : List Action :=
  [.session s (.call false), .session s (.create inode)] ++ List.replicate 7 (.session s (.proceed true))

/-- The release function runs to its end. -/
def releases (s : ℕ) : List Action := .session s .release :: List.replicate 3 (.session s (.proceed true))

/-- A lock is taken, released and taken by another process. -/
theorem handover_exclusive : ∃ w : World, Path (Careful apart) (start none) (holds 0 7 ++ releases 0 ++ holds 1 7) w ∧
    Holder apart w 1 ∧ Exclusive apart w := by
  have run : Path (Careful apart) (start none) (holds 0 7 ++ releases 0 ++ holds 1 7) _ := path_of_carefully rfl
  exact ⟨_, run, ⟨_, _, rfl, by decide⟩, (lockFile_exclusive apart none run).1⟩

/-- A signal handler of process 0 has compared the path with the file it took, and then the release of process 0
removes that file. Process 1 takes the lock, and the signal handler of process 0 unlinks its file; process 2 takes
the lock too. Neither process 1 nor process 2 has released its lock or got a signal. -/
theorem released_twice : ∃ w w' w'' : World,
    (start none).run apart (holds 0 7 ++ [.signal 0, .cleaner 0 true] ++ releases 0 ++ holds 1 8) = some w ∧
    Holder apart w 1 ∧
    w.step apart (.cleaner 0 true) = some w' ∧ ¬Harmless apart w (.cleaner 0 true) w' ∧
    w'.run apart (holds 2 9) = some w'' ∧ ¬Exclusive apart w'' := by
  refine ⟨_, _, _, rfl, ⟨_, _, rfl, by decide⟩, rfl, fun harmless => ?_, rfl, fun exclusive => ?_⟩
  · have kept := harmless 1 ⟨2, 8⟩ 1 rfl ⟨_, _, rfl, by decide⟩ (by decide) rfl
    cases kept
  · exact exclusive 1 2 (by decide) ⟨⟨_, _, rfl, by decide⟩, ⟨_, _, rfl, by decide⟩⟩

end World

end Socat.Xio
