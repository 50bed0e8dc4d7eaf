import Socat.Relay.Model.Shared

/-! # No input is lost between sessions

After every script of actions the bytes the sessions' reads returned, the input kept for the next session
and the bytes a read has in its hands are together what the inner stream returned, provided that it returned
no bytes together with a timeout to an open session: such bytes are dropped when the read is repeated.
Input waits for the next session only while nothing is being read, which keeps the order.
-/

namespace Socat.Relay

open Machine List

/-- Bytes that a session's read has in its hands. -/
def Reader.hands : Reader → Bytes
  | .returned _ data _ => data
  | _ => []

/-- Bytes that the background read has in its hands. -/
def Background.hands : Background → Bytes
  | .returned data _ => data
  | _ => []

section

variable (size : ℕ) (data : Bytes) (err : Option GoError)

@[simp] theorem hands_none : Reader.none.hands = [] := rfl
@[simp] theorem hands_loop : (Reader.loop size).hands = [] := rfl
@[simp] theorem hands_waiting : (Reader.waiting size).hands = [] := rfl
@[simp] theorem hands_returned : (Reader.returned size data err).hands = data := rfl
@[simp] theorem backgroundHands_none : Background.none.hands = [] := rfl
@[simp] theorem backgroundHands_reading : (Background.reading size).hands = [] := rfl
@[simp] theorem backgroundHands_returned : (Background.returned data err).hands = data := rfl

end

/-- Bytes in the hands of a session's read that came with a timeout. -/
def Reader.timedOut : Reader → Bytes
  | .returned _ data err => if err.any isTimeoutErr then data else []
  | _ => []

private theorem timedOut_of_hands {r : Reader} (empty : r.hands = []) : r.timedOut = [] := by
  cases r with
  | returned size data err =>
    rw [Reader.timedOut, show data = [] from empty]
    exact ite_self _
  | _ => rfl

/-! ## What the schedule says -/

/-- The bytes the inner stream returns. -/
def SharedAction.input : SharedAction → Bytes
  | .innerReturns data _ | .backgroundReturns data _ => data
  | _ => []

/-- Whether a session is open, the bytes of the last read of the inner stream if it timed out, and those of the
reads that timed out and were looked at while a session was open. -/
structure Timeouts where
  opened : Bool := false
  last : Bytes := []
  bytes : Bytes := []

def Timeouts.note (t : Timeouts) : SharedAction → Timeouts
  | .newSession => { t with opened := true }
  | .close => { t with opened := false }
  | .innerReturns data err => { t with last := if err.any isTimeoutErr then data else [] }
  | .advance => { t with last := [], bytes := t.bytes ++ if t.opened then t.last else [] }
  | _ => t

/-- The bytes that came with a timeout while a session was open. -/
def timeoutBytes (script : List SharedAction) : Bytes := (script.foldl Timeouts.note {}).bytes

/-! ## What a step does -/

/-- The read talks to the inner stream itself. -/
def Reader.direct : Reader → Bool
  | .poll _ | .polled .. | .inner _ | .returned .. => true
  | _ => false

/-- The read leaves the inner stream to the background. -/
def Reader.detached : Reader → Bool
  | .background _ | .waiting _ => true
  | _ => false

namespace SharedState

/-- What the sessions' reads returned, in order. -/
def delivered (s : SharedState) : Bytes := s.results.flatMap Prod.fst

/-- Bytes that a read got from the inner stream and has not handed on. -/
def transit (s : SharedState) : Bytes := s.reader.hands ++ s.reading.hands

/-- Everything that is accounted for, in order. -/
def held (s : SharedState) : Bytes := s.delivered ++ s.pending ++ s.transit

/-- Nothing is kept for later while the inner stream is being read, and one kind of stream is read in
one way only. -/
structure Orderly (mode : StreamMode) (s : SharedState) : Prop where
  direct : s.reader.direct = true → (mode.poll || mode.deadline) = true ∧ s.pending = []
  detached : s.reader.detached = true → (mode.poll || mode.deadline) = false
  background : s.reading ≠ .none → (mode.poll || mode.deadline) = false ∧ s.pending = []

/-- What an action drops: the bytes that came with a timeout, if the session is open. -/
def dropped (s : SharedState) : SharedAction → Bytes
  | .advance => if s.closed then [] else s.reader.timedOut
  | _ => []

private theorem dropped_of_hands {s : SharedState} (empty : s.reader.hands = []) (action : SharedAction) :
    s.dropped action = [] := by
  cases action with
  | advance =>
    rw [dropped, timedOut_of_hands empty]
    exact ite_self _
  | _ => rfl

section Steps

variable {mode : StreamMode} {s s' : SharedState}

section

variable (orderly : s.Orderly mode)
include orderly

theorem Orderly.reading_eq_none (direct : (mode.poll || mode.deadline) = true) : s.reading = .none := by
  by_contra busy
  exact absurd ((orderly.background busy).1.symm.trans direct) (by simp)

theorem Orderly.hands_eq_nil (indirect : (mode.poll || mode.deadline) = false) : s.reader.hands = [] := by
  unfold Reader.hands
  split
  · rename_i here
    have direct := orderly.direct (by rw [here]; rfl)
    exact absurd (indirect.symm.trans direct.1) (by simp)
  · rfl

omit orderly in
/-- A read that returns is over. -/
theorem Orderly.over {data : Bytes} {err : Option GoError}
    (background : s.reading ≠ .none → (mode.poll || mode.deadline) = false ∧ s.pending = []) :
    (s.finish data err).Orderly mode := ⟨nofun, nofun, background⟩

/-- A read that returns nothing. -/
theorem Orderly.finish (stored err : Option GoError) (empty : s.reader.hands = []) :
    ({ s with err := stored }.finish [] err).Orderly mode ∧ s.held = ({ s with err := stored }.finish [] err).held := by
  refine ⟨.over orderly.background, ?_⟩
  simp [held, transit, SharedState.finish, delivered, empty]

/-- A read that only moves on. -/
theorem Orderly.goto {reader : Reader} (before : s.reader.hands = []) (after : reader.hands = [])
    (direct : reader.direct = true → (mode.poll || mode.deadline) = true ∧ s.pending = [])
    (detached : reader.detached = true → (mode.poll || mode.deadline) = false) :
    ({ s with reader } : SharedState).Orderly mode ∧ s.held = ({ s with reader } : SharedState).held := by
  refine ⟨⟨direct, detached, orderly.background⟩, ?_⟩
  simp [held, transit, delivered, before, after]

theorem Orderly.take {size : ℕ} (at_take : s.reader = .take size) :
    (s.take mode size).Orderly mode ∧ s.held = (s.take mode size).held := by
  have empty : s.reader.hands = [] := by rw [at_take]; rfl
  unfold SharedState.take
  split
  · rename_i kept
    have quiet : s.reading = .none := by
      by_contra busy
      exact kept (orderly.background busy).2
    refine ⟨.over (by simp [quiet]), ?_⟩
    simp [held, transit, SharedState.finish, delivered, empty]
  · rename_i nothing
    rw [not_not] at nothing
    split
    · exact orderly.finish none _ empty
    · refine orderly.goto empty ?_ ?_ ?_
      · split
        · rfl
        · split <;> rfl
      · intro direct
        refine ⟨?_, nothing⟩
        cases poll : mode.poll <;> cases deadline : mode.deadline <;> simp_all [Reader.direct]
      · intro detached
        cases poll : mode.poll <;> cases deadline : mode.deadline <;> simp_all [Reader.detached]

theorem Orderly.startBackground {size : ℕ} (at_background : s.reader = .background size) :
    (s.startBackground size).Orderly mode ∧ s.held = (s.startBackground size).held := by
  have empty : s.reader.hands = [] := by rw [at_background]; rfl
  have indirect := orderly.detached (by rw [at_background]; rfl)
  unfold SharedState.startBackground
  split
  · exact orderly.goto empty rfl nofun fun _ => indirect
  · rename_i free
    simp only [ne_eq, not_or, not_not] at free
    refine ⟨⟨nofun, fun _ => indirect, fun _ => ⟨indirect, free.1⟩⟩, ?_⟩
    simp [held, transit, delivered, empty, free.2.2]

/-- The inner stream has returned: its bytes are kept, returned or dropped. -/
theorem Orderly.afterRead {size : ℕ} {data : Bytes} {err : Option GoError}
    (at_return : s.reader = .returned size data err) :
    (s.afterRead size data err).Orderly mode ∧ s.held = (s.afterRead size data err).held ++ s.dropped .advance := by
  obtain ⟨direct, nothing⟩ := orderly.direct (by rw [at_return]; rfl)
  have quiet := orderly.reading_eq_none direct
  have hands : s.reader.hands = data := by rw [at_return]; rfl
  have returns : ∀ err, (s.finish data err).Orderly mode ∧ s.held = (s.finish data err).held := by
    intro err
    refine ⟨.over (by simp [quiet]), ?_⟩
    simp [held, transit, SharedState.finish, delivered, hands, nothing, quiet]
  unfold SharedState.afterRead dropped
  rw [at_return]
  split
  · refine ⟨.over (by simp [keep, quiet]), ?_⟩
    simp [held, transit, SharedState.finish, keep, delivered, hands, nothing, quiet]
  · cases err with
    | none => simpa [Reader.timedOut] using returns none
    | some err =>
      by_cases late : isTimeoutErr err = true
      · simp only [late, if_true, Reader.timedOut, Option.any_some]
        refine ⟨⟨nofun, nofun, by simp [quiet]⟩, ?_⟩
        simp [held, transit, delivered, hands, nothing, quiet]
      · simpa [late, Reader.timedOut] using returns (some err)

theorem Orderly.advance (taken : s.advance mode = some s') :
    s'.Orderly mode ∧ s.held = s'.held ++ s.dropped .advance := by
  have onward (empty : s.reader.hands = []) (moved : s'.Orderly mode ∧ s.held = s'.held) :
      s'.Orderly mode ∧ s.held = s'.held ++ s.dropped .advance := by
    rwa [dropped_of_hands empty, append_nil]
  unfold SharedState.advance at taken
  split at taken
  · rename_i size here
    have empty : s.reader.hands = [] := by rw [here]; rfl
    refine onward empty ?_
    obtain rfl := Option.some.inj taken
    split
    · exact orderly.finish s.err _ empty
    · exact orderly.goto empty rfl nofun nofun
  · rename_i size here
    exact onward (by rw [here]; rfl) (Option.some.inj taken ▸ orderly.take here)
  · rename_i size result here
    have empty : s.reader.hands = [] := by rw [here]; rfl
    have direct := orderly.direct (by rw [here]; rfl)
    refine onward empty ?_
    obtain rfl := Option.some.inj taken
    split
    · exact orderly.finish s.err _ empty
    · cases result with
      | ready => exact orderly.goto empty rfl (fun _ => direct) nofun
      | idle => exact orderly.goto empty rfl nofun nofun
      | failed err => exact orderly.finish s.err _ empty
  · rename_i size here
    exact onward (by rw [here]; rfl) (Option.some.inj taken ▸ orderly.startBackground here)
  · rename_i size here
    have empty : s.reader.hands = [] := by rw [here]; rfl
    refine onward empty ?_
    obtain ⟨-, rfl⟩ := guarded taken
    exact orderly.goto empty rfl nofun nofun
  · rename_i size data err here
    exact Option.some.inj taken ▸ orderly.afterRead here
  all_goals contradiction

/-- One action keeps the order. What it takes in is held then, and what it drops is the end of what was held. -/
theorem Orderly.step {action : SharedAction} (taken : s.step mode action = some s') :
    s'.Orderly mode ∧ s.held ++ action.input = s'.held ++ s.dropped action := by
  have onward (none : action.input = []) (nothing : s.dropped action = [])
      (moved : s'.Orderly mode ∧ s.held = s'.held) :
      s'.Orderly mode ∧ s.held ++ action.input = s'.held ++ s.dropped action := by
    rwa [none, nothing, append_nil, append_nil]
  cases action with
  | newSession =>
    obtain ⟨-, rfl⟩ := guarded taken
    exact onward rfl rfl ⟨⟨orderly.direct, orderly.detached, orderly.background⟩, rfl⟩
  | close =>
    obtain rfl := Option.some.inj taken
    exact onward rfl rfl ⟨⟨orderly.direct, orderly.detached, orderly.background⟩, rfl⟩
  | read size =>
    obtain ⟨free, rfl⟩ := guarded taken
    exact onward rfl rfl (orderly.goto (by rw [free]; rfl) rfl nofun nofun)
  | advance => exact (orderly.advance taken).imp_right fun moved => (append_nil _).trans moved
  | done =>
    simp only [SharedState.step] at taken
    split at taken
    · rename_i size here
      obtain ⟨-, rfl⟩ := guarded taken
      exact onward rfl rfl (orderly.finish s.err _ (by rw [here]; rfl))
    · contradiction
  | pollReturns result =>
    simp only [SharedState.step] at taken
    split at taken
    · rename_i size here
      have direct := orderly.direct (by rw [here]; rfl)
      refine onward rfl rfl ?_
      exact Option.some.inj taken ▸ orderly.goto (by rw [here]; rfl) rfl (fun _ => direct) nofun
    · contradiction
  | innerReturns data err =>
    simp only [SharedState.step] at taken
    split at taken
    · rename_i size here
      obtain ⟨direct, nothing⟩ := orderly.direct (by rw [here]; rfl)
      have quiet := orderly.reading_eq_none direct
      obtain ⟨-, rfl⟩ := guarded taken
      have empty : s.reader.hands = [] := by rw [here]; rfl
      refine ⟨⟨fun _ => ⟨direct, nothing⟩, nofun, by simp [quiet]⟩, ?_⟩
      simp [held, transit, delivered, empty, quiet, SharedAction.input, dropped]
    · contradiction
  | backgroundReturns data err =>
    simp only [SharedState.step] at taken
    split at taken
    · rename_i size here
      obtain ⟨indirect, nothing⟩ := orderly.background (by simp [here])
      have empty := orderly.hands_eq_nil indirect
      obtain ⟨-, rfl⟩ := guarded taken
      refine ⟨⟨orderly.direct, orderly.detached, fun _ => ⟨indirect, nothing⟩⟩, ?_⟩
      simp [held, transit, delivered, empty, here, SharedAction.input, dropped]
    · contradiction
  | backgroundStores =>
    simp only [SharedState.step] at taken
    split at taken
    · rename_i data err here
      obtain ⟨indirect, nothing⟩ := orderly.background (by simp [here])
      obtain rfl := Option.some.inj taken
      have empty := orderly.hands_eq_nil indirect
      refine onward rfl rfl ⟨⟨fun direct => ?_, orderly.detached, by simp⟩, ?_⟩
      · exact absurd ((orderly.direct direct).1.symm.trans indirect) (by simp)
      · simp [held, transit, delivered, empty, here, nothing]
    · contradiction

end

/-! ## Scripts -/

/-- The schedule knows whether a session is open and which bytes in a read's hands came with a timeout. -/
structure Noted (s : SharedState) (t : Timeouts) : Prop where
  opened : t.opened = !s.closed
  last : t.last = s.reader.timedOut

/-- A read that has gone on has looked at what it had. -/
private theorem advance_looked (taken : s.advance mode = some s') : s'.closed = s.closed ∧ s'.reader.timedOut = [] := by
  unfold SharedState.advance SharedState.take SharedState.startBackground SharedState.afterRead at taken
  repeat' split at taken
  all_goals cases taken <;> exact ⟨rfl, rfl⟩

theorem Noted.step {t : Timeouts} {action : SharedAction} (noted : s.Noted t) (taken : s.step mode action = some s') :
    s'.Noted (t.note action) ∧ (t.note action).bytes = t.bytes ++ s.dropped action := by
  cases action with
  | advance =>
    obtain ⟨closed, looked⟩ := advance_looked taken
    refine ⟨⟨by rw [closed]; exact noted.opened, looked.symm⟩, congrArg (t.bytes ++ ·) ?_⟩
    rw [noted.opened, noted.last, dropped]
    cases s.closed <;> rfl
  | _ => grind [SharedState.step, Timeouts.note, Noted, SharedState.finish, Reader.timedOut, dropped]

/-- What is accounted for is what the inner stream returned, up to the bytes of timeouts. -/
structure Accounted (mode : StreamMode) (past : List SharedAction) (s : SharedState) : Prop where
  orderly : s.Orderly mode
  noted : s.Noted (past.foldl Timeouts.note {})
  exact : timeoutBytes past = [] → s.held = past.flatMap SharedAction.input
  count : s.held.length + (timeoutBytes past).length = (past.flatMap SharedAction.input).length

theorem Accounted.step {past : List SharedAction} {action : SharedAction} (accounted : s.Accounted mode past)
    (taken : s.step mode action = some s') : s'.Accounted mode (past ++ [action]) := by
  obtain ⟨orderly, moved⟩ := accounted.orderly.step taken
  obtain ⟨noted, bytes⟩ := accounted.noted.step taken
  have length := congrArg List.length moved
  have count := accounted.count
  have fold : (past ++ [action]).foldl Timeouts.note {} = (past.foldl Timeouts.note {}).note action :=
    foldl_concat ..
  have timeouts : timeoutBytes (past ++ [action]) = timeoutBytes past ++ s.dropped action :=
    (congrArg Timeouts.bytes fold).trans bytes
  refine ⟨orderly, fold ▸ noted, fun none => ?_, ?_⟩
  · rw [timeouts, append_eq_nil_iff] at none
    rw [none.2, append_nil, accounted.exact none.1] at moved
    simp [← moved]
  · rw [timeouts]
    simp only [flatMap_append, flatMap_singleton, length_append] at length count ⊢
    omega

end Steps

end SharedState

open SharedState

/-- After every script, the bytes the sessions' reads returned, followed by what is kept and by what a read has in its
hands, are exactly what the inner stream returned if and only if it returned no bytes together with a timeout while a
session was open. -/
theorem follow_held {mode : StreamMode} {script : List SharedAction} {s : SharedState}
    (followed : follow (SharedState.step mode) script {} = some s) :
    s.delivered ++ s.pending ++ s.transit = script.flatMap SharedAction.input ↔ timeoutBytes script = [] := by
  have start : ({} : SharedState).Accounted mode [] := ⟨⟨nofun, nofun, nofun⟩, ⟨rfl, rfl⟩, fun _ => rfl, rfl⟩
  have accounted : s.Accounted mode script := follow_invariant (fun _ _ _ _ => Accounted.step) followed start
  refine ⟨fun conserved => ?_, accounted.exact⟩
  have total : s.held.length = (script.flatMap SharedAction.input).length := congrArg List.length conserved
  have count := accounted.count
  exact eq_nil_of_length_eq_zero (by omega)

/-- A stream without deadlines: the background read of a closed session feeds the next one. -/
def handedOn : List SharedAction :=
  [.newSession, .read 4, .advance, .advance, .advance, .close, .done, .backgroundReturns [1, 2] none, .newSession,
    .backgroundStores, .read 1, .advance, .advance]

theorem handedOn_held : ∃ s, follow (SharedState.step ⟨false, false⟩) handedOn {} = some s ∧
    s.delivered = [1] ∧ s.delivered ++ s.pending ++ s.transit = [1, 2] := by
  obtain ⟨s, followed, first⟩ : ∃ s, follow (SharedState.step ⟨false, false⟩) handedOn {} = some s ∧
    s.delivered = [1] :=
    ⟨_, rfl, rfl⟩
  exact ⟨s, followed, first, (follow_held followed).mpr rfl⟩

/-- A stream with deadlines that returns bytes together with a timeout: they reach no session. -/
def timedOut : List SharedAction :=
  [.newSession, .read 4, .advance, .advance, .innerReturns [1] (some (.sentinel .osDeadlineExceeded)), .advance,
    .advance, .advance, .innerReturns [2] none, .advance]

theorem timedOut_loses : ∃ s, follow (SharedState.step ⟨false, true⟩) timedOut {} = some s ∧ s.reader = .none ∧
    timedOut.flatMap SharedAction.input = [1, 2] ∧ s.delivered ++ s.pending ++ s.transit = [2] := by
  have followed : follow (SharedState.step ⟨false, true⟩) timedOut {} = some {
      closed := false, results := [([2], none)] } := by decide +kernel
  exact ⟨_, followed, rfl, rfl, rfl⟩

end Socat.Relay
