import Mathlib.Data.List.Perm.Subperm
import Socat.Relay.Model.Transfer

/-! # What a transfer reports

Outcomes leave the channel in the order in which the workers put them in. Those taken by the select are
inspected; once the select has taken the linger timer or the cancelled context, the rest is drained and
not inspected. `Account` keeps this division, and `Phased` what `Transfer` has waited for.
-/

namespace Socat.Relay

open Machine TransferState List

/-! ## Selecting -/

private theorem foldl_selectTransferError (first : Option GoError) (inspected : List DirOutcome) :
    inspected.foldl (fun first o => selectTransferError first (some o)) first =
      first.or ((inspected.find? (·.cls = .failed)).map DirOutcome.wrapped) := by
  induction inspected generalizing first with
  | nil => simp
  | cons o rest ih =>
    rw [foldl_cons, ih]
    cases first with
    | some err => simp [selectTransferError]
    | none =>
      by_cases failed : o.cls = .failed
      · simp [selectTransferError, failed]
      · simp [selectTransferError, failed]

/-- The first failure among the inspected outcomes. -/
theorem selectedTransferError_eq {o : TransferOutcomes} {inspected : List DirOutcome}
    (order : o.inspect = inspected.map DirOutcome.dir) (stored : ∀ r ∈ inspected, o.outcome r.dir = some r) :
    selectedTransferError o = (inspected.find? (·.cls = .failed)).map DirOutcome.wrapped := by
  have same : ∀ (first : Option GoError) (r : DirOutcome), r ∈ inspected →
      selectTransferError first (o.outcome r.dir) = selectTransferError first (some r) := fun first r member => by
    rw [stored r member]
  unfold selectedTransferError
  rw [order, foldl_map, foldl_ext _ _ _ same, foldl_selectTransferError]
  rfl

/-! ## Accounting -/

/-- The outcomes sent so far: inspected, drained, or in the channel. -/
structure Divided (s : TransferState) (inspected drained : List DirOutcome) : Prop where
  sent : s.sent = inspected ++ drained ++ s.results
  order : s.outcomes.inspect = inspected.map DirOutcome.dir
  stored : ∀ r ∈ inspected ++ drained, s.outcomes.outcome r.dir = some r
  finished : s.finished = (inspected ++ drained).length
  undrained : s.stopped = false → drained = []

structure Account (cfg : TransferConfig) (s : TransferState) : Prop where
  divided : ∃ inspected drained, Divided s inspected drained
  once : (s.sent.map DirOutcome.dir).Nodup
  waiting : ∀ dir, s.workers dir = .running → dir ∉ s.sent.map DirOutcome.dir
  started : ∀ dir, cfg.runs dir = true ↔ s.workers dir ≠ .absent
  sender : ∀ dir ∈ s.sent.map DirOutcome.dir, cfg.runs dir = true
  selecting : s.main = .select → s.stopped = false
  draining : s.main = .drain → s.stopped = true

/-- Each worker sends one outcome. -/
theorem Account.length_sent {cfg : TransferConfig} {s : TransferState} (account : Account cfg s) :
    s.sent.length ≤ cfg.nDirs := by
  have subset : s.sent.map DirOutcome.dir ⊆ [Direction.leftToRight, .rightToLeft].filter cfg.runs := by
    intro dir member
    refine mem_filter.mpr ⟨?_, account.sender dir member⟩
    cases dir <;> simp
  have short := (subperm_of_subset account.once subset).length_le
  have size : ([Direction.leftToRight, .rightToLeft].filter cfg.runs).length = cfg.nDirs := by
    cases left : cfg.leftToRight <;> cases right : cfg.rightToLeft <;>
      simp [TransferConfig.runs, TransferConfig.nDirs, left, right]
  rwa [length_map, size] at short

variable {dir : Direction} {r : DirOutcome}

section Accept

variable {o : TransferOutcomes} {r : DirOutcome} {live : Bool}

private theorem outcome_accept_self : (o.accept r live).outcome r.dir = some r := by
  unfold TransferOutcomes.accept TransferOutcomes.outcome
  cases r.dir <;> cases live <;> rfl

private theorem outcome_accept_of_ne (other : dir ≠ r.dir) : (o.accept r live).outcome dir = o.outcome dir := by
  unfold TransferOutcomes.accept TransferOutcomes.outcome
  cases chosen : r.dir <;> cases dir <;> cases live <;> first | rfl | exact absurd chosen.symm other

theorem inspect_accept : (o.accept r live).inspect = o.inspect ++ if live then [r.dir] else [] := by
  unfold TransferOutcomes.accept
  cases r.dir <;> cases live <;> simp

end Accept

/-- The head of the channel joins the inspected outcomes, or the drained ones once there are such. -/
theorem Divided.accept {s : TransferState} {inspected drained : List DirOutcome}
    (divided : Divided s inspected drained) (once : (s.sent.map DirOutcome.dir).Nodup)
    {rest : List DirOutcome} (head : s.results = r :: rest) (live : Bool)
    (first : live = true → s.stopped = false) (last : live = false → s.stopped = true) :
    ∃ inspected' drained', Divided (s.accept r rest live) inspected' drained' := by
  obtain ⟨sent, order, stored, finished, undrained⟩ := divided
  have fresh : ∀ r' ∈ inspected ++ drained, r'.dir ≠ r.dir := by
    intro r' member same
    rw [sent, head, map_append, nodup_append] at once
    exact once.2.2 r'.dir (mem_map_of_mem member) r.dir (by simp) same
  have kept : ∀ r' ∈ inspected ++ drained ++ [r], (s.outcomes.accept r live).outcome r'.dir = some r' := by
    intro r' member
    rcases mem_append.mp member with old | new
    · rw [outcome_accept_of_ne (fresh r' old), stored r' old]
    · rw [mem_singleton.mp new, outcome_accept_self]
  cases live with
  | true =>
    have none : drained = [] := undrained (first rfl)
    subst none
    refine ⟨inspected ++ [r], [], ?_, ?_, ?_, ?_, fun _ => rfl⟩
    · simpa [TransferState.accept, head] using sent
    · simp [TransferState.accept, inspect_accept, order]
    · simpa [TransferState.accept] using kept
    · simp [TransferState.accept, finished]
  | false =>
    refine ⟨inspected, drained ++ [r], ?_, ?_, ?_, ?_, fun going => ?_⟩
    · simpa [TransferState.accept, head] using sent
    · simp [TransferState.accept, inspect_accept, order]
    · simpa [TransferState.accept] using kept
    · simp [TransferState.accept, finished, Nat.add_assoc]
    · exact absurd (going.symm.trans (last rfl)) (by simp)

section Steps

variable {cfg : TransferConfig} {s s' : TransferState}

/-- Steps that leave outcomes and workers alone. -/
theorem Account.same (account : Account cfg s) (sent : s'.sent = s.sent) (results : s'.results = s.results)
    (outcomes : s'.outcomes = s.outcomes) (finished : s'.finished = s.finished) (workers : s'.workers = s.workers)
    (going : s'.stopped = false → s.stopped = false) (selecting : s'.main = .select → s'.stopped = false)
    (draining : s'.main = .drain → s'.stopped = true) : Account cfg s' := by
  obtain ⟨inspected, drained, divided⟩ := account.divided
  refine ⟨⟨inspected, drained, ?_, ?_, ?_, ?_, fun still => divided.undrained (going still)⟩, ?_, ?_, ?_, ?_, selecting,
    draining⟩
  · rw [sent, results]
    exact divided.sent
  · rw [outcomes]
    exact divided.order
  · rw [outcomes]
    exact divided.stored
  · rw [finished]
    exact divided.finished
  · rw [sent]
    exact account.once
  · rw [sent, workers]
    exact account.waiting
  · rw [workers]
    exact account.started
  · rw [sent]
    exact account.sender

theorem Account.accept (account : Account cfg s) {rest : List DirOutcome} (head : s.results = r :: rest)
    (live : Bool) (first : live = true → s.stopped = false) (last : live = false → s.stopped = true) :
    Account cfg (s.accept r rest live) := by
  obtain ⟨inspected, drained, divided⟩ := account.divided
  exact ⟨divided.accept account.once head live first last, account.once, account.waiting, account.started,
    account.sender, account.selecting, account.draining⟩

/-- A worker's outcome. -/
theorem Account.returns (account : Account cfg s) (running : s.workers dir = .running) (own : r.dir = dir)
    {live : List DirOutcome} :
    Account cfg { s.setWorker dir .sent with results := s.results ++ [r], sent := s.sent ++ [r], live } := by
  obtain ⟨inspected, drained, sent, order, stored, finished, undrained⟩ := account.divided
  refine ⟨⟨inspected, drained, ?_, order, stored, finished, undrained⟩, ?_, ?_, ?_, ?_, account.selecting,
    account.draining⟩
  · rw [← append_assoc, ← sent]
  · rw [map_append, nodup_append]
    refine ⟨account.once, by simp, fun d member d' last same => ?_⟩
    simp only [map_cons, map_nil, mem_singleton] at last
    exact account.waiting dir running (own ▸ last ▸ same ▸ member)
  · intro d waiting
    by_cases same : d = dir
    · subst same
      simp [setWorker] at waiting
    · simp only [setWorker, Function.update_of_ne same] at waiting
      simpa [own, same] using account.waiting d waiting
  · intro d
    by_cases same : d = dir
    · subst same
      simp [setWorker, account.started, running]
    · simp only [setWorker, Function.update_of_ne same]
      exact account.started d
  · intro d member
    rw [map_append] at member
    rcases mem_append.mp member with old | new
    · exact account.sender d old
    · simp only [map_cons, map_nil, mem_singleton] at new
      exact (account.started d).mpr (by simp [new, own, running])

theorem Account.done (account : Account cfg s) (sent : s.workers dir = .sent) :
    Account cfg (s.setWorker dir .ended) := by
  obtain ⟨divided, once, waiting, started, sender, selecting, draining⟩ := account
  refine ⟨?_, once, fun d running => ?_, fun d => ?_, sender, selecting, draining⟩
  · obtain ⟨inspected, drained, divided⟩ := divided
    exact ⟨inspected, drained, divided.sent, divided.order, divided.stored, divided.finished, divided.undrained⟩
  · by_cases same : d = dir
    · subst same
      simp [setWorker] at running
    · simp only [setWorker, Function.update_of_ne same] at running
      exact waiting d running
  · by_cases same : d = dir
    · subst same
      simp [setWorker, started, sent]
    · simp only [setWorker, Function.update_of_ne same]
      exact started d

private theorem outcome_dir (dir : Direction) (result : WorkerReturn) : (result.outcome dir).dir = dir := by
  cases result with
  | eof | closed => rfl
  | error err =>
    simp only [WorkerReturn.outcome, classifyDirError]
    split <;> rfl

theorem linger_frame (cfg : TransferConfig) (s : TransferState) :
    (s.linger cfg).sent = s.sent ∧ (s.linger cfg).results = s.results ∧ (s.linger cfg).outcomes = s.outcomes ∧
      (s.linger cfg).finished = s.finished ∧ (s.linger cfg).workers = s.workers ∧
      (s.linger cfg).stopped = s.stopped ∧ (s.linger cfg).main = s.main := by
  unfold linger
  split
  · exact ⟨rfl, rfl, rfl, rfl, rfl, rfl, rfl⟩
  · split <;> exact ⟨rfl, rfl, rfl, rfl, rfl, rfl, rfl⟩

theorem Account.linger (account : Account cfg s) : Account cfg (s.linger cfg) := by
  obtain ⟨sent, results, outcomes, finished, workers, stopped, main⟩ := linger_frame cfg s
  exact account.same sent results outcomes finished workers (fun going => stopped ▸ going)
    (fun selecting => stopped.trans (account.selecting (main ▸ selecting)))
    fun draining => stopped.trans (account.draining (main ▸ draining))

theorem Account.resume (account : Account cfg s) {main : MainState} (selecting : main = .select → s.stopped = false)
    (draining : main = .drain → s.stopped = true) : Account cfg (s.resume cfg main) := by
  refine account.same rfl rfl rfl rfl rfl id (fun back => ?_) fun back => ?_
  all_goals
    simp only [TransferState.resume] at back ⊢
    split at back
  · exact selecting back
  · contradiction
  · exact draining back
  · contradiction

theorem Account.step (account : Account cfg s) {action : TransferAction} (taken : s.step cfg action = some s') :
    Account cfg s' := by
  cases action with
  | workerReturns dir result =>
    obtain ⟨running, rfl⟩ := guarded taken
    exact account.returns running (outcome_dir dir result)
  | workerDone dir =>
    obtain ⟨sent, rfl⟩ := guarded taken
    exact account.done sent
  | parentCancels | idleStops =>
    exact Option.some.inj taken ▸ account.same rfl rfl rfl rfl rfl id account.selecting account.draining
  | idleExpires | closerEnds =>
    obtain ⟨-, rfl⟩ := guarded taken
    exact account.same rfl rfl rfl rfl rfl id account.selecting account.draining
  | takeResult =>
    simp only [TransferState.step] at taken
    split at taken
    · rename_i r rest selecting head
      have live := account.selecting selecting
      have accepted := account.accept head true (fun _ => live) nofun
      obtain ⟨-, -, -, -, -, stopped, -⟩ := linger_frame cfg (s.accept r rest true)
      exact Option.some.inj taken ▸ accepted.linger.resume (fun _ => stopped.trans live) nofun
    · contradiction
  | takeLinger | takeDone =>
    obtain ⟨-, rfl⟩ := guarded taken
    refine account.same rfl rfl rfl rfl rfl nofun (fun back => ?_) fun _ => rfl
    simp only [TransferState.resume] at back
    split at back <;> contradiction
  | drain =>
    simp only [TransferState.step] at taken
    split at taken
    · rename_i r rest draining head
      have stopped := account.draining draining
      exact Option.some.inj taken ▸ (account.accept head false nofun fun _ => stopped).resume nofun fun _ => stopped
    · contradiction
  | waitWorkers | waitCloser =>
    obtain ⟨-, rfl⟩ := guarded taken
    exact account.same rfl rfl rfl rfl rfl id nofun nofun

/-! ## Waiting -/

/-- `Transfer` has left its loop. -/
def MainState.after : MainState → Bool
  | .waitWorkers | .waitCloser | .returned _ => true
  | .select | .drain => false

/-- `Transfer` has waited for the workers. -/
def MainState.waited : MainState → Bool
  | .waitCloser | .returned _ => true
  | _ => false

/-- What `Transfer` has waited for. -/
structure Waited (cfg : TransferConfig) (s : TransferState) : Prop where
  finished : s.main.after = true → cfg.nDirs ≤ s.finished
  workers : s.main.waited = true → ∀ dir, s.workers dir = .absent ∨ s.workers dir = .ended
  closer : ∀ result, s.main = .returned result → s.closerEnded = true ∧ result = selectedTransferError s.outcomes

private theorem idle_iff : s.idle = true ↔ ∀ dir, s.workers dir = .absent ∨ s.workers dir = .ended := by
  simp only [TransferState.idle, all_cons, all_nil, Bool.and_true, Bool.and_eq_true, decide_eq_true_eq]
  exact ⟨fun both dir => by cases dir; exacts [both.1, both.2], fun all => ⟨all _, all _⟩⟩

/-- Steps of the other goroutines. -/
theorem Waited.same (waited : Waited cfg s) (main : s'.main = s.main) (finished : s'.finished = s.finished)
    (outcomes : s'.outcomes = s.outcomes) (closer : s.closerEnded = true → s'.closerEnded = true)
    (workers : ∀ dir, s.workers dir = .absent ∨ s.workers dir = .ended → s'.workers dir = s.workers dir) :
    Waited cfg s' := by
  refine ⟨fun left => ?_, fun stopped dir => ?_, fun result back => ?_⟩
  · rw [finished]
    exact waited.finished (main ▸ left)
  · have before := waited.workers (main ▸ stopped) dir
    rw [workers dir before]
    exact before
  · obtain ⟨ended, selected⟩ := waited.closer result (main ▸ back)
    exact ⟨closer ended, outcomes ▸ selected⟩

/-- Going on with the loop, or leaving it. -/
theorem waited_resume (cfg : TransferConfig) (s : TransferState) {main : MainState} (loop : main.after = false) :
    Waited cfg (s.resume cfg main) := by
  unfold TransferState.resume
  split
  · have unfinished : main.waited = false := by cases main <;> first | rfl | contradiction
    refine ⟨fun left => absurd (left.symm.trans loop) (by simp), fun stopped => ?_, fun result back => ?_⟩
    · exact absurd (stopped.symm.trans unfinished) (by simp)
    · simp [show main = .returned result from back, MainState.after] at loop
  · exact ⟨fun _ => Nat.not_lt.mp ‹_›, nofun, nofun⟩

private theorem setWorker_of_idle {worker : WorkerState} {before : WorkerState} (busy : s.workers dir = before)
    (alive : before ≠ .absent ∧ before ≠ .ended) (other : Direction)
    (ended : s.workers other = .absent ∨ s.workers other = .ended) :
    (s.setWorker dir worker).workers other = s.workers other := by
  refine Function.update_of_ne (fun same => ?_) _ _
  subst same
  rcases ended with absent | ended
  · exact alive.1 (busy.symm.trans absent)
  · exact alive.2 (busy.symm.trans ended)

theorem Waited.step (waited : Waited cfg s) {action : TransferAction} (taken : s.step cfg action = some s') :
    Waited cfg s' := by
  cases action with
  | workerReturns dir | workerDone dir =>
    obtain ⟨busy, rfl⟩ := guarded taken
    exact waited.same rfl rfl rfl id (setWorker_of_idle busy (by decide))
  | parentCancels | idleStops => exact Option.some.inj taken ▸ waited.same rfl rfl rfl id fun _ _ => rfl
  | idleExpires =>
    obtain ⟨-, rfl⟩ := guarded taken
    exact waited.same rfl rfl rfl id fun _ _ => rfl
  | closerEnds =>
    obtain ⟨-, rfl⟩ := guarded taken
    exact waited.same rfl rfl rfl (fun _ => rfl) fun _ _ => rfl
  | takeResult | drain =>
    simp only [TransferState.step] at taken
    split at taken
    · exact Option.some.inj taken ▸ waited_resume cfg _ rfl
    · contradiction
  | takeLinger | takeDone =>
    obtain ⟨-, rfl⟩ := guarded taken
    exact waited_resume cfg _ rfl
  | waitWorkers =>
    obtain ⟨ready, rfl⟩ := guarded taken
    exact ⟨fun _ => waited.finished (by rw [ready.1]; rfl), fun _ => idle_iff.mp ready.2, nofun⟩
  | waitCloser =>
    obtain ⟨ready, rfl⟩ := guarded taken
    refine ⟨fun _ => waited.finished (by rw [ready.1]; rfl), fun _ => waited.workers (by rw [ready.1]; rfl), ?_⟩
    rintro result back
    exact ⟨ready.2, (MainState.returned.inj back).symm⟩

/-! ## The schedule -/

/-- The outcome a worker puts into the channel. -/
def TransferAction.outcome : TransferAction → Option DirOutcome
  | .workerReturns dir result => some (result.outcome dir)
  | _ => none

/-- What the actions so far say about the outcomes: which were sent, how many of them the select took, and whether it
took another case. -/
structure Told (past : List TransferAction) (s : TransferState) : Prop where
  sent : s.sent = past.filterMap TransferAction.outcome
  inspected : s.outcomes.inspect.length = past.count .takeResult
  stopped : s.stopped = true → .takeLinger ∈ past ∨ .takeDone ∈ past

variable {past : List TransferAction} {action : TransferAction}

theorem Told.push (told : Told past s) (sent : s'.sent = s.sent ++ [action].filterMap TransferAction.outcome)
    (inspect : s'.outcomes.inspect.length = s.outcomes.inspect.length + [action].count .takeResult)
    (stopped : s'.stopped = true → s.stopped = true ∨ action = .takeLinger ∨ action = .takeDone) :
    Told (past ++ [action]) s' := by
  refine ⟨?_, ?_, fun now => ?_⟩
  · rw [sent, told.sent, filterMap_append]
  · rw [inspect, told.inspected, count_append]
  · have before := told.stopped
    have stops := stopped now
    simp only [mem_append, mem_singleton]
    tauto

theorem Told.step (told : Told past s) (taken : s.step cfg action = some s') : Told (past ++ [action]) s' := by
  cases action with
  | workerReturns dir result =>
    obtain ⟨-, rfl⟩ := guarded taken
    exact told.push rfl rfl .inl
  | takeResult =>
    simp only [TransferState.step] at taken
    split at taken
    · rename_i r rest _ _
      obtain ⟨sent, -, outcomes, -, -, stopped, -⟩ := linger_frame cfg (s.accept r rest true)
      obtain rfl := Option.some.inj taken
      refine told.push (sent.trans (append_nil _).symm) ?_ fun now => .inl (stopped.symm.trans now)
      have inspected := congrArg List.length (@inspect_accept s.outcomes r true)
      rw [length_append] at inspected
      exact (congrArg (fun o => o.inspect.length) outcomes).trans inspected
    · contradiction
  | drain =>
    simp only [TransferState.step] at taken
    split at taken
    · obtain rfl := Option.some.inj taken
      refine told.push (append_nil _).symm (congrArg List.length ?_) .inl
      exact inspect_accept.trans (append_nil _)
    · contradiction
  | parentCancels | idleStops => exact Option.some.inj taken ▸ told.push (append_nil _).symm rfl .inl
  | takeLinger | takeDone =>
    obtain ⟨-, rfl⟩ := guarded taken
    exact told.push (append_nil _).symm rfl fun _ => by simp
  | workerDone | idleExpires | closerEnds | waitWorkers | waitCloser =>
    obtain ⟨-, rfl⟩ := guarded taken
    exact told.push (append_nil _).symm rfl .inl

end Steps

/-! ## Runs -/

private theorem account_start (cfg : TransferConfig) : Account cfg (start cfg) := by
  refine ⟨⟨[], [], rfl, rfl, nofun, rfl, fun _ => rfl⟩, nodup_nil, fun _ _ => not_mem_nil, fun dir => ?_,
    nofun, fun _ => rfl, nofun⟩
  simp only [start]
  split <;> simp_all

/-- When `Transfer` returns, its workers and the closer have ended, and the result is the first failure among the
outcomes it inspected. These are the outcomes in the order of their completion, as many as its select took; the rest
was still in the channel when the select took the linger timer or the cancelled context, and is drained: its failures
are not reported. -/
theorem transfer_reports {cfg : TransferConfig} {script : List TransferAction} {s : TransferState}
    {result : Option GoError} (followed : follow (TransferState.step cfg.prepared) script (start cfg.prepared) = some s)
    (back : s.main = .returned result) :
    (∀ dir, cfg.prepared.runs dir = true → s.workers dir = .ended) ∧ s.closerEnded = true ∧
      ∃ inspected drained, script.filterMap TransferAction.outcome = inspected ++ drained ∧
        inspected.length = script.count .takeResult ∧ s.outcomes.inspect = inspected.map DirOutcome.dir ∧
        result = (inspected.find? (·.cls = .failed)).map DirOutcome.wrapped ∧
        (.takeLinger ∉ script → .takeDone ∉ script →
          drained = [] ∧ ∀ r ∈ inspected, r.cls = .failed → result ≠ none) := by
  have keeps : ∀ past s action s', Account cfg.prepared s ∧ Waited cfg.prepared s ∧ Told past s →
      TransferState.step cfg.prepared s action = some s' →
      Account cfg.prepared s' ∧ Waited cfg.prepared s' ∧ Told (past ++ [action]) s' :=
    fun _ _ _ _ inv taken => ⟨inv.1.step taken, inv.2.1.step taken, inv.2.2.step taken⟩
  obtain ⟨account, waited, told⟩ := follow_invariant keeps followed
    ⟨account_start _, ⟨nofun, nofun, nofun⟩, ⟨rfl, rfl, nofun⟩⟩
  obtain ⟨ended, selected⟩ := waited.closer result back
  refine ⟨fun dir runs => ?_, ended, ?_⟩
  · exact (waited.workers (by rw [back]; rfl) dir).resolve_left ((account.started dir).mp runs)
  · obtain ⟨inspected, drained, sent, order, stored, finished, undrained⟩ := account.divided
    have count := account.length_sent
    have all := waited.finished (by rw [back]; rfl)
    have empty : s.results = [] := by
      refine eq_nil_of_length_eq_zero ?_
      rw [sent, length_append] at count
      omega
    rw [empty, append_nil] at sent
    have first := selected.trans
      (selectedTransferError_eq order fun r member => stored r (mem_append_left _ member))
    have length : inspected.length = script.count .takeResult := by
      rw [← told.inspected, order, length_map]
    refine ⟨inspected, drained, told.sent.symm.trans sent, length, order, first, fun linger done => ⟨?_, ?_⟩⟩
    · refine undrained (Bool.eq_false_iff.mpr fun stopped => ?_)
      exact (told.stopped stopped).elim linger done
    · intro r member failed silent
      rw [first, Option.map_eq_none_iff, find?_eq_none] at silent
      exact silent r member (decide_eq_true failed)

/-- The failure of the second direction ends the transfer. -/
def reportedScript : List TransferAction :=
  [.workerReturns .leftToRight .eof, .takeResult, .workerDone .leftToRight,
    .workerReturns .rightToLeft (.error (.other "boom" none none)), .takeResult, .workerDone .rightToLeft,
    .waitWorkers, .closerEnds, .waitCloser]

theorem reportedScript_reports : ∃ s, follow (TransferState.step (TransferConfig.prepared { linger := 1 }))
        reportedScript (start (TransferConfig.prepared { linger := 1 })) = some s ∧
      s.main = .returned (some (.wrap "<" (.other "boom" none none))) ∧ s.closerEnded = true := by
  obtain ⟨s, followed, back⟩ :
      ∃ s, follow (TransferState.step (TransferConfig.prepared { linger := 1 }))
          reportedScript (start (TransferConfig.prepared { linger := 1 })) = some s ∧
        s.main = .returned (some (.wrap "<" (.other "boom" none none))) := ⟨_, rfl, rfl⟩
  exact ⟨s, followed, back, (transfer_reports followed back).2.1⟩

/-- Without linger the first outcome cancels the transfer; a failure that is in the channel already may
then be drained. -/
def drainedScript : List TransferAction :=
  [.workerReturns .leftToRight .eof, .workerReturns .rightToLeft (.error (.other "boom" none none)), .takeResult,
    .takeDone, .drain, .workerDone .leftToRight, .workerDone .rightToLeft, .waitWorkers, .closerEnds, .waitCloser]

theorem drainedScript_silent :
    ∃ s, follow (TransferState.step (TransferConfig.prepared {})) drainedScript (start (TransferConfig.prepared {})) =
        some s ∧ s.main = .returned none ∧ ∃ r ∈ s.live, r.cls = .failed := by
  obtain ⟨s, followed, back, live⟩ :
      ∃ s, follow (TransferState.step (TransferConfig.prepared {})) drainedScript
          (start (TransferConfig.prepared {})) = some s ∧ s.main = .returned none ∧
        s.live = [dirEOF .leftToRight, classifyDirError .rightToLeft (.other "boom" none none)] :=
    ⟨_, rfl, rfl, rfl⟩
  exact ⟨s, followed, back, _, live ▸ mem_cons_of_mem _ mem_cons_self, rfl⟩

end Socat.Relay
