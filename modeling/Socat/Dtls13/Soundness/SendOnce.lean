import Socat.Dtls13.Soundness.Custody
import Socat.Machine.Actions

/-! # Application data is sent at most once

The calls whose data is on the socket or still on its way there are all different. The driver issues another write for
a command only when the last one left no trace, and it knows: before the write was queued nobody else had it, and
afterwards only the writer says that it is pending, when it has given the write up. A nil that reaches a caller was
reported by the one who sent that caller's data.
-/

namespace Socat.Dtls13.Writes

open Machine List Function

/-- The write the writer has and has not tried. -/
def Writer.carried : Writer → List ℕ
  | .fetched j | .started j => [j]
  | _ => []

variable {j k : ℕ} {reason : Reason} {s : Stage} {r : Outcome} {action : Action} {direct : Bool}

namespace World

/-- The calls whose data is on the socket. -/
def sentCalls (w : World) : List ℕ := w.sent.map Prod.fst

/-- The writes that may still be put on the socket. -/
def flying (w : World) : List ℕ := w.writer.carried ++ w.writes.reduceOption

/-- The calls whose data is on the socket or on its way. -/
def traces (w : World) : List ℕ := w.sentCalls ++ w.flying.map fun j => (w.jobs j).call

/-- The writer is done with a write. -/
def Known (w : World) (j : ℕ) (r : Outcome) : Prop := w.writer = .wrote j r ∨ (w.jobs j).result = some r

/-- What the writer has comes off the traces first. -/
theorem traces_perm {w : World} (carried : w.writer.carried = [j]) :
    w.traces.Perm ((w.jobs j).call :: (w.sentCalls ++ w.writes.reduceOption.map fun j => (w.jobs j).call)) := by
  simp only [traces, flying, carried, singleton_append, map_cons]
  exact perm_middle

/-- A change of a write that keeps its call. -/
theorem traces_setJob (w : World) {job : Job} (call : job.call = (w.jobs j).call) :
    (w.setJob j job).traces = w.traces := by
  refine congrArg (w.sentCalls ++ ·) (map_congr_left fun i _ => ?_)
  by_cases this : i = j
  · subst this
    simpa only [setJob, update_self] using call
  · simp only [setJob, update_of_ne this]

end World

/-- The driver's write is the one of its command. -/
structure Current (data : ℕ → Bytes) (w : World) (p : Taken) (j : ℕ) : Prop where
  issued : j < w.issued
  call : (w.jobs j).call = p.call
  data : (w.jobs j).data = data p.call
  uncancelled : (w.jobs j).cancel = false

/-- A pending write has left no trace; one that ended without an error was sent. -/
structure Verdict (w : World) (p : Taken) (r : Outcome) : Prop where
  pending : r = some .writePending → p.call ∉ w.traces
  sent : r = none → p.call ∈ w.sentCalls

/-- What the driver knows of the command it has. -/
def Stage.Sound (data : ℕ → Bytes) (w : World) (p : Taken) : Stage → Prop
  | .ready => p.call ∉ w.traces
  | .offering j | .blocked j => p.call ∉ w.traces ∧ Current data w p j ∧ ∀ r, ¬ w.Known j r
  | .sending j => p.call ∉ w.traces ∧ Current data w p j
  | .awaiting j => Current data w p j ∧ ∀ r, w.Known j r → Verdict w p r
  | .settled j r => Current data w p j ∧ Verdict w p r
  | .replying r => r = none → p.call ∈ w.sentCalls
  | .stopped => True

structure Delivery (data : ℕ → Bytes) (w : World) : Prop where
  nodup : w.traces.Nodup
  taken : ∀ k ∈ w.traces, (w.calls k).wasTaken = true
  faithful : ∀ e ∈ w.sent, e.2 = data e.1
  flying : ∀ j ∈ w.flying, j < w.issued ∧ (w.jobs j).data = data (w.jobs j).call
  wrote : ∀ j r, w.writer = .wrote j r → j < w.issued
  stage : ∀ p, w.pending = some p → w.stage.Sound data w p
  busy : w.pending = none → w.stage = .ready ∨ w.stage = .stopped
  replied : ∀ o k, (w.commands o).result = some (k, none) → k ∈ w.sentCalls
  succeeded : ∀ k, (w.calls k).succeeded = true → k ∈ w.sentCalls

variable {data : ℕ → Bytes} {w w' : World} {p : Taken}

theorem Verdict.of_error (final : reason ≠ .writePending) : Verdict w p (some reason) :=
  ⟨fun same => absurd (Option.some.inj same) final, nofun⟩

/-- An error of a write that left no trace. -/
theorem Verdict.of_untraced (untraced : p.call ∉ w.traces) : Verdict w p (some reason) :=
  ⟨fun _ => untraced, nofun⟩

/-- Traces may vanish and the writer may get on, as long as it tells the truth about what it was given. -/
theorem Stage.Sound.mono (sound : s.Sound data w p) (traces : w'.traces ⊆ w.traces)
    (sent : w.sentCalls ⊆ w'.sentCalls) (current : ∀ j, Current data w p j → Current data w' p j)
    (known : ∀ j r, Current data w p j → w'.Known j r → w.Known j r ∨ Verdict w' p r ∧ p.call ∈ w.traces) :
    s.Sound data w' p := by
  have verdict : ∀ {r}, Verdict w p r → Verdict w' p r := fun v =>
    ⟨fun same traced => v.pending same (traces traced), fun same => sent (v.sent same)⟩
  -- before a write is queued its outcome stays unknown
  have unknown : ∀ {j}, p.call ∉ w.traces → Current data w p j → (∀ r, ¬ w.Known j r) → ∀ r, ¬ w'.Known j r := by
    intro j untraced cur none r now
    rcases known j r cur now with before | ⟨-, traced⟩
    exacts [none r before, untraced traced]
  cases s with
  | ready => exact fun traced => sound (traces traced)
  | offering j | blocked j =>
    exact ⟨fun traced => sound.1 (traces traced), current j sound.2.1, unknown sound.1 sound.2.1 sound.2.2⟩
  | sending j => exact ⟨fun traced => sound.1 (traces traced), current j sound.2⟩
  | awaiting j =>
    refine ⟨current j sound.1, fun r now => ?_⟩
    rcases known j r sound.1 now with before | ⟨told, -⟩
    exacts [verdict (sound.2 r before), told]
  | settled j r => exact ⟨current j sound.1, verdict sound.2⟩
  | replying r => exact fun same => sent (sound same)
  | stopped => trivial

/-- The calls, the objects and the driver's own state have no part in it. -/
theorem Stage.Sound.congr (sound : s.Sound data w p) (same : (w'.sent, w'.writer, w'.writes, w'.jobs, w'.issued) =
      (w.sent, w.writer, w.writes, w.jobs, w.issued)) : s.Sound data w' p := by
  simp only [Prod.mk.injEq] at same
  obtain ⟨sent, writer, writes, jobs, issued⟩ := same
  have traces : w'.traces = w.traces := by simp only [World.traces, World.sentCalls, World.flying, *]
  have calls : w'.sentCalls = w.sentCalls := by simp only [World.sentCalls, sent]
  refine sound.mono (traces ▸ List.Subset.refl _) (calls ▸ List.Subset.refl _) (fun j c => ?_) fun j r _ now => .inl ?_
  · exact ⟨issued ▸ c.issued, jobs ▸ c.call, jobs ▸ c.data, jobs ▸ c.uncancelled⟩
  · simpa only [World.Known, writer, jobs] using now

/-- A write's result is taken out, or put in by the writer. -/
theorem Stage.Sound.setResult {result : Option Outcome} (sound : s.Sound data w p)
    (known : ∀ r, result = some r → w.Known j r) : s.Sound data (w.setJob j { w.jobs j with result }) p := by
  have traces : (w.setJob j { w.jobs j with result }).traces = w.traces := w.traces_setJob rfl
  refine sound.mono (traces ▸ List.Subset.refl _) (List.Subset.refl _) (fun i c => ?_) fun i r _ now => .inl ?_
  · by_cases this : i = j
    · subst this
      refine ⟨c.issued, ?_, ?_, ?_⟩ <;> simp only [World.setJob, update_self]
      exacts [c.call, c.data, c.uncancelled]
    · refine ⟨c.issued, ?_, ?_, ?_⟩ <;> simp only [World.setJob, update_of_ne this]
      exacts [c.call, c.data, c.uncancelled]
  · rcases now with wrote | told
    · exact .inl wrote
    · by_cases this : i = j
      · subst this
        simp only [World.setJob, update_self] at told
        exact known r told
      · simp only [World.setJob, update_of_ne this] at told
        exact .inr told

namespace Delivery

theorem start : Delivery data {} where
  nodup := nodup_nil
  taken := nofun
  faithful := nofun
  flying := nofun
  wrote := nofun
  stage := nofun
  busy _ := .inl rfl
  replied := nofun
  succeeded := nofun

/-! ## Calls -/

section

variable (d : Delivery data w)
include d

theorem setCall {phase : Phase} (taken : (w.calls k).wasTaken = true → phase.wasTaken = true)
    (succeeded : phase.succeeded = true → k ∈ w.sentCalls) : Delivery data (w.setCall k phase) where
  nodup := d.nodup
  taken k' traced := by
    have was := d.taken k' traced
    by_cases same : k' = k
    · subst same
      simpa [World.setCall] using taken was
    · simpa only [World.setCall, update_of_ne same] using was
  faithful := d.faithful
  flying := d.flying
  wrote := d.wrote
  stage p found := (d.stage p found).congr rfl
  busy := d.busy
  replied := d.replied
  succeeded k' done := by
    by_cases same : k' = k
    · subst same
      simp only [World.setCall, update_self] at done
      exact succeeded done
    · simp only [World.setCall, update_of_ne same] at done
      exact d.succeeded k' done

theorem setCommand {o : ℕ} {c : Command} (replied : ∀ k, c.result = some (k, none) → k ∈ w.sentCalls) :
    Delivery data (w.setCommand o c) where
  nodup := d.nodup
  taken := d.taken
  faithful := d.faithful
  flying := d.flying
  wrote := d.wrote
  stage p found := (d.stage p found).congr rfl
  busy := d.busy
  replied o' k found := by
    by_cases same : o' = o
    · subst same
      simp only [World.setCommand, update_self] at found
      exact replied k found
    · simp only [World.setCommand, update_of_ne same] at found
      exact d.replied o' k found
  succeeded := d.succeeded

/-- The cache, the count of objects and the signals have no part in it. -/
theorem congr (same : (w'.calls, w'.commands, w'.pending, w'.stage, w'.issued, w'.jobs, w'.writes, w'.writer, w'.sent) =
      (w.calls, w.commands, w.pending, w.stage, w.issued, w.jobs, w.writes, w.writer, w.sent)) : Delivery data w' := by
  obtain ⟨_, _, _, _, _, _, _, _, _, _, _, _, _, _, _⟩ := w
  cases w'
  cases same
  exact ⟨d.nodup, d.taken, d.faithful, d.flying, d.wrote,
    fun p found => (d.stage p found).congr rfl, d.busy, d.replied, d.succeeded⟩

theorem enter (custody : Custody data w) (idle : w.calls k = .idle) : Delivery data (w.enter data k) := by
  have fresh : (w.calls k).wasTaken = true → (Phase.waiting 0).wasTaken = true := by rw [idle]; exact id
  unfold World.enter
  split
  · rename_i o found
    have written : Delivery data (w.setCommand o { w.commands o with call := k, data := data k }) :=
      d.setCommand fun k' replied => nomatch (custody.cached o found).empty.symm.trans replied
    have entered : Delivery data
        ((w.setCommand o { w.commands o with call := k, data := data k }).setCall k (.waiting o)) :=
      written.setCall fresh nofun
    exact entered.congr rfl
  · have written : Delivery data (w.setCommand w.created { call := k, data := data k }) := d.setCommand nofun
    have entered : Delivery data
        ((w.setCommand w.created { call := k, data := data k }).setCall k (.waiting w.created)) :=
      written.setCall fresh nofun
    exact entered.congr rfl

private theorem take {o : ℕ} (waiting : w.calls k = .waiting o) (ready : w.stage = .ready) :
    Delivery data { w.setCall k (.taken o) with pending := some ⟨o, k⟩ } := by
  have gone : Delivery data (w.setCall k (.taken o)) := d.setCall (fun _ => rfl) nofun
  -- nothing of a call is on its way while it waits
  have untraced : k ∉ w.traces := by
    intro traced
    have was := d.taken k traced
    rw [waiting] at was
    cases was
  refine { gone with stage := fun p found => ?_, busy := nofun }
  cases found
  rw [show ({ w.setCall k (.taken o) with pending := some ⟨o, k⟩ } : World).stage = .ready from ready]
  exact untraced

private theorem consume {o : ℕ} (custody : Custody data w) (taken : w.calls k = .taken o)
    (replied : (w.commands o).result = some (j, r)) :
    Delivery data ((w.setCommand o { w.commands o with result := none }).setCall k (.leaving o r true)) := by
  have mine : j = k := (custody.reply o j r replied).symm.trans (custody.held k o (by rw [taken]; rfl)).call
  have emptied : Delivery data (w.setCommand o { w.commands o with result := none }) := d.setCommand nofun
  refine emptied.setCall (fun _ => rfl) fun done => ?_
  cases r with
  | none => exact d.replied o k (mine ▸ replied)
  | some reason => cases done

theorem leave {o : ℕ} {taken : Bool} (leaving : w.calls k = .leaving o r taken) :
    Delivery data (w.leave k o taken r) := by
  have was : (w.calls k).wasTaken = true → taken = true := by rw [leaving]; exact id
  have done : r = none → k ∈ w.sentCalls := by
    rintro rfl
    exact d.succeeded k (by rw [leaving]; rfl)
  cases r with
  | none =>
    have cleared : Delivery data (w.setCommand o { w.commands o with data := [] }) :=
      d.setCommand fun k' => d.replied o k'
    have gone : Delivery data ((w.setCommand o { w.commands o with data := [] }).setCall k (.returned none taken)) :=
      cleared.setCall was fun _ => done rfl
    exact gone.congr rfl
  | some reason =>
    have cancelled : Delivery data (w.setCommand o { w.commands o with cancel := true }) :=
      d.setCommand fun k' => d.replied o k'
    have gone : Delivery data
        ((w.setCommand o { w.commands o with cancel := true }).setCall k (.returned (some reason) taken)) :=
      cancelled.setCall was nofun
    exact gone.congr rfl

/-! ## The driver -/

theorem become (found : w.pending = some p) (sound : s.Sound data w p) : Delivery data { w with stage := s } := by
  refine { d with stage := fun p' found' => ?_, busy := fun none => nomatch none.symm.trans found }
  cases found.symm.trans found'
  exact sound.congr rfl

theorem conclude (found : w.pending = some p) (verdict : Verdict w p r) : Delivery data (w.conclude r) := by
  refine d.become found ?_
  split_ifs with retried
  exacts [verdict.pending retried, verdict.sent]

theorem release (ended : w.stage = .ready ∨ w.stage = .stopped) : Delivery data { w with pending := none } :=
  { d with stage := nofun, busy := fun _ => ended }

/-- A change of a write that keeps whose it is. -/
theorem setJob {job : Job} (call : job.call = (w.jobs j).call) (same : job.data = (w.jobs j).data)
    (sound : ∀ p, w.pending = some p → w.stage.Sound data (w.setJob j job) p) : Delivery data (w.setJob j job) := by
  have traces := w.traces_setJob call
  refine { d with nodup := traces ▸ d.nodup, taken := traces ▸ d.taken, stage := sound, flying := fun i flies => ?_ }
  have kept := d.flying i flies
  by_cases this : i = j
  · subst this
    simpa only [World.setJob, update_self, call, same] using kept
  · simpa only [World.setJob, update_of_ne this] using kept

private theorem issue (custody : Custody data w) (found : w.pending = some p) (ready : w.stage = .ready) :
    Delivery data (w.issue p) := by
  have untraced : p.call ∉ w.traces := by
    have sound := d.stage p found
    rwa [ready] at sound
  -- the writes on their way are older
  have older : ∀ i ∈ w.flying, (w.issue p).jobs i = w.jobs i := fun i flies =>
    update_of_ne (Nat.ne_of_lt (d.flying i flies).1) _ _
  have traces : (w.issue p).traces = w.traces :=
    congrArg (w.sentCalls ++ ·) (map_congr_left fun i flies => congrArg Job.call (older i flies))
  refine { d with nodup := traces ▸ d.nodup, taken := traces ▸ d.taken, flying := fun i flies => ?_,
                  wrote := fun i r wrote => Nat.lt_succ_of_lt (d.wrote i r wrote), stage := fun p' found' => ?_,
                  busy := fun none => nomatch none.symm.trans found }
  · rw [older i flies]
    exact ⟨Nat.lt_succ_of_lt (d.flying i flies).1, (d.flying i flies).2⟩
  · cases found.symm.trans found'
    refine ⟨traces ▸ untraced, ⟨Nat.lt_succ_self _, ?_, ?_, ?_⟩, ?_⟩
    · simp [World.issue, World.setJob]
    · simpa [World.issue, World.setJob] using (custody.pending p found).data
    · simp [World.issue, World.setJob]
    · rintro r (wrote | result)
      · exact Nat.lt_irrefl _ (d.wrote _ r wrote)
      · simp [World.issue, World.setJob] at result

theorem push (custody : Custody data w) (found : w.pending = some p) (untraced : p.call ∉ w.traces)
    (current : Current data w p j) (unknown : ∀ r, ¬ w.Known j r) : Delivery data (w.push j) := by
  have flying : (w.push j).flying = w.flying ++ [j] := by
    simp [World.push, World.flying, reduceOption_append]
  have traces : (w.push j).traces = w.traces ++ [p.call] := by
    simp only [World.traces, flying, map_append, map_singleton, ← append_assoc]
    exact congrArg (w.traces ++ [·]) current.call
  refine { d with nodup := ?_, taken := ?_, flying := ?_, stage := fun p' found' => ?_,
                  busy := fun none => nomatch none.symm.trans found }
  · rw [traces]
    exact nodup_append_comm.mp (nodup_cons.mpr ⟨untraced, d.nodup⟩)
  · rw [traces]
    intro k traced
    rcases mem_append.mp traced with old | new
    · exact d.taken k old
    · cases mem_singleton.mp new
      exact (custody.pending p found).taken
  · rw [flying]
    intro i flies
    rcases mem_append.mp flies with old | new
    · exact d.flying i old
    · cases mem_singleton.mp new
      exact ⟨current.issued, current.data.trans (congrArg data current.call.symm)⟩
  · cases found.symm.trans found'
    exact ⟨{ current with }, fun r known => absurd known (unknown r)⟩

/-- A client puts its datagram on the socket itself. -/
theorem send {attempt : Attempt} (custody : Custody data w) (found : w.pending = some p)
    (untraced : p.call ∉ w.traces) (current : Current data w p j) :
    Delivery data ((w.writeTo j attempt).conclude attempt.outcome) := by
  cases attempt with
  | timesOut | tooLong | fails => exact d.conclude found (.of_untraced untraced)
  | sends =>
    have calls : (w.writeTo j .sends).sentCalls = p.call :: w.sentCalls := congrArg (· :: w.sentCalls) current.call
    have traces : (w.writeTo j .sends).traces = p.call :: w.traces := congrArg (· :: w.traces) current.call
    have kept : ∀ k ∈ w.sentCalls, k ∈ (w.writeTo j .sends).sentCalls := fun k sent =>
      calls ▸ mem_cons_of_mem _ sent
    refine { d with nodup := ?_, taken := fun k traced => ?_, faithful := fun e sent => ?_,
                    stage := fun p' found' => ?_, busy := fun none => (nomatch none.symm.trans found),
                    replied := fun o k replied => kept k (d.replied o k replied),
                    succeeded := fun k done => kept k (d.succeeded k done) }
    · change (w.writeTo j .sends).traces.Nodup
      exact traces ▸ nodup_cons.mpr ⟨untraced, d.nodup⟩
    · change k ∈ (w.writeTo j .sends).traces at traced
      rw [traces] at traced
      rcases mem_cons.mp traced with rfl | old
      exacts [(custody.pending p found).taken, d.taken k old]
    · rcases mem_cons.mp sent with rfl | old
      · exact current.data.trans (congrArg data current.call.symm)
      · exact d.faithful e old
    · cases found.symm.trans found'
      exact fun _ => show p.call ∈ (w.writeTo j .sends).sentCalls from calls ▸ mem_cons_self

private theorem answer (found : w.pending = some p) (replying : w.stage = .replying r) :
    Delivery data { w.setCommand p.command { w.commands p.command with result := some (p.call, r) } with
      pending := none
      stage := .ready } := by
  have replied : Delivery data (w.setCommand p.command { w.commands p.command with result := some (p.call, r) }) := by
    refine d.setCommand fun k same => ?_
    cases same
    have sound := d.stage p found
    rw [replying] at sound
    exact sound rfl
  exact { replied with stage := nofun, busy := fun _ => .inl rfl }

/-! ## The writer -/

/-- The writer gets on with what it has. -/
theorem carry {writes : List (Option ℕ)} {writer : Writer}
    (same : ({ w with writes, writer } : World).flying = w.flying)
    (working : ∀ j r, writer = .wrote j r → w.writer = .wrote j r) : Delivery data { w with writes, writer } := by
  have traces : ({ w with writes, writer } : World).traces = w.traces :=
    congrArg (fun jobs => w.sentCalls ++ jobs.map fun j => (w.jobs j).call) same
  refine { d with nodup := traces ▸ d.nodup, taken := traces ▸ d.taken, flying := same ▸ d.flying,
                  wrote := fun j r wrote => d.wrote j r (working j r wrote), stage := fun p found => ?_ }
  refine (d.stage p found).mono (traces ▸ List.Subset.refl _) (List.Subset.refl _) (fun _ c => { c with }) ?_
  rintro j r - (wrote | result)
  exacts [.inl (.inl (working j r wrote)), .inl (.inr result)]

/-- The writer gives a write up. -/
theorem abort (carried : w.writer.carried = [j]) : Delivery data { w with writer := .wrote j (some reason) } := by
  have flies : j ∈ w.flying := mem_append_left _ (carried ▸ mem_cons_self)
  have perm := World.traces_perm carried
  have fewer : ({ w with writer := .wrote j (some reason) } : World).traces ⊆ w.traces := fun k traced =>
    perm.mem_iff.mpr (mem_cons_of_mem _ traced)
  -- no other trace of its call is left
  have alone := nodup_cons.mp (perm.nodup_iff.mp d.nodup)
  refine { d with nodup := alone.2, taken := fun k traced => d.taken k (fewer traced),
                  flying := fun i later => d.flying i (mem_append_right _ later), wrote := ?_,
                  stage := fun p found => ?_ }
  · rintro i r wrote
    cases wrote
    exact (d.flying j flies).1
  · refine (d.stage p found).mono fewer (List.Subset.refl _) (fun _ c => { c with }) ?_
    rintro i r current (wrote | result)
    · cases wrote
      exact .inr ⟨.of_untraced (current.call ▸ alone.1), current.call ▸ perm.mem_iff.mpr mem_cons_self⟩
    · exact .inl (.inr result)

/-- The writer puts a datagram on the socket. -/
theorem write (carried : w.writer.carried = [j]) :
    Delivery data { w.writeTo j .sends with writer := .wrote j none } := by
  have flies : j ∈ w.flying := mem_append_left _ (carried ▸ mem_cons_self)
  have perm := World.traces_perm carried
  have same : ∀ k, k ∈ ({ w.writeTo j .sends with writer := .wrote j none } : World).traces ↔ k ∈ w.traces :=
    fun k => perm.mem_iff.symm
  refine { d with nodup := perm.nodup_iff.mp d.nodup, taken := fun k traced => d.taken k ((same k).mp traced),
                  faithful := fun e sent => ?_, flying := fun i later => d.flying i (mem_append_right _ later),
                  wrote := ?_, stage := fun p found => ?_,
                  replied := fun o k replied => mem_cons_of_mem _ (d.replied o k replied),
                  succeeded := fun k done => mem_cons_of_mem _ (d.succeeded k done) }
  · rcases mem_cons.mp sent with rfl | old
    exacts [(d.flying j flies).2, d.faithful e old]
  · rintro i r wrote
    cases wrote
    exact (d.flying j flies).1
  · refine (d.stage p found).mono (fun k => (same k).mp) (subset_cons_self _ _) (fun _ c => { c with }) ?_
    rintro i r current (wrote | result)
    · cases wrote
      exact .inr ⟨⟨nofun, fun _ => current.call ▸ mem_cons_self⟩,
        current.call ▸ perm.mem_iff.mpr mem_cons_self⟩
    · exact .inl (.inr result)

private theorem report (wrote : w.writer = .wrote j r) :
    Delivery data { w.setJob j { w.jobs j with result := some r } with writer := .idle } := by
  have told : Delivery data (w.setJob j { w.jobs j with result := some r }) := by
    refine d.setJob rfl rfl fun p found => (d.stage p found).setResult fun r' same => ?_
    cases same
    exact .inl wrote
  have flying : ({ w.setJob j { w.jobs j with result := some r } with writer := .idle } : World).flying =
      (w.setJob j { w.jobs j with result := some r }).flying := by
    show Writer.idle.carried ++ _ = w.writer.carried ++ _
    rw [wrote]
    rfl
  exact told.carry flying nofun

end

end Delivery

/-! ## Steps -/

structure Orderly (data : ℕ → Bytes) (w : World) : Prop where
  custody : Custody data w
  delivery : Delivery data w
  calm : w.panicked = false
  once : w.stop = true → w.once = true

namespace Orderly

section

variable (o : Orderly data w)
include o

/-- A call goes on with the object it has, and has not got its reply. -/
theorem proceed {phase : Phase} (keeps : ∀ c, phase.command = some c → (w.calls k).command = some c)
    (unowned : phase.owned = none) (unsettled : phase.succeeded = false)
    (taken : (w.calls k).wasTaken = true → phase.wasTaken = true) : Orderly data (w.setCall k phase) where
  custody := by
    refine o.custody.proceed keeps (fun c owned => nomatch unowned.symm.trans owned) fun p found same => ⟨?_, unsettled⟩
    exact taken (same ▸ (o.custody.pending p found).taken)
  delivery := o.delivery.setCall taken fun done => nomatch unsettled.symm.trans done
  calm := o.calm
  once := o.once

theorem enter (idle : w.calls k = .idle) : Orderly data (w.enter data k) where
  custody := o.custody.enter idle
  delivery := o.delivery.enter o.custody idle
  calm := by
    unfold World.enter
    split <;> exact o.calm
  once := by
    unfold World.enter
    split <;> exact o.once

theorem leave {c : ℕ} {taken : Bool} (leaving : w.calls k = .leaving c r taken) :
    Orderly data (w.leave k c taken r) where
  custody := o.custody.leave leaving
  delivery := o.delivery.leave leaving
  calm := by
    cases r with
    | none => exact o.calm
    | some reason =>
      have held := o.custody.held k c (by rw [leaving]; rfl)
      simp only [World.leave, o.calm, held.uncancelled, Bool.or_self]
  once := by cases r <;> exact o.once

private theorem stepCall (taken : w.stepCall data k (w.calls k) action = some w') : Orderly data w' := by
  rcases phase : w.calls k with _ | c | c | ⟨c, r, was⟩ | _ <;> rw [phase] at taken <;>
    cases action <;> simp only [World.stepCall, reduceCtorEq, Option.some.injEq] at taken
  case idle.call tooLong =>
    subst taken
    split
    · refine o.proceed nofun rfl rfl ?_
      rw [phase]
      exact id
    · exact o.enter phase
  case waiting.take =>
    split_ifs at taken with free
    cases taken
    exact ⟨o.custody.take phase free.2, o.delivery.take phase free.1, o.calm, o.once⟩
  case taken.reply =>
    obtain ⟨⟨j, r⟩, replied, rfl⟩ := Option.map_eq_some_iff.mp taken
    exact ⟨o.custody.consume phase replied, o.delivery.consume o.custody phase replied, o.calm, o.once⟩
  case leaving.leave =>
    subst taken
    exact o.leave phase
  case waiting.expire | taken.expire =>
    subst taken
    refine o.proceed ?_ rfl rfl ?_ <;> rw [phase]
    exacts [fun _ => id, id]
  case waiting.abandon | taken.abandon =>
    split_ifs at taken
    cases taken
    refine o.proceed ?_ rfl rfl ?_ <;> rw [phase]
    exacts [fun _ => id, id]

theorem become (found : w.pending = some p) (sound : s.Sound data w p) : Orderly data { w with stage := s } where
  custody := o.custody.congr rfl rfl
  delivery := o.delivery.become found sound
  calm := o.calm
  once := o.once

theorem conclude (found : w.pending = some p) (verdict : Verdict w p r) : Orderly data (w.conclude r) where
  custody := o.custody.congr rfl rfl
  delivery := o.delivery.conclude found verdict
  calm := o.calm
  once := o.once

private theorem stepPending (found : w.pending = some p) (taken : w.stepPending p action = some w') :
    Orderly data w' := by
  have untraced : w.stage = .ready → p.call ∉ w.traces := by
    intro ready
    have sound := o.delivery.stage p found
    rwa [ready] at sound
  cases action <;> simp only [World.stepPending, reduceCtorEq] at taken
  case drop =>
    split_ifs at taken with cancelled
    cases taken
    exact ⟨o.custody.release, o.delivery.release (.inl cancelled.1), o.calm, o.once⟩
  case refuse =>
    split_ifs at taken with ready
    cases taken
    exact o.conclude found (.of_untraced (untraced ready.1))
  case postpone =>
    split_ifs at taken
    cases taken
    exact o
  case attempt =>
    split_ifs at taken with ready
    cases taken
    exact ⟨o.custody.congr rfl rfl, o.delivery.issue o.custody found ready.1, o.calm, o.once⟩
  case answer =>
    split at taken
    · rename_i r replying _
      cases taken
      exact ⟨(o.custody.answer found).congr rfl rfl, o.delivery.answer found replying, o.calm, o.once⟩
    · cases taken

private theorem settle (found : w.pending = some p) (current : Current data w p j) (verdict : Verdict w p r) :
    Orderly data (w.settle j r) where
  custody := o.custody.congr rfl rfl
  delivery := by
    have concluded := o.delivery.conclude found verdict
    have closed : Delivery data ((w.conclude r).setJob j { w.jobs j with cancel := true }) := by
      refine concluded.setJob rfl rfl fun p' found' => ?_
      cases found.symm.trans found'
      -- the driver has put the write away
      have traces : (w.setJob j { w.jobs j with cancel := true }).traces = w.traces := w.traces_setJob rfl
      show (if r = some .writePending then Stage.ready else .replying r).Sound data _ p
      split_ifs with retried
      · show p.call ∉ (w.setJob j { w.jobs j with cancel := true }).traces
        rw [traces]
        exact verdict.pending retried
      · exact verdict.sent
    exact closed.congr rfl
  calm := by
    show (w.panicked || (w.jobs j).cancel) = false
    rw [o.calm, current.uncancelled, Bool.or_self]
  once := o.once

private theorem collect (found : w.pending = some p) (awaiting : w.stage = .awaiting j)
    (told : (w.jobs j).result = some r) :
    Orderly data { w.setJob j { w.jobs j with result := none } with stage := .settled j r } := by
  have sound := o.delivery.stage p found
  rw [awaiting] at sound
  have settled : Stage.Sound data w p (.settled j r) := ⟨sound.1, sound.2 r (.inr told)⟩
  have emptied : Delivery data (w.setJob j { w.jobs j with result := none }) :=
    o.delivery.setJob rfl rfl fun p' found' => (o.delivery.stage p' found').setResult nofun
  exact ⟨o.custody.congr rfl rfl, emptied.become found (settled.setResult nofun), o.calm, o.once⟩

theorem push (found : w.pending = some p) (untraced : p.call ∉ w.traces) (current : Current data w p j)
    (unknown : ∀ r, ¬ w.Known j r) : Orderly data (w.push j) where
  custody := o.custody.congr rfl rfl
  delivery := o.delivery.push o.custody found untraced current unknown
  calm := o.calm
  once := o.once

private theorem stepWrite (taken : w.stepWrite direct w.stage action = some w') : Orderly data w' := by
  -- there is a command wherever the driver has a write
  rcases found : w.pending with _ | p
  · exfalso
    rcases o.delivery.busy found with stage | stage <;> rw [stage] at taken <;> cases action <;>
      simp [World.stepWrite] at taken
  have sound := o.delivery.stage p found
  rcases stage : w.stage with _ | j | j | j | j | ⟨j, r⟩ | r | _ <;> rw [stage] at taken sound <;>
    cases action <;> simp only [World.stepWrite, reduceCtorEq, Option.some.injEq] at taken
  case offering.late =>
    split_ifs at taken
    cases taken
    exact o.become found ⟨sound.2.1, .of_untraced sound.1⟩
  case offering.offer =>
    split_ifs at taken with direct full
    · cases taken
      exact o.push found sound.1 sound.2.1 sound.2.2
    · cases taken
      exact o.become found sound
  case offering.begin start =>
    split_ifs at taken
    cases taken
    split
    · exact o.become found ⟨sound.1, sound.2.1⟩
    · exact o.conclude found (.of_untraced sound.1)
  case sending.send attempt =>
    subst taken
    refine ⟨?_, o.delivery.send o.custody found sound.1 sound.2, ?_, ?_⟩
    · cases attempt <;> exact o.custody.congr rfl rfl
    · cases attempt <;> exact o.calm
    · cases attempt <;> exact o.once
  case blocked.late =>
    subst taken
    exact o.become found ⟨sound.2.1, .of_untraced sound.1⟩
  case blocked.enqueue =>
    split_ifs at taken
    cases taken
    exact o.push found sound.1 sound.2.1 sound.2.2
  case blocked.interrupt =>
    split_ifs at taken
    cases taken
    exact o.become found ⟨sound.2.1, .of_untraced sound.1⟩
  case awaiting.interrupt =>
    split_ifs at taken
    cases taken
    exact o.become found ⟨sound.1, .of_error nofun⟩
  case awaiting.collect =>
    obtain ⟨r, told, rfl⟩ := Option.map_eq_some_iff.mp taken
    exact o.collect found stage told
  case settled.settle =>
    subst taken
    exact o.settle found sound.1 sound.2

private theorem stepWriter (taken : w.stepWriter w.writer action = some w') : Orderly data w' := by
  rcases writer : w.writer with _ | j | j | ⟨j, r⟩ <;> rw [writer] at taken <;> cases action <;>
    simp only [World.stepWriter, reduceCtorEq, Option.some.injEq] at taken
  case idle.fetch =>
    split at taken
    · cases taken
    · rename_i rest queue
      cases taken
      have flying : ({ w with writes := rest, writer := w.writer } : World).flying = w.flying := by
        simp only [World.flying, queue, reduceOption_cons_of_none]
      exact ⟨o.custody.congr rfl rfl, o.delivery.carry flying fun _ _ => id, o.calm, o.once⟩
    · rename_i j rest queue
      cases taken
      have flying : ({ w with writes := rest, writer := .fetched j } : World).flying = w.flying := by
        simp only [World.flying, queue, writer, reduceOption_cons_of_some]
        rfl
      exact ⟨o.custody.congr rfl rfl, o.delivery.carry flying nofun, o.calm, o.once⟩
  case fetched.start start =>
    subst taken
    refine ⟨o.custody.congr rfl rfl, ?_, o.calm, o.once⟩
    split
    · have flying : ({ w with writes := w.writes, writer := .started j } : World).flying = w.flying := by
        simp only [World.flying, writer]
        rfl
      exact o.delivery.carry flying nofun
    · exact o.delivery.abort (by rw [writer]; rfl)
  case started.write attempt =>
    subst taken
    have carried : w.writer.carried = [j] := by rw [writer]; rfl
    cases attempt with
    | sends => exact ⟨o.custody.congr rfl rfl, o.delivery.write carried, o.calm, o.once⟩
    | timesOut | tooLong | fails =>
      exact ⟨o.custody.congr rfl rfl, o.delivery.abort carried, o.calm, o.once⟩
  case wrote.report =>
    split_ifs at taken
    cases taken
    exact ⟨o.custody.congr rfl rfl, o.delivery.report writer, o.calm, o.once⟩

private theorem step (taken : w.step data direct action = some w') : Orderly data w' := by
  cases action with
  | call | take | reply | expire | abandon | leave => exact o.stepCall taken
  | drop | refuse | postpone | attempt | answer =>
    obtain ⟨p, found, taken⟩ := Option.bind_eq_some_iff.mp taken
    exact o.stepPending found taken
  | late | offer | enqueue | interrupt | collect | begin | send | settle => exact o.stepWrite taken
  | exit =>
    obtain ⟨ready, rfl⟩ := guarded taken
    have released := o.delivery.release (.inl ready)
    exact ⟨o.custody.release.congr rfl rfl, { released with stage := nofun, busy := fun _ => .inr rfl },
      o.calm, o.once⟩
  | fetch | start | write | report => exact o.stepWriter taken
  | foreign =>
    obtain ⟨-, rfl⟩ := guarded taken
    have flying : ({ w with writes := w.writes ++ [none], writer := w.writer } : World).flying = w.flying := by
      simp [World.flying, reduceOption_append]
    exact ⟨o.custody.congr rfl rfl, o.delivery.carry flying fun _ _ => id, o.calm, o.once⟩
  | shutdown =>
    simp only [World.step] at taken
    split_ifs at taken with again
    · cases taken
      exact o
    · cases taken
      refine ⟨o.custody.congr rfl rfl, o.delivery.congr rfl, ?_, fun _ => rfl⟩
      have running : w.stop = false := Bool.eq_false_iff.mpr fun stopped => again (o.once stopped)
      show (w.panicked || w.stop) = false
      rw [o.calm, running, Bool.or_self]
  | close =>
    simp only [World.step] at taken
    split_ifs at taken
    cases taken
    exact ⟨o.custody.congr rfl rfl, o.delivery.congr rfl, o.calm, o.once⟩

end

theorem start : Orderly data {} := ⟨.start, .start, rfl, nofun⟩

end Orderly

private theorem orderly {w : World} (reaches : Reaches (World.step data direct) {} w) : Orderly data w :=
  reaches.invariant (fun _ _ _ o taken => o.step taken) .start

/-- In every reachable state: no channel was closed twice; the data of a call is in at most one datagram on the
socket, and none before the call has begun or when it has returned before the driver took its command; a call that
returned nil has exactly one, with its data; and a reply that lies ready for a call was made for that call. -/
theorem application_data_sent_once (data : ℕ → Bytes) (direct : Bool) {w : World}
    (reaches : Reaches (World.step data direct) {} w) :
    w.panicked = false ∧
    (∀ k, (w.sent.map Prod.fst).count k ≤ 1) ∧ (∀ k sent, (k, sent) ∈ w.sent → sent = data k) ∧
    (∀ k taken, w.calls k = .returned none taken →
      (k, data k) ∈ w.sent ∧ (w.sent.map Prod.fst).count k = 1) ∧
    (∀ k, w.calls k = .idle → k ∉ w.sent.map Prod.fst) ∧
    (∀ k r, w.calls k = .returned r false → k ∉ w.sent.map Prod.fst) ∧
    (∀ k o j r, w.calls k = .taken o → (w.commands o).result = some (j, r) → j = k) ∧
    (∀ k o, w.calls k = .waiting o → (w.commands o).result = none) := by
  have o := orderly reaches
  have nodup : w.sentCalls.Nodup := (nodup_append.mp o.delivery.nodup).1
  -- what was sent was taken before
  have untaken : ∀ k, (w.calls k).wasTaken = false → k ∉ w.sentCalls := by
    intro k fresh sent
    have was := o.delivery.taken k (mem_append_left _ sent)
    exact nomatch fresh.symm.trans was
  refine ⟨o.calm, nodup_iff_count_le_one.mp nodup, fun k sent => o.delivery.faithful (k, sent), ?_, ?_, ?_, ?_, ?_⟩
  · intro k taken returned
    have sent : k ∈ w.sentCalls := o.delivery.succeeded k (by rw [returned]; rfl)
    obtain ⟨⟨k', d⟩, member, rfl⟩ := mem_map.mp sent
    have same : d = data k' := o.delivery.faithful _ member
    exact ⟨same ▸ member, count_eq_one_of_mem nodup sent⟩
  · intro k idle
    exact untaken k (by rw [idle]; rfl)
  · intro k r returned
    exact untaken k (by rw [returned]; rfl)
  · intro k c j r taken replied
    have held := o.custody.held k c (by rw [taken]; rfl)
    exact (o.custody.reply c j r replied).symm.trans held.call
  · intro k c waiting
    exact o.custody.empty k c (by rw [waiting]; rfl)

/-- Two calls one after the other, with the same command object. The first write of the first call times out. -/
def retryScript : List Action :=
  [.call 0 false, .take 0, .attempt, .offer, .fetch, .start .proceeds, .write .timesOut, .report, .collect, .settle,
    .attempt, .foreign, .offer, .fetch, .fetch, .start .proceeds, .write .sends, .report, .collect, .settle, .answer,
    .reply 0, .leave 0, .call 1 false, .call 2 false, .expire 2, .take 1, .leave 2, .attempt, .offer, .fetch,
    .start .proceeds, .write .sends, .report, .collect, .settle, .answer, .reply 1, .leave 1]

theorem application_data_sent_once_retried :
    ∃ w, Reaches (World.step (fun k => [k.toUInt8]) false) {} w ∧ w.calls 0 = .returned none true ∧
      w.calls 1 = .returned none true ∧ w.calls 2 = .returned (some .deadlineExceeded) false ∧
      w.sent = [(1, [1]), (0, [0])] ∧ w.cachedCommand = some 0 ∧ w.panicked = false := by
  have followed : (follow (World.step (fun k => [k.toUInt8]) false) retryScript {}).any fun w =>
      w.calls 0 = .returned none true ∧ w.calls 1 = .returned none true ∧
      w.calls 2 = .returned (some .deadlineExceeded) false ∧ w.sent = [(1, [1]), (0, [0])] ∧
      w.cachedCommand = some 0 := by decide +kernel
  obtain ⟨w, here, facts⟩ := (Option.any_eq_true _ _).mp followed
  have reaches := reaches_follow here
  have once := application_data_sent_once (fun k => [k.toUInt8]) false reaches
  obtain ⟨first, second, third, sent, cached⟩ := of_decide_eq_true facts
  exact ⟨w, reaches, first, second, third, sent, cached, once.1⟩

end Socat.Dtls13.Writes
