import Socat.Dtls13.Soundness.Transmission

/-! # Flights do not retransmit forever

A due timer either counts a retry or finds bytes that were never sent. In the second case the transmission
that follows sends at least one of them, so what is left to send and the retries together bound the number of
due timers. Acknowledgements without progress and failed transmissions change neither for the worse.
-/

namespace Socat.Dtls13

open Machine

namespace Flight

/-! ## Runs without progress -/

/-- A flight in a run: how many timers were due, and whether the transmission after the last of them is still
to come. -/
structure Waiting where
  flight : Flight
  due : ℕ := 0
  owed : Bool := false

/-- The steps of a run without progress in which a successful transmission follows every due timer. -/
inductive Idles : Waiting → Call → Waiting → Prop
  | transmitted {w : Waiting} {now : Time} {capacity : ℕ} {answers : ℕ → Except Err RecordNumber} {s : Sending} :
      Sending.ref.transmit now capacity Sending.send ⟨w.flight, answers, []⟩ = .ok () s →
      Idles w (.transmit now capacity answers) { w with flight := s.flight, owed := false }
  | aborted {w : Waiting} {now : Time} {capacity : ℕ} {answers : ℕ → Except Err RecordNumber} {e : Err} {s : Sending} :
      Sending.ref.transmit now capacity Sending.send ⟨w.flight, answers, []⟩ = .error e s →
      Idles w (.transmit now capacity answers) { w with flight := s.flight }
  | acknowledged {w : Waiting} {records : List RecordNumber} {authenticated : Bool} {now : Time} :
      (w.flight.acknowledge records authenticated now).1.1 = false →
      Idles w (.acknowledge records authenticated now)
        { w with flight := (w.flight.acknowledge records authenticated now).2 }
  | early {w : Waiting} {now : Time} : (w.flight.expire now).1 = .ok false →
      Idles w (.expire now) { w with flight := (w.flight.expire now).2 }
  | due {w : Waiting} {now : Time} : w.owed = false → (w.flight.expire now).1 = .ok true →
      Idles w (.expire now) ⟨(w.flight.expire now).2, w.due + 1, true⟩

/-- What is left to send, and the retries that are left. -/
def patience (f : Flight) : ℕ := f.unsent + (maxFlightRetries - f.retries)

/-- The due timers are paid for by the patience that is gone, the last one possibly by the transmission that is
still to come. -/
structure Paid (budget : ℕ) (w : Waiting) : Prop where
  accounted : w.flight.Accounted
  paid : w.due + w.flight.patience ≤ budget ∨
    w.owed = true ∧ 0 < w.flight.unsent ∧ w.due + w.flight.patience ≤ budget + 1

variable {budget : ℕ} {w w' : Waiting}

/-- Steps that spend nothing. -/
theorem Paid.keep {f : Flight} (paid : Paid budget w) (accounted : f.Accounted) (retries : f.retries = w.flight.retries)
    (unsent : f.unsent ≤ w.flight.unsent) : Paid budget { w with flight := f } := by
  refine ⟨accounted, ?_⟩
  show w.due + f.patience ≤ budget ∨ w.owed = true ∧ 0 < f.unsent ∧ w.due + f.patience ≤ budget + 1
  have held := paid.paid
  unfold patience at *
  rw [retries]
  rcases held with settled | ⟨owed, some, rest⟩
  · left
    omega
  · by_cases same : f.unsent = w.flight.unsent
    · right
      exact ⟨owed, by omega, by omega⟩
    · left
      omega

/-- The transmission after a due timer settles it. -/
theorem Paid.settle {f : Flight} (paid : Paid budget w) (accounted : f.Accounted)
    (retries : f.retries = w.flight.retries) (unsent : f.unsent ≤ w.flight.unsent)
    (spends : 0 < w.flight.unsent → f.unsent < w.flight.unsent) : Paid budget ⟨f, w.due, false⟩ := by
  refine ⟨accounted, .inl ?_⟩
  show w.due + f.patience ≤ budget
  have held := paid.paid
  unfold patience at *
  rw [retries]
  rcases held with settled | ⟨_, some, rest⟩
  · omega
  · have less := spends some
    omega

/-- A due timer spends a retry, or leaves it to the transmission to send something new. -/
theorem Paid.expire {now : Time} (paid : Paid budget w) (clear : w.owed = false)
    (due : (w.flight.expire now).1 = .ok true) : Paid budget ⟨(w.flight.expire now).2, w.due + 1, true⟩ := by
  have expired := paid.accounted.expire now
  have settled : w.due + w.flight.patience ≤ budget := by
    rcases paid.paid with settled | ⟨owed, -, -⟩
    · exact settled
    · rw [clear] at owed
      cases owed
  refine ⟨expired.accounted, ?_⟩
  show w.due + 1 + (w.flight.expire now).2.patience ≤ budget ∨
    true = true ∧ 0 < (w.flight.expire now).2.unsent ∧ w.due + 1 + (w.flight.expire now).2.patience ≤ budget + 1
  have bound := paid.accounted.retries
  unfold patience at *
  rw [expired.unsent]
  by_cases none : w.flight.unsent = 0
  · obtain ⟨fewer, counted⟩ := expired.retries due none
    left
    rw [counted]
    omega
  · have same := expired.fresh due (Nat.pos_of_ne_zero none)
    right
    rw [same]
    exact ⟨rfl, Nat.pos_of_ne_zero none, by omega⟩

theorem Paid.step {call : Call} (paid : Paid budget w) (idles : Idles w call w') : Paid budget w' := by
  have accounted := paid.accounted
  cases idles with
  | @transmitted now capacity answers s outcome =>
    have transmitted :=
      ((Sending.sender now capacity).transmit_ends (s := (⟨w.flight, answers, []⟩ : Sending)) accounted).ok outcome
    obtain ⟨retries, unsent, spends⟩ := transmitted.spends accounted
    exact paid.settle (transmitted.accounted accounted) retries unsent spends
  | @aborted now capacity answers e s outcome =>
    have aborted :=
      ((Sending.sender now capacity).transmit_ends (s := (⟨w.flight, answers, []⟩ : Sending)) accounted).error outcome
    obtain ⟨retries, unsent⟩ := aborted.spends accounted
    exact paid.keep (aborted.accounted accounted) retries unsent
  | @acknowledged records authenticated now stuck =>
    have acknowledged := accounted.acknowledge records authenticated now
    have retries := acknowledged.retries
    rw [stuck] at retries
    exact paid.keep acknowledged.accounted retries acknowledged.unsent
  | @early now quiet =>
    have expired := accounted.expire now
    have same := expired.quiet (by rw [quiet]; decide)
    rw [same]
    exact paid
  | due clear due => exact paid.expire clear due

/-- The timer of the flight has run out. -/
def Due (f : Flight) (now : Time) : Prop := f.complete = false ∧ f.deadline ≠ 0 ∧ f.deadline ≤ now
deriving Decidable

private theorem expire_of_due {f : Flight} {now : Time} (due : f.Due now) :
    (f.expire now).1 = .ok true ∨ (f.expire now).1 = .error .handshakeTimeout := by
  obtain ⟨running, armed, reached⟩ := due
  unfold Flight.expire
  rw [if_neg (by simp [running, armed, not_lt.mpr reached])]
  split_ifs
  · exact .inl rfl
  · exact .inr rfl
  · exact .inl rfl

/-- Without progress a flight times out: at most as many timers come due as there are bytes and empty messages
that were never sent, and eight more, and the next one fails. The interval stays within a minute, and
acknowledgements with progress reset the retries and nothing else. -/
theorem flight_timesOut {messages : List HandshakeMessage} {interval : Duration} {f : Flight}
    (started : newFlight messages interval = .ok f) (prior : List Call) {calls : List Call} {w : Waiting}
    (run : Path Idles { flight := f.run prior } calls w) :
    w.due ≤ (f.run prior).unsent + 8 ∧
      (∀ now, w.owed = false → w.due = (f.run prior).unsent + 8 → w.flight.Due now →
        (w.flight.expire now).1 = .error .handshakeTimeout) ∧
      w.flight.interval ≤ 60 * 1000000000 ∧
      ∀ (records : List RecordNumber) (authenticated : Bool) (now : Time),
        (w.flight.acknowledge records authenticated now).1.1 = true →
        (w.flight.acknowledge records authenticated now).2.retries = 0 ∧
        (w.flight.acknowledge records authenticated now).2.interval = w.flight.interval ∧
        ((w.flight.acknowledge records authenticated now).2.complete = false →
          (w.flight.acknowledge records authenticated now).2.unsent = w.flight.unsent ∧
          { (w.flight.acknowledge records authenticated now).2 with
            messages := w.flight.messages
            sent := w.flight.sent
            retries := w.flight.retries
            ackedSinceSend := w.flight.ackedSinceSend } = w.flight) := by
  have accounted := (newFlight_accounted started).run prior
  have begun : Paid (f.run prior).patience { flight := f.run prior } := ⟨accounted, .inl (Nat.zero_add _).le⟩
  have paid := run.invariant (P := Paid (f.run prior).patience) (fun _ _ _ paid idles => paid.step idles) begun
  have most : ∀ {w : Waiting}, Paid (f.run prior).patience w → w.due ≤ (f.run prior).unsent + 8 := by
    intro w paid
    have whole : (f.run prior).patience ≤ (f.run prior).unsent + 8 := Nat.add_le_add_left (Nat.sub_le _ _) _
    have held := paid.paid
    unfold patience at held whole
    omega
  refine ⟨most paid, ?_, paid.accounted.interval, ?_⟩
  · intro now clear spent due
    rcases expire_of_due due with again | out
    · have further := most (paid.expire clear again)
      change w.due + 1 ≤ _ at further
      omega
    · exact out
  · intro records authenticated now progress
    have acknowledged := paid.accounted.acknowledge records authenticated now
    have retries := acknowledged.retries
    rw [progress] at retries
    exact ⟨retries, acknowledged.interval, acknowledged.pending⟩

/-- The `i`-th transmission of a single byte, just after the `i`-th timer. -/
def sendByte (i : ℕ) : Call := .transmit (i * 100000000000 + 1) 100 fun _ => .ok ⟨0, i⟩

/-- Timers that come due, each with the transmission after it. -/
def waitRounds : List ℕ → Waiting → Option Waiting
  | [], w => some w
  | i :: rest, w =>
    match w.flight.expire (i * 100000000000) with
    | (.ok true, f) =>
      match Sending.ref.transmit (i * 100000000000 + 1) 100 Sending.send ⟨f, fun _ => .ok ⟨0, i⟩, []⟩ with
      | .ok () s => waitRounds rest ⟨s.flight, w.due + 1, false⟩
      | .error _ _ => none
    | _ => none

private theorem path_waitRounds {rounds : List ℕ} (clear : w.owed = false) (waited : waitRounds rounds w = some w') :
    Path Idles w (rounds.flatMap fun i => [.expire (i * 100000000000), sendByte i]) w' := by
  induction rounds generalizing w with
  | nil =>
    cases waited
    exact .nil _
  | cons i rest ih =>
    unfold waitRounds at waited
    split at waited
    · rename_i f expired
      split at waited
      · rename_i s outcome
        have due : (w.flight.expire (i * 100000000000)).1 = .ok true := by rw [expired]
        refine .cons (.due clear due) (.cons (.transmitted ?_) (ih rfl waited))
        rw [expired]
        exact outcome
      · cases waited
    · cases waited

/-- A single byte is sent nine times, and then its timer fails. -/
theorem oneByte_timesOut : ∃ f w, newFlight [⟨1, 0, 0, [7]⟩] 0 = .ok f ∧
    Path Idles { flight := f.run [sendByte 0] }
      ([1, 2, 3, 4, 5, 6, 7, 8].flatMap fun i => [.expire (i * 100000000000), sendByte i]) w ∧
    (w.flight.expire 900000000000).1 = .error .handshakeTimeout := by
  obtain ⟨f, started, w, waited, clear, spent, due⟩ : ∃ f, newFlight [⟨1, 0, 0, [7]⟩] 0 = .ok f ∧
      ∃ w, waitRounds [1, 2, 3, 4, 5, 6, 7, 8] { flight := f.run [sendByte 0] } = some w ∧
        w.owed = false ∧ w.due = (f.run [sendByte 0]).unsent + 8 ∧ w.flight.Due 900000000000 :=
    ⟨_, rfl, Option.get _ (by decide +kernel), Option.some_get _ |>.symm, by decide +kernel⟩
  have path := path_waitRounds rfl waited
  exact ⟨f, w, started, path, (flight_timesOut started _ path).2.1 _ clear spent due⟩

end Flight

end Socat.Dtls13
