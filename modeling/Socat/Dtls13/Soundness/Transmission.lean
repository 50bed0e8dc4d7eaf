import Socat.Dtls13.Moves.Sending
import Socat.Dtls13.Soundness.FlightAccounts
import Socat.Machine.Path

/-! # What a flight transmits

A transmission sends one record after the other, and each is answered with a record number or an error. A pass
over the messages is a path of recorded transmissions, possibly ended by a call that failed; everything about a
transmission is read off that path, wherever the flight is kept and whatever sends its records.
-/

namespace Socat.Dtls13

open Machine List OutboundMessage

/-- A range of a message of the flight. -/
structure Part where
  index : ℕ
  start : ℕ
  stop : ℕ
deriving DecidableEq, Repr

variable {m : OutboundMessage} {f f' : Flight} {onlyNew : Bool} {capacity : ℕ} {part : Part}

/-- Nothing from `start` on is left to send for the first time. -/
def SentFrom (m : OutboundMessage) (start : ℕ) : Prop :=
  if m.message.body = [] then m.emptySent = true ∨ m.emptyAcknowledged = true
  else ∀ i, start ≤ i → i < m.message.body.length → m.sent.getD i false = true ∨ m.acknowledged.getD i false = true

section SentFrom

variable {start : ℕ}

private theorem sentFrom_of_empty (empty : m.message.body = [])
    (sent : m.emptySent = true ∨ m.emptyAcknowledged = true) :
    SentFrom m start := by
  unfold SentFrom
  rwa [if_pos empty]

/-- A byte that is not wanted as new was sent or acknowledged. -/
theorem sent_of_skipped (books : m.Accounted) (inside : start ≤ m.message.body.length) {i : ℕ} (above : start ≤ i)
    (below : i < m.skip true start) : m.sent.getD i false = true ∨ m.acknowledged.getD i false = true := by
  obtain ⟨-, most, skipped, -⟩ := skip_spec books true inside
  have unwanted := skipped i above below
  rw [wanted_getD books (by omega)] at unwanted
  simp only [Bool.true_and, Bool.not_eq_false', Bool.or_eq_true] at unwanted
  exact unwanted.symm

private theorem sentFrom_of_skip (books : m.Accounted) (inside : start ≤ m.message.body.length)
    (nonempty : m.message.body ≠ []) (done : m.message.body.length ≤ m.skip true start) : SentFrom m start := by
  unfold SentFrom
  rw [if_neg nonempty]
  intro i above below
  exact sent_of_skipped books inside above (by omega)

/-- A run was sent after the skipped bytes, and the rest later. -/
theorem sentFrom_of_rest {m' : OutboundMessage} {stop : ℕ} (books : m.Accounted)
    (inside : start ≤ m.message.body.length)
    (nonempty : m.message.body ≠ [])
    (grows : (m.noteSent true (m.skip true start) stop).Grows m') (rest : SentFrom m' stop) : SentFrom m' start := by
  have message : m'.message = m.message := grows.message.trans (noteSent_message _ _ _ _)
  have earlier := (noteSent_grows m true (m.skip true start) stop).trans grows
  unfold SentFrom at rest ⊢
  rw [message, if_neg nonempty] at rest ⊢
  intro i above below
  by_cases skipped : i < m.skip true start
  · rw [earlier.acknowledged]
    exact (sent_of_skipped books inside above skipped).imp_left (earlier.sent i)
  by_cases later : stop ≤ i
  · exact rest i later below
  · left
    apply grows.sent i
    have marks := books.sent
    obtain ⟨_, same⟩ := noteSent_nonempty nonempty true (m.skip true start) stop
    rw [same, markRange_getD (by omega)]
    simp [not_lt.mp skipped, not_le.mp later]

theorem SentFrom.allSent (all : SentFrom m 0) : m.AllSent := by
  unfold SentFrom at all
  unfold AllSent
  split_ifs at all ⊢
  · exact all
  · intro i below
    exact all i (Nat.zero_le i) below

end SentFrom

/-- Nothing is left to send for the first time of the first `n` messages. -/
def Flight.SentUpTo (f : Flight) (n : ℕ) : Prop := ∀ j < n, ∀ m, f.messages[j]? = some m → m.AllSent

theorem Flight.SentUpTo.grows {n : ℕ} (sent : f.SentUpTo n) (grows : f.Grows f') : f'.SentUpTo n := by
  intro j below m' found
  obtain ⟨inside, -⟩ := List.getElem?_eq_some_iff.mp found
  rw [grows.length] at inside
  obtain ⟨m'', found', grown⟩ := grows.messages j _ (getElem?_eq_getElem inside)
  rw [found] at found'
  cases found'
  exact grown.allSent (sent j below _ (getElem?_eq_getElem inside))

/-- A call carries a part of a flight, and everything ahead of its message was sent. -/
inductive Flight.Carries (f : Flight) (onlyNew : Bool) (capacity : ℕ) (part : Part) : ℕ × Bytes → Prop
  | mk {m : OutboundMessage} {body : Bytes} : f.messages[part.index]? = some m →
      m.Sendable onlyNew capacity part.start part.stop → f.SentUpTo part.index →
      m.message.fragment part.start (part.stop - part.start) = .ok body →
      Carries f onlyNew capacity part (m.message.epoch, body)

/-- A flight that is transmitted: it is read back as it was stored unless there is none, and sending a record
leaves it alone. -/
structure Sender (σ : Type) where
  ref : FlightRef σ
  send : ℕ → Bytes → EStateM Err σ RecordNumber
  now : Time
  capacity : ℕ
  stored : ∀ f s, ref.load (ref.store f s) = f ∨ ref.load (ref.store f s) = ref.load s ∧ (ref.load s).messages = []
  kept : ∀ epoch body s, Ends (send epoch body) s (fun _ s' => ref.load s' = ref.load s)
    (fun _ s' => ref.load s' = ref.load s)

namespace Sender

variable {σ : Type} {x : Sender σ} {s s' s'' : σ}

def flight (x : Sender σ) (s : σ) : Flight := x.ref.load s

/-! ## One record -/

/-- A record was sent and recorded. -/
inductive Sent (x : Sender σ) (onlyNew : Bool) (s : σ) (part : Part) : σ → Prop
  | mk {call : ℕ × Bytes} {number : RecordNumber} {s' : σ} : (x.flight s).Carries onlyNew x.capacity part call →
      x.send call.1 call.2 s = .ok number s' → Sent x onlyNew s part
        (x.ref.store ((x.flight s').record x.now onlyNew part.index part.start part.stop number) s')

/-- An error stopped the pass: before the next call, in it, or because of the number it gave. -/
inductive Failed (x : Sender σ) (onlyNew : Bool) (s : σ) : σ → Prop
  | uncalled : Failed x onlyNew s s
  | refused {part : Part} {call : ℕ × Bytes} {e : Err} {s' : σ} : (x.flight s).Carries onlyNew x.capacity part call →
      x.send call.1 call.2 s = .error e s' → Failed x onlyNew s s'
  | unrecorded {part : Part} {call : ℕ × Bytes} {number : RecordNumber} {s' : σ} :
      (x.flight s).Carries onlyNew x.capacity part call → x.send call.1 call.2 s = .ok number s' →
      number.epoch ≠ call.1 ∨ number ∈ (x.flight s').sent → Failed x onlyNew s s'

private theorem sendRange_ends (part : Part) (found : (x.flight s).messages[part.index]? = some m)
    (sendable : m.Sendable onlyNew x.capacity part.start part.stop) (ahead : (x.flight s).SentUpTo part.index) :
    Ends (x.ref.sendRange x.now x.send onlyNew part.index m.message part.start part.stop) s
      (fun _ s' => x.Sent onlyNew s part s') (fun _ s' => x.Failed onlyNew s s') := by
  unfold FlightRef.sendRange
  rw [ends_bind, ends_get, ends_ite]
  split_ifs with full
  · exact .uncalled
  cases encoded : m.message.fragment part.start (part.stop - part.start) with
  | error e => exact .uncalled
  | ok body =>
    have carries : (x.flight s).Carries onlyNew x.capacity part (m.message.epoch, body) :=
      .mk found sendable ahead encoded
    dsimp only
    rw [ends_bind]
    apply ends_of_cases
    · intro number s' sent
      rw [ends_bind, ends_get, ends_ite]
      split_ifs with wrong used
      · exact .unrecorded carries sent (.inl wrong)
      · exact .unrecorded carries sent (.inr used)
      · exact .mk carries sent
    · intro e s' failed
      exact .refused carries failed

theorem Sent.recorded (sent : x.Sent onlyNew s part s') : ∃ call number,
    (x.flight s).Carries onlyNew x.capacity part call ∧
      x.flight s' = (x.flight s).record x.now onlyNew part.index part.start part.stop number := by
  cases sent with
  | @mk call number s₁ carries sent =>
    have kept : x.flight s₁ = x.flight s := (x.kept _ _ _).ok sent
    refine ⟨call, number, carries, ?_⟩
    rw [kept]
    cases carries with
    | mk found _ _ _ =>
      refine (x.stored _ _).resolve_right fun absent => ?_
      have none : (x.flight s).messages = [] := kept ▸ absent.2
      exact ne_nil_of_mem (mem_of_getElem? found) none

theorem Sent.grows (sent : x.Sent onlyNew s part s') : (x.flight s).Grows (x.flight s') := by
  obtain ⟨call, number, -, same⟩ := sent.recorded
  rw [same]
  exact Flight.record_grows _ _ _ _ _ _ _

theorem Sent.accounted (sent : x.Sent onlyNew s part s') (accounted : (x.flight s).Accounted) :
    (x.flight s').Accounted := by
  obtain ⟨call, number, carries, same⟩ := sent.recorded
  cases carries with
  | mk found sendable _ _ => exact same ▸ accounted.record found sendable

/-- A new record makes less left to send. -/
theorem Sent.unsent (sent : x.Sent onlyNew s part s') (accounted : (x.flight s).Accounted) :
    (x.flight s').unsent + (if onlyNew then 1 else 0) ≤ (x.flight s).unsent := by
  obtain ⟨call, number, carries, same⟩ := sent.recorded
  cases carries with
  | mk found sendable _ _ => exact same ▸ accounted.unsent_record found sendable

/-! ## Passes -/

/-- Records sent one after the other. -/
abbrev Burst (x : Sender σ) (onlyNew : Bool) : σ → List Part → σ → Prop := Path (x.Sent onlyNew)

section Burst

variable {parts : List Part} (burst : x.Burst onlyNew s parts s')
include burst

theorem burst_grows : (x.flight s).Grows (x.flight s') := by
  induction burst with
  | nil s => exact .refl _
  | cons sent _ ih => exact sent.grows.trans ih

theorem burst_accounted (accounted : (x.flight s).Accounted) : (x.flight s').Accounted :=
  burst.invariant (P := fun s => (x.flight s).Accounted)
    (fun _ _ _ accounted sent => sent.accounted accounted) accounted

theorem burst_unsent (accounted : (x.flight s).Accounted) :
    (x.flight s').unsent + (if onlyNew then parts.length else 0) ≤ (x.flight s).unsent := by
  induction burst with
  | nil s => simp
  | cons sent _ ih =>
    have first := sent.unsent accounted
    have later := ih (sent.accounted accounted)
    cases onlyNew with
    | false => simp only [Bool.false_eq_true, if_false, Nat.add_zero] at *; omega
    | true => simp only [if_true, length_cons] at *; omega

end Burst

/-- A pass that returned sent a burst; `count` records went out before it. -/
def Passed (x : Sender σ) (onlyNew : Bool) (s : σ) (count count' : ℕ) (s' : σ) : Prop :=
  ∃ parts, x.Burst onlyNew s parts s' ∧ count' = count + parts.length ∧ count' ≤ flightBurst

/-- A pass that failed sent a burst that did not fill up, and then maybe made one more call. -/
def Stopped (x : Sender σ) (onlyNew : Bool) (s : σ) (count : ℕ) (s' : σ) : Prop :=
  ∃ parts mid, x.Burst onlyNew s parts mid ∧ count + parts.length < flightBurst ∧ x.Failed onlyNew mid s'

section Passes

variable {count count' count'' : ℕ}

theorem Passed.refl (room : count ≤ flightBurst) : x.Passed onlyNew s count count s := ⟨[], .nil s, rfl, room⟩

theorem Passed.trans (first : x.Passed onlyNew s count count' s') (second : x.Passed onlyNew s' count' count'' s'') :
    x.Passed onlyNew s count count'' s'' := by
  obtain ⟨parts, burst, counted, -⟩ := first
  obtain ⟨later, burst', counted', room⟩ := second
  refine ⟨parts ++ later, burst.append burst', ?_, room⟩
  rw [counted', counted, length_append, Nat.add_assoc]

theorem Passed.stopped (first : x.Passed onlyNew s count count' s') (second : x.Stopped onlyNew s' count' s'') :
    x.Stopped onlyNew s count s'' := by
  obtain ⟨parts, burst, counted, -⟩ := first
  obtain ⟨later, mid, burst', room, failed⟩ := second
  refine ⟨parts ++ later, mid, burst.append burst', ?_, failed⟩
  rw [length_append]
  omega

theorem Passed.grows (passed : x.Passed onlyNew s count count' s') : (x.flight s).Grows (x.flight s') := by
  obtain ⟨parts, burst, -, -⟩ := passed
  exact burst_grows burst

theorem Passed.accounted (passed : x.Passed onlyNew s count count' s') (accounted : (x.flight s).Accounted) :
    (x.flight s').Accounted := by
  obtain ⟨parts, burst, -, -⟩ := passed
  exact burst_accounted burst accounted

/-- A pass without new bytes leaves none. -/
theorem Passed.settled (passed : x.Passed onlyNew s count count' s') (accounted : (x.flight s).Accounted)
    (left : (x.flight s).unsent = 0) : (x.flight s').unsent = 0 := by
  obtain ⟨parts, burst, -, -⟩ := passed
  have less := burst_unsent burst accounted
  omega

theorem Sent.passed (sent : x.Sent onlyNew s part s') (room : count < flightBurst) :
    x.Passed onlyNew s count (count + 1) s' := ⟨[part], .cons sent (.nil s'), rfl, room⟩

theorem Failed.stopped (failed : x.Failed onlyNew s s') (room : count < flightBurst) :
    x.Stopped onlyNew s count s' := ⟨[], s, .nil s, room, failed⟩

end Passes

theorem Sent.found (sent : x.Sent onlyNew s part s') (found : (x.flight s).messages[part.index]? = some m) :
    (x.flight s').messages[part.index]? = some (m.noteSent onlyNew part.start part.stop) := by
  obtain ⟨call, number, -, same⟩ := sent.recorded
  rw [same, Flight.record_getElem?, if_pos rfl, found]
  rfl

private theorem sendBody_succ (index fuel start count : ℕ) :
    x.ref.sendBody x.now x.capacity x.send onlyNew index (fuel + 1) start count = (do
      let s ← get
      match (x.ref.load s).messages[index]? with
      | none => pure count
      | some m =>
        if m.message.body = [] then
          if m.emptyAcknowledged || (onlyNew && m.emptySent) then pure count
          else do
            x.ref.sendRange x.now x.send onlyNew index m.message 0 0
            pure (count + 1)
        else
          let start := m.skip onlyNew start
          if m.message.body.length ≤ start then pure count
          else do
            let stop := m.extent onlyNew x.capacity start
            x.ref.sendRange x.now x.send onlyNew index m.message start stop
            if count + 1 = flightBurst then pure (count + 1)
            else x.ref.sendBody x.now x.capacity x.send onlyNew index fuel stop (count + 1)) := (rfl)

/-- The loop over one message. -/
private theorem sendBody_ends {index fuel start count : ℕ} (positive : 0 < x.capacity)
    (accounted : (x.flight s).Accounted) (found : (x.flight s).messages[index]? = some m)
    (inside : start ≤ m.message.body.length) (enough : m.message.body.length < start + fuel)
    (ahead : (x.flight s).SentUpTo index) (room : count < flightBurst) :
    Ends (x.ref.sendBody x.now x.capacity x.send onlyNew index fuel start count) s
      (fun count' s' => x.Passed onlyNew s count count' s' ∧
        (onlyNew = true → count' < flightBurst → ∃ m', (x.flight s').messages[index]? = some m' ∧ SentFrom m' start))
      (fun _ s' => x.Stopped onlyNew s count s') := by
  induction fuel generalizing s m start count with
  | zero => omega
  | succ fuel ih =>
    have loaded : (x.ref.load s).messages[index]? = some m := found
    have books := accounted.messages index m found
    rw [sendBody_succ, ends_bind, ends_get, loaded]
    dsimp only
    by_cases empty : m.message.body = []
    · rw [if_pos empty]
      by_cases sent : (m.emptyAcknowledged || (onlyNew && m.emptySent)) = true
      · rw [if_pos sent, ends_pure]
        refine ⟨.refl room.le, fun new _ => ⟨m, found, sentFrom_of_empty empty ?_⟩⟩
        rw [new, Bool.true_and, Bool.or_eq_true] at sent
        exact sent.symm
      · rw [if_neg sent, ends_bind]
        simp only [Bool.or_eq_true, Bool.and_eq_true, not_or, not_and, Bool.not_eq_true] at sent
        have sendable : m.Sendable onlyNew x.capacity 0 0 := .empty empty sent.1 sent.2
        apply (sendRange_ends ⟨index, 0, 0⟩ found sendable ahead).mono
        · intro _ s' recorded
          rw [ends_pure]
          obtain ⟨_, same⟩ := noteSent_empty empty onlyNew 0 0
          refine ⟨recorded.passed room, fun _ _ => ⟨_, recorded.found found, ?_⟩⟩
          rw [same]
          exact sentFrom_of_empty empty (.inl rfl)
        · intro _ s' failed
          exact failed.stopped room
    · rw [if_neg empty]
      by_cases done : m.message.body.length ≤ m.skip onlyNew start
      · rw [if_pos done, ends_pure]
        refine ⟨.refl room.le, fun new _ => ⟨m, found, ?_⟩⟩
        subst new
        exact sentFrom_of_skip books inside empty done
      · rw [if_neg done, ends_bind]
        have sendable := extent_sendable books positive inside (not_le.mp done)
        obtain ⟨skipped, -, -, first⟩ := skip_spec books onlyNew inside
        obtain ⟨some, most, -, -⟩ :=
          extent_spec books (not_le.mp done) positive (first (not_le.mp done))
        generalize m.extent onlyNew x.capacity (m.skip onlyNew start) = stop at *
        apply (sendRange_ends ⟨index, m.skip onlyNew start, stop⟩ found sendable ahead).mono
        · intro _ s' recorded
          have found' := recorded.found found
          by_cases full : count + 1 = flightBurst
          · rw [if_pos full, ends_pure]
            refine ⟨recorded.passed room, fun _ less => ?_⟩
            omega
          · rw [if_neg full]
            apply (ih (recorded.accounted accounted) found' _ _ (ahead.grows recorded.grows) _).mono
            · rintro count' s'' ⟨passed, rest⟩
              refine ⟨(recorded.passed room).trans passed, fun new less => ?_⟩
              obtain ⟨m'', found'', sent⟩ := rest new less
              obtain ⟨grown, present, grows⟩ := passed.grows.messages _ _ found'
              rw [found''] at present
              cases present
              subst new
              exact ⟨m'', found'', sentFrom_of_rest books inside empty grows sent⟩
            · intro _ s'' stopped
              exact (recorded.passed room).stopped stopped
            · rw [noteSent_message]
              exact most
            · rw [noteSent_message]
              omega
            · have limit := room
              omega
        · intro _ s' failed
          exact failed.stopped room

/-- The loop over the messages; `rest` are those not visited yet. -/
private theorem sendMessages_ends {rest : List OutboundMessage} {index count : ℕ} (positive : 0 < x.capacity)
    (accounted : (x.flight s).Accounted) (lined : ∀ (i : ℕ) (m : OutboundMessage), rest[i]? = some m →
      ∃ m', (x.flight s).messages[index + i]? = some m' ∧ m'.message = m.message)
    (ahead : (x.flight s).SentUpTo index) (settled : onlyNew = false → (x.flight s).unsent = 0)
    (room : count < flightBurst) : Ends (x.ref.sendMessages x.now x.capacity x.send onlyNew rest index count) s
      (fun count' s' => x.Passed onlyNew s count count' s' ∧
        (onlyNew = true → count' < flightBurst → (x.flight s').SentUpTo (index + rest.length)))
      (fun _ s' => x.Stopped onlyNew s count s') := by
  induction rest generalizing s index count with
  | nil => exact ⟨.refl room.le, fun _ _ => ahead⟩
  | cons m rest ih =>
    unfold FlightRef.sendMessages
    rw [ends_bind]
    obtain ⟨m', found, same⟩ := lined 0 m rfl
    have enough : m'.message.body.length < 0 + (m.message.body.length + 1) := by
      rw [same]
      omega
    apply (sendBody_ends positive accounted found (Nat.zero_le _) enough ahead room).imp
    rintro count' s' ⟨passed, first⟩
    by_cases full : count' = flightBurst
    · rw [if_pos full, ends_pure]
      refine ⟨passed, fun _ less => ?_⟩
      omega
    · rw [if_neg full]
      have left : count' < flightBurst := by
        obtain ⟨parts, -, -, most⟩ := passed
        omega
      have lined' : ∀ (i : ℕ) (m : OutboundMessage), rest[i]? = some m →
          ∃ m', (x.flight s').messages[index + 1 + i]? = some m' ∧ m'.message = m.message := by
        intro i m listed
        obtain ⟨m₀, present, same⟩ := lined (i + 1) m listed
        obtain ⟨m₁, present', grown⟩ := passed.grows.messages _ _ present
        rw [show index + 1 + i = index + (i + 1) by omega]
        exact ⟨m₁, present', grown.message.trans same⟩
      have accounted' := passed.accounted accounted
      have settled' : onlyNew = false → (x.flight s').unsent = 0 := fun old => passed.settled accounted (settled old)
      have ahead' : (x.flight s').SentUpTo (index + 1) := by
        intro j below m₁ present
        by_cases before : j < index
        · exact ahead.grows passed.grows j before m₁ present
        obtain rfl : j = index := by omega
        cases onlyNew with
        | true =>
          obtain ⟨m₂, present', sent⟩ := first rfl left
          cases present.symm.trans present'
          exact sent.allSent
        | false => exact accounted'.allSent_iff.mpr (settled' rfl) m₁ (mem_of_getElem? present)
      apply (ih accounted' lined' ahead' settled' left).mono
      · rintro count'' s'' ⟨passed', all⟩
        refine ⟨passed.trans passed', fun new less => ?_⟩
        rw [length_cons, show index + (rest.length + 1) = index + 1 + rest.length by omega]
        exact all new less
      · intro _ s'' stopped
        exact passed.stopped stopped

/-- A pass over all messages. Once it ends before the burst is full, no new byte is left. -/
private theorem sendRanges_ends (positive : 0 < x.capacity) (accounted : (x.flight s).Accounted)
    (settled : onlyNew = false → (x.flight s).unsent = 0) : Ends (x.ref.sendRanges x.now x.capacity x.send onlyNew) s
      (fun count s' => x.Passed onlyNew s 0 count s' ∧
        (onlyNew = true → count < flightBurst → (x.flight s').unsent = 0))
      (fun _ s' => x.Stopped onlyNew s 0 s') := by
  unfold FlightRef.sendRanges
  rw [ends_bind, ends_get]
  have lined : ∀ (i : ℕ) (m : OutboundMessage), (x.flight s).messages[i]? = some m →
      ∃ m', (x.flight s).messages[0 + i]? = some m' ∧ m'.message = m.message := by
    intro i m listed
    rw [Nat.zero_add]
    exact ⟨m, listed, rfl⟩
  have ahead : (x.flight s).SentUpTo 0 := fun j below => absurd below (Nat.not_lt_zero j)
  apply (sendMessages_ends positive accounted lined ahead settled (by decide)).imp
  rintro count s' ⟨passed, sent⟩
  refine ⟨passed, fun new less => ?_⟩
  rw [← (passed.accounted accounted).allSent_iff]
  intro m listed
  obtain ⟨i, below, rfl⟩ := mem_iff_getElem.mp listed
  refine sent new less i ?_ _ (getElem?_eq_getElem below)
  rw [Nat.zero_add]
  exact passed.grows.length ▸ below

/-! ## Transmissions -/

/-- The timer is set again. -/
def arm (x : Sender σ) (s : σ) : σ := x.ref.store ((x.flight s).armed x.now) s

theorem flight_arm (x : Sender σ) (s : σ) :
    x.flight (x.arm s) = (x.flight s).armed x.now ∨ x.flight (x.arm s) = x.flight s :=
  (x.stored _ s).imp_right And.left

/-- A transmission that returned: new bytes go first, and others only when there are none. -/
inductive Transmitted (x : Sender σ) (s : σ) : σ → Prop
  | complete : (x.flight s).complete = true → Transmitted x s s
  | new {parts : List Part} {mid : σ} : x.Burst true s parts mid → parts ≠ [] → parts.length ≤ flightBurst →
      (parts.length < flightBurst → (x.flight mid).unsent = 0) → Transmitted x s (x.arm mid)
  | again {parts : List Part} {mid : σ} : (x.flight s).unsent = 0 → x.Burst false s parts mid →
      parts.length ≤ flightBurst → Transmitted x s (x.arm mid)

/-- A transmission that failed. -/
inductive Aborted (x : Sender σ) (s : σ) : σ → Prop
  | refused : Aborted x s s
  | new {s' : σ} : x.Stopped true s 0 s' → Aborted x s s'
  | again {s' : σ} : (x.flight s).unsent = 0 → x.Stopped false s 0 s' → Aborted x s s'

theorem transmit_ends (x : Sender σ) (accounted : (x.flight s).Accounted) :
    Ends (x.ref.transmit x.now x.capacity x.send) s (fun _ s' => x.Transmitted s s') (fun _ s' => x.Aborted s s') := by
  unfold FlightRef.transmit
  rw [ends_bind, ends_get]
  by_cases complete : (x.ref.load s).complete = true
  · rw [if_pos complete]
    exact .complete complete
  rw [if_neg complete]
  by_cases outside : x.capacity < 1 ∨ maxContent - handshakeHeader < x.capacity
  · rw [if_pos outside]
    exact .refused
  rw [if_neg outside, ends_bind]
  have positive : 0 < x.capacity := by omega
  apply (sendRanges_ends positive accounted (by simp)).mono
  · rintro count s' ⟨⟨parts, burst, counted, most⟩, sent⟩
    rw [Nat.zero_add] at counted
    subst counted
    by_cases none : parts.length = 0
    · rw [if_pos none, ends_bind]
      obtain rfl := eq_nil_of_length_eq_zero none
      cases burst
      have left : (x.flight s).unsent = 0 := sent rfl (by decide)
      apply (sendRanges_ends positive accounted fun _ => left).mono
      · rintro count s' ⟨⟨parts, burst, counted, most⟩, -⟩
        rw [Nat.zero_add] at counted
        subst counted
        exact .again left burst most
      · intro _ s' stopped
        exact .again left stopped
    · rw [if_neg none]
      exact .new burst (fun empty => none (by rw [empty]; rfl)) most (sent rfl)
  · intro _ s' stopped
    exact .new stopped

theorem armed_accounted (accounted : f.Accounted) (now : Time) : (f.armed now).Accounted :=
  { accounted with }

private theorem arm_accounted (accounted : (x.flight s).Accounted) : (x.flight (x.arm s)).Accounted := by
  rcases x.flight_arm s with armed | same
  · exact armed ▸ armed_accounted accounted x.now
  · exact same ▸ accounted

private theorem arm_spends (x : Sender σ) (s : σ) : (x.flight (x.arm s)).retries = (x.flight s).retries ∧
    (x.flight (x.arm s)).unsent = (x.flight s).unsent := by
  rcases x.flight_arm s with armed | same
  · rw [armed]
    exact ⟨rfl, rfl⟩
  · rw [same]
    exact ⟨rfl, rfl⟩

theorem Transmitted.accounted (transmitted : x.Transmitted s s') (accounted : (x.flight s).Accounted) :
    (x.flight s').Accounted := by
  cases transmitted with
  | complete _ => exact accounted
  | new burst _ _ _ | again _ burst _ => exact arm_accounted (burst_accounted burst accounted)

theorem Failed.flight (failed : x.Failed onlyNew s s') : x.flight s' = x.flight s := by
  cases failed with
  | uncalled => rfl
  | refused _ sent => exact (x.kept _ _ _).error sent
  | unrecorded _ sent _ => exact (x.kept _ _ _).ok sent

theorem Stopped.grown {count : ℕ} (stopped : x.Stopped onlyNew s count s') :
    ∃ parts mid, x.Burst onlyNew s parts mid ∧ x.flight s' = x.flight mid := by
  obtain ⟨parts, mid, burst, -, failed⟩ := stopped
  exact ⟨parts, mid, burst, failed.flight⟩

theorem Aborted.accounted (aborted : x.Aborted s s') (accounted : (x.flight s).Accounted) :
    (x.flight s').Accounted := by
  cases aborted with
  | refused => exact accounted
  | new stopped | again _ stopped =>
    obtain ⟨parts, mid, burst, same⟩ := stopped.grown
    exact same ▸ burst_accounted burst accounted

/-- A transmission that returns sends something new if there is anything. -/
theorem Transmitted.spends (transmitted : x.Transmitted s s') (accounted : (x.flight s).Accounted) :
    (x.flight s').retries = (x.flight s).retries ∧ (x.flight s').unsent ≤ (x.flight s).unsent ∧
      (0 < (x.flight s).unsent → (x.flight s').unsent < (x.flight s).unsent) := by
  cases transmitted with
  | complete complete =>
    have none : (x.flight s).unsent = 0 := by
      unfold Flight.unsent
      rw [accounted.finished complete]
      rfl
    exact ⟨rfl, le_rfl, by omega⟩
  | @new parts mid burst some _ _ =>
    obtain ⟨retries, unsent⟩ := x.arm_spends mid
    have less := burst_unsent burst accounted
    have one := length_pos_of_ne_nil some
    rw [if_pos rfl] at less
    exact ⟨retries.trans (burst_grows burst).retries, by omega, fun _ => by omega⟩
  | @again parts mid left burst _ =>
    obtain ⟨retries, unsent⟩ := x.arm_spends mid
    have less := burst_unsent burst accounted
    exact ⟨retries.trans (burst_grows burst).retries, by omega, by omega⟩

theorem Aborted.spends (aborted : x.Aborted s s') (accounted : (x.flight s).Accounted) :
    (x.flight s').retries = (x.flight s).retries ∧ (x.flight s').unsent ≤ (x.flight s).unsent := by
  have stopped : ∀ {onlyNew}, x.Stopped onlyNew s 0 s' →
      (x.flight s').retries = (x.flight s).retries ∧ (x.flight s').unsent ≤ (x.flight s).unsent := by
    intro onlyNew stopped
    obtain ⟨parts, mid, burst, same⟩ := stopped.grown
    rw [same]
    exact ⟨(burst_grows burst).retries, le_trans (Nat.le_add_right _ _) (burst_unsent burst accounted)⟩
  cases aborted with
  | refused => exact ⟨rfl, le_rfl⟩
  | new ended => exact stopped ended
  | again _ ended => exact stopped ended

end Sender

/-! ## The flights of a session -/

theorem Flight.default_accounted : (default : Flight).Accounted where
  messages := by simp [default]
  records := by simp [default]
  finished _ := rfl
  interval := by decide
  retries := by decide

theorem Slot.load_store (slot : Slot) (f : Flight) (w : World) : slot.ref.load (slot.ref.store f w) = f ∨
    slot.ref.load (slot.ref.store f w) = slot.ref.load w ∧ (slot.ref.load w).messages = [] := by
  cases present : w.session.flight slot with
  | none =>
    rw [endpoint_store_absent slot f w present]
    exact .inr ⟨rfl, by simp [Slot.ref, present, default]⟩
  | some old =>
    rw [Slot.store_of_present present]
    exact .inl (by simp [Slot.ref, flight_setFlight])

/-- The flight in a slot, of which records are sent with the keys of their epochs. -/
def Slot.sender [Crypto] (slot : Slot) (now : Time) (capacity : ℕ) : Sender World where
  ref := slot.ref
  send := sendHandshake
  now := now
  capacity := capacity
  stored := slot.load_store
  kept _ _ _ := sendRecord_ends (fun _ => rfl) (fun _ _ _ _ _ _ _ _ => rfl) fun _ _ _ _ _ _ _ => rfl

/-! ## The calls of a transmission -/

/-- A flight, the answers of the transport to each call, and the calls made so far. -/
structure Sending where
  flight : Flight
  answers : ℕ → Except Err RecordNumber
  calls : List (ℕ × Bytes) := []

namespace Sending

def ref : FlightRef Sending where
  load := flight
  store f s := { s with flight := f }

/-- The call as it was made. -/
def called (s : Sending) (epoch : ℕ) (body : Bytes) : Sending := { s with calls := s.calls ++ [(epoch, body)] }

def send (epoch : ℕ) (body : Bytes) : EStateM Err Sending RecordNumber := fun s =>
  match s.answers s.calls.length with
  | .ok number => .ok number (s.called epoch body)
  | .error e => .error e (s.called epoch body)

theorem send_called (epoch : ℕ) (body : Bytes) (s : Sending) :
    Ends (send epoch body) s (fun _ s' => s' = s.called epoch body) (fun _ s' => s' = s.called epoch body) := by
  unfold Ends send
  cases s.answers s.calls.length <;> rfl

def sender (now : Time) (capacity : ℕ) : Sender Sending where
  ref := ref
  send := send
  now := now
  capacity := capacity
  stored _ _ := .inl rfl
  kept epoch body s := (send_called epoch body s).mono (fun _ _ same => same ▸ rfl) fun _ _ same => same ▸ rfl

variable {now : Time} {s s' : Sending}

/-- Calls made one after the other, each with a part of the flight as the calls before it left it. -/
inductive Carried (now : Time) (onlyNew : Bool) (capacity : ℕ) : Flight → List (ℕ × Bytes) → Prop
  | nil {f : Flight} : Carried now onlyNew capacity f []
  | cons {f : Flight} {part : Part} {call : ℕ × Bytes} {calls : List (ℕ × Bytes)} (number : RecordNumber) :
      f.Carries onlyNew capacity part call →
      Carried now onlyNew capacity (f.record now onlyNew part.index part.start part.stop number) calls →
      Carried now onlyNew capacity f (call :: calls)

/-- The calls of a burst carry its parts, and later calls carry parts of what it left. -/
private theorem burst_calls {parts : List Part} (burst : (sender now capacity).Burst onlyNew s parts s') :
    ∃ calls, s'.calls = s.calls ++ calls ∧ calls.length = parts.length ∧
      ∀ rest, Carried now onlyNew capacity s'.flight rest → Carried now onlyNew capacity s.flight (calls ++ rest) := by
  induction burst with
  | nil s => exact ⟨[], (append_nil _).symm, rfl, fun _ later => later⟩
  | cons sent _ ih =>
    obtain ⟨calls, extended, size, carried⟩ := ih
    cases sent with
    | @mk call number s₁ carries sent =>
      obtain rfl := (send_called _ _ _).ok sent
      refine ⟨call :: calls, ?_, congrArg (· + 1) size, fun rest later => .cons number carries (carried rest later)⟩
      rw [extended]
      exact append_assoc _ _ _

/-- At most ten records went out, each with a range of one message that fits and of which nothing was
acknowledged when it went out, and nothing sent either, also by the records just before it, if
anything new was left. -/
structure Ranges (now : Time) (f : Flight) (capacity : ℕ) (calls : List (ℕ × Bytes)) : Prop where
  few : calls.length ≤ 10
  carried : ∃ onlyNew, (onlyNew = true ∨ f.pendingSend = false) ∧ Carried now onlyNew capacity f calls

theorem ranges_nil (now : Time) (f : Flight) (capacity : ℕ) : Ranges now f capacity [] :=
  ⟨Nat.zero_le _, true, .inl rfl, .nil⟩

/-- A pass of new bytes, or one made when none was left, with the calls `rest` after it. -/
theorem ranges_of_burst {parts : List Part} {rest : List (ℕ × Bytes)} (accounted : s.flight.Accounted)
    (fresh : s.calls = []) (burst : (sender now capacity).Burst onlyNew s parts s')
    (later : Carried now onlyNew capacity s'.flight rest) (few : parts.length + rest.length ≤ flightBurst)
    (order : onlyNew = true ∨ s.flight.unsent = 0) :
    Ranges now s.flight capacity (s'.calls ++ rest) ∧ s'.calls.length = parts.length := by
  obtain ⟨calls, extended, size, carried⟩ := burst_calls burst
  rw [fresh, nil_append] at extended
  rw [extended]
  refine ⟨⟨?_, onlyNew, order.imp_right fun left => ?_, carried rest later⟩, size⟩
  · rw [length_append, size]
    exact few
  · rw [← Bool.not_eq_true, accounted.pendingSend_iff]
    omega

private theorem ranges_of_stopped (stopped : (sender now capacity).Stopped onlyNew s 0 s')
    (accounted : s.flight.Accounted)
    (fresh : s.calls = []) (order : onlyNew = true ∨ s.flight.unsent = 0) :
    Ranges now s.flight capacity s'.calls := by
  obtain ⟨parts, mid, burst, room, failed⟩ := stopped
  rw [Nat.zero_add] at room
  have called : ∀ {part call}, mid.flight.Carries onlyNew capacity part call → s' = mid.called call.1 call.2 →
      Ranges now s.flight capacity s'.calls := by
    rintro part call carries rfl
    exact (ranges_of_burst accounted fresh burst (.cons default carries .nil) room order).1
  cases failed with
  | uncalled =>
    have ranges := (ranges_of_burst accounted fresh burst .nil room.le order).1
    rwa [append_nil] at ranges
  | refused carries failed => exact called carries ((send_called _ _ _).error failed)
  | unrecorded carries sent _ => exact called carries ((send_called _ _ _).ok sent)

private theorem ranges_of_aborted (aborted : (sender now capacity).Aborted s s') (accounted : s.flight.Accounted)
    (fresh : s.calls = []) : Ranges now s.flight capacity s'.calls := by
  cases aborted with
  | refused =>
    rw [fresh]
    exact ranges_nil _ _ _
  | new stopped => exact ranges_of_stopped stopped accounted fresh (.inl rfl)
  | again left stopped => exact ranges_of_stopped stopped accounted fresh (.inr left)

private theorem ranges_of_transmitted (transmitted : (sender now capacity).Transmitted s s')
    (accounted : s.flight.Accounted)
    (fresh : s.calls = []) :
    Ranges now s.flight capacity s'.calls ∧ (s'.calls.length < 10 → ∀ m ∈ s'.flight.messages, m.AllSent) := by
  have books := transmitted.accounted accounted
  cases transmitted with
  | complete complete =>
    rw [fresh, accounted.finished complete]
    exact ⟨ranges_nil _ _ _, by simp⟩
  | new burst _ few sent =>
    obtain ⟨ranges, size⟩ := ranges_of_burst accounted fresh burst .nil few (.inl rfl)
    rw [append_nil] at ranges
    refine ⟨ranges, fun less => books.allSent_iff.mpr (sent ?_)⟩
    rw [← size]
    exact less
  | again left burst few =>
    obtain ⟨ranges, -⟩ := ranges_of_burst accounted fresh burst .nil few (.inr left)
    rw [append_nil] at ranges
    refine ⟨ranges, fun _ => books.allSent_iff.mpr ?_⟩
    have less := Sender.burst_unsent burst accounted
    exact Nat.eq_zero_of_le_zero (le_trans (Nat.le_add_right _ _) (left ▸ less))

end Sending

/-! ## Runs -/

namespace Flight

inductive Call
  | transmit (now : Time) (capacity : ℕ) (answers : ℕ → Except Err RecordNumber)
  | acknowledge (records : List RecordNumber) (authenticated : Bool) (now : Time)
  | expire (now : Time)

def call (f : Flight) : Call → Flight
  | .transmit now capacity answers => (final (Sending.ref.transmit now capacity Sending.send) ⟨f, answers, []⟩).flight
  | .acknowledge records authenticated now => (f.acknowledge records authenticated now).2
  | .expire now => (f.expire now).2

def run (f : Flight) (calls : List Call) : Flight := calls.foldl call f

theorem Accounted.call (accounted : f.Accounted) (call : Call) : (f.call call).Accounted := by
  cases call with
  | transmit now capacity answers =>
    have ended := (Sending.sender now capacity).transmit_ends (s := (⟨f, answers, []⟩ : Sending)) accounted
    exact Ends.final (P := fun s => s.flight.Accounted)
      (ended.mono (fun _ _ transmitted => transmitted.accounted accounted)
        fun _ _ aborted => aborted.accounted accounted)
  | acknowledge records authenticated now => exact (accounted.acknowledge records authenticated now).accounted
  | expire now => exact (accounted.expire now).accounted

theorem Accounted.run (accounted : f.Accounted) (calls : List Call) : (f.run calls).Accounted := by
  induction calls generalizing f with
  | nil => exact accounted
  | cons call rest ih => exact ih (accounted.call call)

/-- What the counters and flags of a flight stand for. -/
structure Books (f : Flight) : Prop where
  remaining : ∀ m ∈ f.messages, m.acknowledged.length = m.message.body.length ∧ m.remaining = m.acknowledged.count false
  sentCount : ∀ m ∈ f.messages, m.sent.length = m.message.body.length ∧ m.sentCount = m.sent.count true
  earned : ∀ m ∈ f.messages, ∀ i, m.acknowledged.getD i false = true → m.sent.getD i false = true
  pendingSend : f.pendingSend = false ↔ ∀ m ∈ f.messages, m.AllSent

theorem Accounted.books (accounted : f.Accounted) : f.Books where
  remaining m listed := ⟨(accounted.mem listed).acknowledged, (accounted.mem listed).remaining⟩
  sentCount m listed := ⟨(accounted.mem listed).sent, (accounted.mem listed).sentCount⟩
  earned m listed := (accounted.mem listed).earned
  pendingSend := by
    rw [← Bool.not_eq_true, accounted.pendingSend_iff, accounted.allSent_iff]
    omega

/-- Whatever happens to a flight, its counters count its marks, and its next transmission sends at most ten
records of unacknowledged bytes, new ones first; if it returns with fewer, nothing new is left. -/
theorem flight_accounted {messages : List HandshakeMessage} {interval : Duration} {f : Flight}
    (started : newFlight messages interval = .ok f) (calls : List Call) :
    (f.run calls).Books ∧ ∀ (now : Time) (capacity : ℕ) (answers : ℕ → Except Err RecordNumber),
      Ends (Sending.ref.transmit now capacity Sending.send) ⟨f.run calls, answers, []⟩
        (fun _ s => Sending.Ranges now (f.run calls) capacity s.calls ∧
          (s.calls.length < 10 → ∀ m ∈ s.flight.messages, m.AllSent))
        (fun _ s => Sending.Ranges now (f.run calls) capacity s.calls) := by
  have accounted := (newFlight_accounted started).run calls
  refine ⟨accounted.books, fun now capacity answers => ?_⟩
  have ended := (Sending.sender now capacity).transmit_ends (s := (⟨f.run calls, answers, []⟩ : Sending)) accounted
  apply ended.mono
  · intro _ s transmitted
    exact Sending.ranges_of_transmitted transmitted accounted rfl
  · intro _ s aborted
    exact Sending.ranges_of_aborted aborted accounted rfl

/-- Two messages, one of them empty: three bytes in records of two, an acknowledgement and a timer. -/
theorem twoMessages_accounted : ∃ f, newFlight [⟨1, 0, 0, [1, 2, 3]⟩, ⟨20, 1, 0, []⟩] 0 = .ok f ∧
    (f.run [.transmit 5 2 fun i => .ok ⟨0, i⟩, .acknowledge [⟨0, 0⟩] true 6, .expire 9]).Books := by
  obtain ⟨f, started⟩ : ∃ f, newFlight [⟨1, 0, 0, [1, 2, 3]⟩, ⟨20, 1, 0, []⟩] 0 = .ok f := ⟨_, rfl⟩
  exact ⟨f, started, (flight_accounted started _).1⟩

end Flight

end Socat.Dtls13
