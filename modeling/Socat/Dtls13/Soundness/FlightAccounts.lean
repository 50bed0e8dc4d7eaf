import Socat.Dtls13.Model.Flight
import Socat.Dtls13.Soundness.Reassembly
import Socat.ToMathlib.Marks

/-! # The books of a flight

Each message of a flight keeps two lists of marks, the bytes that were sent and those that were
acknowledged, and a counter for each. A transmission picks a run of wanted bytes; what was acknowledged was
in a record that was sent, so acknowledged bytes are sent ones. `Flight.Accounted` is kept by every
operation of a flight.
-/

namespace Socat.Dtls13

open List OutboundMessage

/-! ## Ranges of marks -/

section Ranges

variable {bits : List Bool} {start stop i : ℕ}

@[simp] theorem markRange_length (bits : List Bool) (start stop : ℕ) :
    (markRange bits start stop).length = bits.length := by
  simp [markRange]

theorem markRange_getD (below : i < bits.length) :
    (markRange bits start stop).getD i false = (bits.getD i false || (decide (start ≤ i) && decide (i < stop))) := by
  rw [getD_eq_getElem _ _ (by simpa using below), getD_eq_getElem _ _ below]
  simp [markRange]

theorem markRange_mono (marked : bits.getD i false = true) : (markRange bits start stop).getD i false = true := by
  by_cases below : i < bits.length
  · rw [markRange_getD below, marked, Bool.true_or]
  · rw [getD_eq_default _ _ (not_lt.mp below)] at marked
    cases marked

/-- Marking a range of a list replaces that part of it. -/
theorem markRange_eq (ordered : start ≤ stop) (inside : stop ≤ bits.length) :
    markRange bits start stop = bits.take start ++ (List.replicate (stop - start) true ++ bits.drop stop) := by
  apply ext_getElem
  · simp
    omega
  · intro i below below'
    simp only [markRange, getElem_mapIdx, getElem_append, length_take, length_replicate]
    split_ifs with first second
    · have before : ¬start ≤ i := by omega
      simp [before]
    · have inside : start ≤ i ∧ i < stop := by omega
      simp [inside]
    · have after : ¬i < stop := by omega
      simp only [after, decide_false, Bool.and_false, Bool.or_false, getElem_drop]
      congr 1
      omega

private theorem count_split (bits : List Bool) (bit : Bool) (ordered : start ≤ stop) :
    bits.count bit = (bits.take start).count bit +
      (((bits.drop start).take (stop - start)).count bit + (bits.drop stop).count bit) := by
  have rest : (bits.drop start).drop (stop - start) = bits.drop stop := by
    rw [drop_drop]
    congr 1
    omega
  calc bits.count bit = (bits.take start ++ bits.drop start).count bit := by rw [take_append_drop]
    _ = (bits.take start).count bit + (bits.drop start).count bit := count_append
    _ = (bits.take start).count bit +
        ((bits.drop start).take (stop - start) ++ (bits.drop start).drop (stop - start)).count bit := by
      rw [take_append_drop]
    _ = _ := by rw [count_append, rest]

/-- The clear marks of the range are set, and no others change. -/
theorem markRange_count_false (ordered : start ≤ stop) (inside : stop ≤ bits.length) :
    (markRange bits start stop).count false + clearIn bits start stop = bits.count false := by
  rw [markRange_eq ordered inside, count_split bits false ordered]
  simp only [count_append, count_replicate, clearIn]
  simp
  omega

private theorem markRange_count_true (ordered : start ≤ stop) (inside : stop ≤ bits.length) :
    (markRange bits start stop).count true = bits.count true + clearIn bits start stop := by
  have kept := markRange_count_false ordered inside
  have before := bits.count_true_add_count_false
  have after := (markRange bits start stop).count_true_add_count_false
  rw [markRange_length] at after
  omega

/-- In a range without marks every position is clear. -/
theorem clearIn_of_clear (inside : stop ≤ bits.length)
    (clear : ∀ i, start ≤ i → i < stop → bits.getD i false = false) : clearIn bits start stop = stop - start := by
  unfold clearIn
  have size : ((bits.drop start).take (stop - start)).length = stop - start := by
    simp
    omega
  apply (count_eq_length.mpr _).trans size
  intro bit member
  obtain ⟨i, below, rfl⟩ := mem_iff_getElem.mp member
  rw [size] at below
  have unset := clear (start + i) (by omega) (by omega)
  rw [getD_eq_getElem _ _ (by omega)] at unset
  simp [unset]

end Ranges

/-! ## Messages -/

namespace OutboundMessage

/-- The marks cover the body, the counters count them, and what was acknowledged was sent. -/
structure Accounted (m : OutboundMessage) : Prop where
  small : m.message.body.length ≤ maxHandshakeBody
  acknowledged : m.acknowledged.length = m.message.body.length
  sent : m.sent.length = m.message.body.length
  remaining : m.remaining = m.acknowledged.count false
  sentCount : m.sentCount = m.sent.count true
  earned : ∀ i, m.acknowledged.getD i false = true → m.sent.getD i false = true
  emptyEarned : m.emptyAcknowledged = true → m.emptySent = true

private theorem start_accounted {m : HandshakeMessage} (small : m.body.length ≤ maxHandshakeBody) :
    (start m).Accounted where
  small := small
  acknowledged := by simp [start]
  sent := by simp [start]
  remaining := by simp [start]
  sentCount := by simp [start, count_replicate]
  earned := by
    intro i marked
    simp [start] at marked
  emptyEarned := by
    intro marked
    cases marked

/-- What is left to send for the first time: bytes, or the message itself when it is empty. -/
def unsent (m : OutboundMessage) : ℕ :=
  if m.message.body = [] then if m.emptySent || m.emptyAcknowledged then 0 else 1 else m.sent.count false

variable {m : OutboundMessage}

theorem Accounted.pendingSend_iff (accounted : m.Accounted) : m.pendingSend = true ↔ 0 < m.unsent := by
  unfold pendingSend unsent
  split_ifs with empty done
  · simp only [Bool.or_eq_true] at done
    rcases done with done | done <;> simp [done]
  · simp only [Bool.or_eq_true, not_or, Bool.not_eq_true] at done
    simp [done]
  · have total := m.sent.count_true_add_count_false
    rw [decide_eq_true_iff, accounted.sentCount, ← accounted.sent]
    omega

/-- Nothing is left to send for the first time. -/
def AllSent (m : OutboundMessage) : Prop :=
  if m.message.body = [] then m.emptySent = true ∨ m.emptyAcknowledged = true
  else ∀ i < m.message.body.length, m.sent.getD i false = true ∨ m.acknowledged.getD i false = true

theorem Accounted.allSent_iff (accounted : m.Accounted) : m.AllSent ↔ m.unsent = 0 := by
  unfold AllSent unsent
  split_ifs with empty done
  · simpa using done
  · simpa using done
  · rw [count_false_eq_zero, accounted.sent]
    constructor
    · intro all i below
      exact (all i below).elim id (accounted.earned i)
    · intro all i below
      exact .inl (all i below)

/-- A range a transmission may send: an empty message, or a run of bytes none of which is acknowledged. With
`onlyNew` nothing in it was sent before. -/
inductive Sendable (m : OutboundMessage) (onlyNew : Bool) (capacity : ℕ) : ℕ → ℕ → Prop
  | empty : m.message.body = [] → m.emptyAcknowledged = false → (onlyNew = true → m.emptySent = false) →
      Sendable m onlyNew capacity 0 0
  | range {start stop : ℕ} : start < stop → stop ≤ m.message.body.length → stop - start ≤ capacity →
      (∀ i, start ≤ i → i < stop → m.acknowledged.getD i false = false ∧
        (onlyNew = true → m.sent.getD i false = false)) →
      Sendable m onlyNew capacity start stop

variable {onlyNew : Bool} {capacity start stop : ℕ}

theorem Sendable.inside (sendable : m.Sendable onlyNew capacity start stop) :
    start ≤ stop ∧ stop ≤ m.message.body.length := by
  cases sendable with
  | empty _ _ _ => exact ⟨le_rfl, Nat.zero_le _⟩
  | range ordered inside _ _ => exact ⟨ordered.le, inside⟩

theorem wanted_length (accounted : m.Accounted) (onlyNew : Bool) :
    (m.wanted onlyNew).length = m.message.body.length := by
  simp [wanted, accounted.acknowledged, accounted.sent]

theorem wanted_getD (accounted : m.Accounted) {i : ℕ} (below : i < m.message.body.length) :
    (m.wanted onlyNew).getD i false = !(m.acknowledged.getD i false || (onlyNew && m.sent.getD i false)) := by
  have size := wanted_length accounted onlyNew
  have marks := accounted.acknowledged
  have sent := accounted.sent
  rw [getD_eq_getElem _ _ (by omega), getD_eq_getElem _ _ (by omega), getD_eq_getElem _ _ (by omega)]
  simp [wanted]

/-- Only bytes that are not wanted are skipped. -/
theorem skip_spec (accounted : m.Accounted) (onlyNew : Bool) (inside : start ≤ m.message.body.length) :
    start ≤ m.skip onlyNew start ∧ m.skip onlyNew start ≤ m.message.body.length ∧
      (∀ i, start ≤ i → i < m.skip onlyNew start → (m.wanted onlyNew).getD i false = false) ∧
      (m.skip onlyNew start < m.message.body.length → (m.wanted onlyNew).getD (m.skip onlyNew start) false = true) := by
  have rest : ((m.wanted onlyNew).drop start).length = m.message.body.length - start := by
    rw [length_drop, wanted_length accounted]
  have short : (((m.wanted onlyNew).drop start).takeWhile (!·)).length ≤ m.message.body.length - start := by
    rw [← rest]
    exact (takeWhile_sublist _).length_le
  unfold skip
  refine ⟨by omega, by omega, ?_, ?_⟩
  · intro i above below
    have early : i - start < (((m.wanted onlyNew).drop start).takeWhile (!·)).length := by omega
    have skipped := getD_of_lt_takeWhile false early
    rw [getD_drop_eq, show start + (i - start) = i by omega] at skipped
    simpa using skipped
  · intro below
    have left : (((m.wanted onlyNew).drop start).takeWhile (!·)).length < ((m.wanted onlyNew).drop start).length := by
      omega
    have stopped := getD_takeWhile_length false left
    rw [getD_drop_eq] at stopped
    simpa using stopped

/-- A run of wanted bytes is taken, at most `capacity` of them. -/
theorem extent_spec (accounted : m.Accounted) (inside : start < m.message.body.length) (positive : 0 < capacity)
    (first : (m.wanted onlyNew).getD start false = true) :
    start < m.extent onlyNew capacity start ∧ m.extent onlyNew capacity start ≤ m.message.body.length ∧
      m.extent onlyNew capacity start - start ≤ capacity ∧
      ∀ i, start ≤ i → i < m.extent onlyNew capacity start → (m.wanted onlyNew).getD i false = true := by
  have window : (((m.wanted onlyNew).drop start).take capacity).length =
      min capacity (m.message.body.length - start) := by
    rw [length_take, length_drop, wanted_length accounted]
  have short : ((((m.wanted onlyNew).drop start).take capacity).takeWhile id).length ≤
      min capacity (m.message.body.length - start) := by
    rw [← window]
    exact (takeWhile_sublist _).length_le
  have some : 0 < ((((m.wanted onlyNew).drop start).take capacity).takeWhile id).length := by
    by_contra none
    have left : ((((m.wanted onlyNew).drop start).take capacity).takeWhile id).length <
        (((m.wanted onlyNew).drop start).take capacity).length := by omega
    have stopped := getD_takeWhile_length false left
    rw [Nat.eq_zero_of_not_pos none, getD_take_of_lt positive, getD_drop_eq, Nat.add_zero, first] at stopped
    cases stopped
  unfold extent
  refine ⟨by omega, by omega, by omega, ?_⟩
  intro i above below
  have early : i - start < ((((m.wanted onlyNew).drop start).take capacity).takeWhile id).length := by omega
  have taken := getD_of_lt_takeWhile false early
  rwa [getD_take_of_lt (by omega), getD_drop_eq, show start + (i - start) = i by omega] at taken

/-- The run of wanted bytes found from `start` on may be sent. -/
theorem extent_sendable (accounted : m.Accounted) (positive : 0 < capacity)
    (inside : start ≤ m.message.body.length) (left : m.skip onlyNew start < m.message.body.length) :
    m.Sendable onlyNew capacity (m.skip onlyNew start) (m.extent onlyNew capacity (m.skip onlyNew start)) := by
  obtain ⟨-, -, -, first⟩ := skip_spec accounted onlyNew inside
  obtain ⟨some, most, short, wanted⟩ := extent_spec accounted left positive (first left)
  apply Sendable.range some most short
  intro i above below
  have here := wanted i above below
  rw [wanted_getD accounted (by omega)] at here
  simp only [Bool.not_or, Bool.and_eq_true, Bool.not_eq_true', Bool.not_and, Bool.or_eq_true] at here
  refine ⟨here.1, fun new => ?_⟩
  rcases here.2 with old | clear
  · rw [new] at old
    cases old
  · exact clear

/-! ### What sending a range does to a message -/

/-- The message has lost no mark, and its acknowledgements are the same. -/
structure Grows (m m' : OutboundMessage) : Prop where
  message : m'.message = m.message
  acknowledged : m'.acknowledged = m.acknowledged
  emptyAcknowledged : m'.emptyAcknowledged = m.emptyAcknowledged
  sent : ∀ i, m.sent.getD i false = true → m'.sent.getD i false = true
  emptySent : m.emptySent = true → m'.emptySent = true

theorem Grows.refl (m : OutboundMessage) : m.Grows m := ⟨rfl, rfl, rfl, fun _ => id, id⟩

theorem Grows.trans {m₁ m₂ m₃ : OutboundMessage} (first : m₁.Grows m₂) (second : m₂.Grows m₃) : m₁.Grows m₃ where
  message := second.message.trans first.message
  acknowledged := second.acknowledged.trans first.acknowledged
  emptyAcknowledged := second.emptyAcknowledged.trans first.emptyAcknowledged
  sent i marked := second.sent i (first.sent i marked)
  emptySent marked := second.emptySent (first.emptySent marked)

theorem Grows.allSent {m' : OutboundMessage} (grows : m.Grows m') (all : m.AllSent) : m'.AllSent := by
  unfold AllSent at *
  rw [grows.message, grows.acknowledged, grows.emptyAcknowledged]
  split_ifs at all ⊢ with blank
  · exact all.imp_left grows.emptySent
  · intro i below
    exact (all i below).imp_left (grows.sent i)

theorem noteSent_nonempty (nonempty : m.message.body ≠ []) (onlyNew : Bool) (start stop : ℕ) :
    ∃ resent, m.noteSent onlyNew start stop = { m with
      resent, sent := markRange m.sent start stop, sentCount := m.sentCount + clearIn m.sent start stop } := by
  cases onlyNew with
  | false => exact ⟨true, if_neg nonempty⟩
  | true => exact ⟨m.resent, if_neg nonempty⟩

theorem noteSent_empty (empty : m.message.body = []) (onlyNew : Bool) (start stop : ℕ) :
    ∃ resent, m.noteSent onlyNew start stop = { m with resent, emptySent := true } := by
  cases onlyNew with
  | false => exact ⟨true, if_pos empty⟩
  | true => exact ⟨m.resent, if_pos empty⟩

theorem noteSent_grows (m : OutboundMessage) (onlyNew : Bool) (start stop : ℕ) :
    m.Grows (m.noteSent onlyNew start stop) := by
  by_cases empty : m.message.body = []
  · obtain ⟨_, same⟩ := noteSent_empty empty onlyNew start stop
    exact same ▸ ⟨rfl, rfl, rfl, fun _ => id, fun _ => rfl⟩
  · obtain ⟨_, same⟩ := noteSent_nonempty empty onlyNew start stop
    exact same ▸ ⟨rfl, rfl, rfl, fun _ => markRange_mono, id⟩

@[simp] theorem noteSent_message (m : OutboundMessage) (onlyNew : Bool) (start stop : ℕ) :
    (m.noteSent onlyNew start stop).message = m.message := (noteSent_grows m onlyNew start stop).message

theorem Accounted.noteSent (accounted : m.Accounted) (ordered : start ≤ stop) (inside : stop ≤ m.message.body.length)
    (onlyNew : Bool) : (m.noteSent onlyNew start stop).Accounted := by
  by_cases empty : m.message.body = []
  · obtain ⟨_, same⟩ := noteSent_empty empty onlyNew start stop
    exact same ▸ { accounted with emptyEarned := fun _ => rfl }
  · obtain ⟨_, same⟩ := noteSent_nonempty empty onlyNew start stop
    have within : stop ≤ m.sent.length := accounted.sent ▸ inside
    exact same ▸ { accounted with
      sent := (markRange_length _ _ _).trans accounted.sent
      sentCount := by rw [accounted.sentCount, markRange_count_true ordered within]
      earned := fun i marked => markRange_mono (accounted.earned i marked) }

/-- A new range makes less left to send; no range makes more. -/
theorem Accounted.unsent_noteSent (accounted : m.Accounted) (sendable : m.Sendable onlyNew capacity start stop) :
    (m.noteSent onlyNew start stop).unsent + (if onlyNew then 1 else 0) ≤ m.unsent := by
  unfold unsent
  rw [noteSent_message]
  cases sendable with
  | empty blank unacknowledged new =>
    obtain ⟨_, same⟩ := noteSent_empty blank onlyNew 0 0
    rw [if_pos blank, if_pos blank, same, unacknowledged]
    cases onlyNew with
    | false => simp
    | true => simp [new rfl]
  | range ordered inside short clear =>
    have nonempty : m.message.body ≠ [] := by
      intro empty
      rw [empty, length_nil] at inside
      omega
    have within : stop ≤ m.sent.length := accounted.sent ▸ inside
    obtain ⟨_, same⟩ := noteSent_nonempty nonempty onlyNew start stop
    have counted := markRange_count_false ordered.le within
    rw [if_neg nonempty, if_neg nonempty, same]
    cases onlyNew with
    | false => simp; omega
    | true =>
      have fresh := clearIn_of_clear within fun i above below => (clear i above below).2 rfl
      simp
      omega

/-! ### What an acknowledgement does to a message -/

theorem Accounted.noteAcknowledged (accounted : m.Accounted) (ordered : start ≤ stop)
    (inside : stop ≤ m.message.body.length) (carried : ∀ i, start ≤ i → i < stop → m.sent.getD i false = true)
    (emptyCarried : m.message.body = [] → m.emptySent = true) : (m.noteAcknowledged start stop).Accounted where
  small := accounted.small
  acknowledged := by
    show (markRange m.acknowledged start stop).length = _
    rw [markRange_length]
    exact accounted.acknowledged
  sent := accounted.sent
  remaining := by
    have counted := markRange_count_false ordered (accounted.acknowledged ▸ inside : stop ≤ m.acknowledged.length)
    show m.remaining - clearIn m.acknowledged start stop = (markRange m.acknowledged start stop).count false
    rw [accounted.remaining]
    omega
  sentCount := accounted.sentCount
  earned := by
    intro i marked
    change (markRange m.acknowledged start stop).getD i false = true at marked
    show m.sent.getD i false = true
    by_cases below : i < m.acknowledged.length
    · rw [markRange_getD below, Bool.or_eq_true] at marked
      rcases marked with earlier | now
      · exact accounted.earned i earlier
      · simp only [Bool.and_eq_true, decide_eq_true_eq] at now
        exact carried i now.1 now.2
    · rw [getD_eq_default _ _ (by simpa using not_lt.mp below)] at marked
      cases marked
  emptyEarned := by
    intro marked
    change (m.emptyAcknowledged || m.message.body.isEmpty) = true at marked
    rw [Bool.or_eq_true, List.isEmpty_iff] at marked
    exact marked.elim accounted.emptyEarned emptyCarried

/-- An acknowledgement does not change what is left to send. -/
private theorem unsent_noteAcknowledged (emptyCarried : m.message.body = [] → m.emptySent = true) :
    (m.noteAcknowledged start stop).unsent = m.unsent := by
  unfold unsent
  show (if m.message.body = [] then _ else m.sent.count false) = _
  split_ifs with empty marked <;> simp_all [OutboundMessage.noteAcknowledged]

end OutboundMessage

/-! ## Flights -/

namespace Flight

/-- A record that is waiting for its acknowledgement carried a range of a message, which was sent. -/
structure Carried (m : OutboundMessage) (part : SentFragment) : Prop where
  ordered : part.start ≤ part.stop
  inside : part.stop ≤ m.message.body.length
  bytes : ∀ i, part.start ≤ i → i < part.stop → m.sent.getD i false = true
  empty : m.message.body = [] → m.emptySent = true

theorem Carried.grows {m m' : OutboundMessage} {part : SentFragment} (carried : Carried m part) (grows : m.Grows m') :
    Carried m' part where
  ordered := carried.ordered
  inside := grows.message ▸ carried.inside
  bytes i above below := grows.sent i (carried.bytes i above below)
  empty blank := grows.emptySent (carried.empty (grows.message ▸ blank))

/-- The books are right. -/
structure Accounted (f : Flight) : Prop where
  messages : ∀ (i : ℕ) (m : OutboundMessage), f.messages[i]? = some m → m.Accounted
  records : ∀ number part, f.sent.lookup number = some part → ∃ m, f.messages[part.message]? = some m ∧ Carried m part
  finished : f.complete = true → f.messages = []
  interval : f.interval ≤ maximumRetransmit
  retries : f.retries ≤ maxFlightRetries

/-- What is left to send for the first time. -/
def unsent (f : Flight) : ℕ := (f.messages.map OutboundMessage.unsent).sum

variable {f f' : Flight}

theorem Accounted.mem (accounted : f.Accounted) {m : OutboundMessage} (member : m ∈ f.messages) : m.Accounted := by
  obtain ⟨i, below, rfl⟩ := mem_iff_getElem.mp member
  exact accounted.messages i _ (getElem?_eq_getElem below)

theorem Accounted.allSent_iff (accounted : f.Accounted) : (∀ m ∈ f.messages, m.AllSent) ↔ f.unsent = 0 := by
  unfold unsent
  rw [sum_eq_zero_iff]
  constructor
  · intro all n member
    obtain ⟨m, listed, rfl⟩ := mem_map.mp member
    exact (accounted.mem listed).allSent_iff.mp (all m listed)
  · intro all m listed
    exact (accounted.mem listed).allSent_iff.mpr (all _ (mem_map_of_mem listed))

theorem Accounted.pendingSend_iff (accounted : f.Accounted) : f.pendingSend = true ↔ 0 < f.unsent := by
  rw [Nat.pos_iff_ne_zero, ne_eq, ← accounted.allSent_iff, not_forall]
  unfold pendingSend
  rw [any_eq_true]
  constructor
  · rintro ⟨m, listed, pending⟩
    have some := (accounted.mem listed).pendingSend_iff.mp pending
    refine ⟨m, fun all => ?_⟩
    have none := (accounted.mem listed).allSent_iff.mp (all listed)
    omega
  · rintro ⟨m, left⟩
    obtain ⟨listed, left⟩ := not_forall.mp left
    refine ⟨m, listed, (accounted.mem listed).pendingSend_iff.mpr ?_⟩
    rw [(accounted.mem listed).allSent_iff] at left
    omega

theorem newFlight_accounted {messages : List HandshakeMessage} {interval : Duration}
    (started : newFlight messages interval = .ok f) : f.Accounted := by
  unfold newFlight at started
  split at started
  · cases started
  split at started
  · cases started
  rename_i large
  cases started
  rw [Bool.or_eq_true, not_or, any_eq_true, not_exists] at large
  constructor
  · intro i m found
    rw [getElem?_map, Option.map_eq_some_iff] at found
    obtain ⟨message, listed, rfl⟩ := found
    apply start_accounted
    by_contra big
    exact large.1 message ⟨mem_of_getElem? listed, by simpa using big⟩
  · intro number part found
    cases found
  · intro complete
    cases complete
  · exact min_le_right _ _
  · exact Nat.zero_le _

/-! ### Sending -/

/-- The messages have lost no mark, none has come or gone, and no retry is counted. -/
structure Grows (f f' : Flight) : Prop where
  length : f'.messages.length = f.messages.length
  messages : ∀ (i : ℕ) (m : OutboundMessage), f.messages[i]? = some m → ∃ m', f'.messages[i]? = some m' ∧ m.Grows m'
  retries : f'.retries = f.retries

theorem Grows.refl (f : Flight) : f.Grows f := ⟨rfl, fun _ m found => ⟨m, found, .refl m⟩, rfl⟩

theorem Grows.trans {f₁ f₂ f₃ : Flight} (first : f₁.Grows f₂) (second : f₂.Grows f₃) : f₁.Grows f₃ where
  length := second.length.trans first.length
  messages i m found := by
    obtain ⟨m', found', grows⟩ := first.messages i m found
    obtain ⟨m'', found'', later⟩ := second.messages i m' found'
    exact ⟨m'', found'', grows.trans later⟩
  retries := second.retries.trans first.retries

section Record

variable {now : Time} {onlyNew : Bool} {capacity index start stop : ℕ} {number : RecordNumber} {m : OutboundMessage}

theorem record_getElem? (f : Flight) (now : Time) (onlyNew : Bool) (index start stop : ℕ)
    (number : RecordNumber) (i : ℕ) :
    (f.record now onlyNew index start stop number).messages[i]? =
      if index = i then (f.messages[i]?).map fun m => m.noteSent onlyNew start stop else f.messages[i]? := by
  show (f.messages.modify index _)[i]? = _
  rw [getElem?_modify]
  split_ifs with same
  · rfl
  · simp

theorem record_grows (f : Flight) (now : Time) (onlyNew : Bool) (index start stop : ℕ) (number : RecordNumber) :
    f.Grows (f.record now onlyNew index start stop number) where
  length := length_modify _ _ _
  messages := by
    intro i m found
    rw [record_getElem?, found]
    split_ifs
    · exact ⟨_, rfl, m.noteSent_grows onlyNew start stop⟩
    · exact ⟨m, rfl, .refl m⟩
  retries := rfl

theorem Accounted.record (accounted : f.Accounted) (found : f.messages[index]? = some m)
    (sendable : m.Sendable onlyNew capacity start stop) :
    (f.record now onlyNew index start stop number).Accounted := by
  obtain ⟨ordered, inside⟩ := sendable.inside
  have grows := record_grows f now onlyNew index start stop number
  constructor
  · intro i m' found'
    rw [record_getElem?] at found'
    split_ifs at found' with same
    · subst same
      rw [found] at found'
      cases found'
      exact (accounted.messages _ m found).noteSent ordered inside onlyNew
    · exact accounted.messages i m' found'
  · intro other part found'
    change (f.sent.insert number ⟨index, start, stop, now⟩).lookup other = some part at found'
    rw [AList.lookup_insert_eq] at found'
    split_ifs at found' with same
    · cases found'
      refine ⟨m.noteSent onlyNew start stop, by rw [record_getElem?, if_pos rfl, found]; rfl, ordered, ?_, ?_, ?_⟩
      · rw [noteSent_message]
        exact inside
      · intro i above below
        have marks := (accounted.messages _ m found).sent
        have nonempty : m.message.body ≠ [] := by
          intro empty
          rw [empty, length_nil] at inside
          exact absurd below (by show ¬i < stop; omega)
        obtain ⟨_, same⟩ := noteSent_nonempty nonempty onlyNew start stop
        rw [same]
        change start ≤ i at above
        change i < stop at below
        rw [markRange_getD (by omega)]
        simp [above, below]
      · intro empty
        rw [noteSent_message] at empty
        obtain ⟨_, same⟩ := noteSent_empty empty onlyNew start stop
        rw [same]
    · obtain ⟨m₀, present, carried⟩ := accounted.records other part found'
      obtain ⟨m₁, present', grown⟩ := grows.messages _ _ present
      exact ⟨m₁, present', carried.grows grown⟩
  · intro complete
    have none := accounted.finished complete
    rw [none] at found
    simp at found
  · exact accounted.interval
  · exact accounted.retries

theorem Accounted.unsent_record (accounted : f.Accounted) (found : f.messages[index]? = some m)
    (sendable : m.Sendable onlyNew capacity start stop) :
    (f.record now onlyNew index start stop number).unsent + (if onlyNew then 1 else 0) ≤ f.unsent := by
  have moved := sum_map_modify (w := OutboundMessage.unsent) found fun m => m.noteSent onlyNew start stop
  have less := (accounted.messages _ m found).unsent_noteSent sendable
  show ((f.messages.modify index _).map _).sum + _ ≤ (f.messages.map _).sum
  omega

end Record

/-! ### Acknowledgements and timers -/

/-- An acknowledgement touches only the marks of acknowledged bytes and the records that wait for one. -/
structure Acknowledges (f f' : Flight) : Prop where
  accounted : f'.Accounted
  unsent : f'.unsent = f.unsent
  same : { f' with messages := f.messages, sent := f.sent } = f

theorem Accounted.acknowledgeRecord (accounted : f.Accounted) (authenticated : Bool) (now : Time) (progress : Bool)
    (rtt : Duration) (number : RecordNumber) :
    Acknowledges f (acknowledgeRecord authenticated now (f, progress, rtt) number).1 := by
  have unchanged : Acknowledges f f := ⟨accounted, rfl, rfl⟩
  unfold Flight.acknowledgeRecord
  dsimp only
  split
  · exact unchanged
  rename_i part waiting
  split_ifs with ignored
  · exact unchanged
  split
  · exact unchanged
  rename_i m found
  obtain ⟨m', found', carried⟩ := accounted.records number part waiting
  rw [found] at found'
  cases found'
  obtain ⟨below, -⟩ := List.getElem?_eq_some_iff.mp found
  have getElem : ∀ i, (f.messages.set part.message (m.noteAcknowledged part.start part.stop))[i]? =
      if part.message = i then some (m.noteAcknowledged part.start part.stop) else f.messages[i]? := by
    intro i
    rw [getElem?_set, if_pos below]
  refine ⟨?_, ?_, rfl⟩
  · constructor
    · intro i m' found'
      change (f.messages.set part.message (m.noteAcknowledged part.start part.stop))[i]? = some m' at found'
      rw [getElem] at found'
      split_ifs at found'
      · cases found'
        exact (accounted.messages _ m found).noteAcknowledged carried.ordered carried.inside carried.bytes carried.empty
      · exact accounted.messages i m' found'
    · intro other later waiting'
      change (f.sent.erase number).lookup other = some later at waiting'
      rw [AList.lookup_erase_eq] at waiting'
      split_ifs at waiting' with erased
      obtain ⟨m₀, found₀, carried₀⟩ := accounted.records other later waiting'
      show ∃ m', (f.messages.set part.message (m.noteAcknowledged part.start part.stop))[later.message]? = some m' ∧ _
      rw [getElem]
      split_ifs with same
      · rw [← same, found] at found₀
        cases found₀
        exact ⟨_, rfl, carried₀.ordered, carried₀.inside, carried₀.bytes, carried₀.empty⟩
      · exact ⟨m₀, found₀, carried₀⟩
    · intro complete
      rw [accounted.finished complete] at found
      simp at found
    · exact accounted.interval
    · exact accounted.retries
  · have moved := sum_map_modify (w := OutboundMessage.unsent) found fun _ => m.noteAcknowledged part.start part.stop
    rw [← set_eq_modify, unsent_noteAcknowledged carried.empty] at moved
    exact Nat.add_right_cancel moved

theorem Acknowledges.trans {f₁ f₂ f₃ : Flight} (first : Acknowledges f₁ f₂) (second : Acknowledges f₂ f₃) :
    Acknowledges f₁ f₃ where
  accounted := second.accounted
  unsent := second.unsent.trans first.unsent
  same := by
    rw [← first.same, ← second.same]

theorem Accounted.acknowledgeRecords (accounted : f.Accounted) (authenticated : Bool) (now : Time)
    (records : List RecordNumber) (progress : Bool) (rtt : Duration) :
    Acknowledges f (records.foldl (Flight.acknowledgeRecord authenticated now) (f, progress, rtt)).1 := by
  induction records generalizing f progress rtt with
  | nil => exact ⟨accounted, rfl, rfl⟩
  | cons number rest ih =>
    have first := accounted.acknowledgeRecord authenticated now progress rtt number
    rw [foldl_cons]
    generalize Flight.acknowledgeRecord authenticated now (f, progress, rtt) number = state at first ⊢
    obtain ⟨f', progress', rtt'⟩ := state
    exact first.trans (ih first.accounted progress' rtt')

theorem Accounted.finish (accounted : f.Accounted) : f.finish.Accounted where
  messages := by
    intro i m found
    simp [Flight.finish] at found
  records := by
    intro number part found
    cases found
  finished _ := rfl
  interval := accounted.interval
  retries := accounted.retries

/-- What an acknowledgement leaves: only progress touches the retries, and no acknowledgement touches the
interval or what is left to send. -/
structure Acknowledged (f : Flight) (progress : Bool) (f' : Flight) : Prop where
  accounted : f'.Accounted
  interval : f'.interval = f.interval
  retries : f'.retries = if progress then 0 else f.retries
  unsent : f'.unsent ≤ f.unsent
  pending : f'.complete = false → f'.unsent = f.unsent ∧
    { f' with
      messages := f.messages
      sent := f.sent
      retries := f.retries
      ackedSinceSend := f.ackedSinceSend } = f

theorem Acknowledged.finish {progress : Bool} (acknowledged : Acknowledged f progress f') :
    Acknowledged f progress f'.finish where
  accounted := acknowledged.accounted.finish
  interval := acknowledged.interval
  retries := acknowledged.retries
  unsent := Nat.zero_le _
  pending := by
    intro pending
    cases pending

theorem Accounted.acknowledge (accounted : f.Accounted) (records : List RecordNumber) (authenticated : Bool)
    (now : Time) :
    Acknowledged f (f.acknowledge records authenticated now).1.1 (f.acknowledge records authenticated now).2 := by
  unfold Flight.acknowledge
  split_ifs with complete
  · exact ⟨accounted, rfl, rfl, le_rfl, fun _ => ⟨rfl, rfl⟩⟩
  have folded := accounted.acknowledgeRecords authenticated now records false 0
  generalize records.foldl (Flight.acknowledgeRecord authenticated now) (f, false, 0) = state at folded ⊢
  obtain ⟨f', progress, rtt⟩ := state
  obtain ⟨kept, left, same⟩ := folded
  dsimp only at kept left same ⊢
  have fields := congrArg (fun f => (f.interval, f.retries, f.ackedSinceSend)) same
  simp only [Prod.mk.injEq] at fields
  obtain ⟨interval, retries, acked⟩ := fields
  have told : Acknowledged f progress (if progress then { f' with retries := 0, ackedSinceSend := true } else f') := by
    cases progress with
    | false =>
      show Acknowledged f false f'
      refine ⟨kept, interval, retries, left.le, fun _ => ⟨left, ?_⟩⟩
      rw [← retries, ← acked]
      exact same
    | true =>
      show Acknowledged f true { f' with retries := 0, ackedSinceSend := true }
      refine ⟨⟨kept.messages, kept.records, kept.finished, kept.interval, Nat.zero_le _⟩, interval, rfl, left.le,
        fun _ => ⟨left, ?_⟩⟩
      rw [← retries, ← acked]
      exact same
  generalize (if progress then { f' with retries := 0, ackedSinceSend := true } else f') = f'' at told ⊢
  split_ifs
  · exact told.finish
  · exact told

/-- What a timer leaves. -/
structure Expired (f : Flight) (answer : Except Err Bool) (f' : Flight) : Prop where
  accounted : f'.Accounted
  unsent : f'.unsent = f.unsent
  complete : f'.complete = f.complete
  -- a retransmission counts a retry, and after the last one the flight has timed out
  retries : answer = .ok true → f.unsent = 0 → f.retries ≠ maxFlightRetries ∧ f'.retries = f.retries + 1
  fresh : answer = .ok true → 0 < f.unsent → f'.retries = f.retries
  quiet : answer ≠ .ok true → f' = f
  timeout : ∀ e, answer = .error e → e = .handshakeTimeout

theorem Accounted.expire (accounted : f.Accounted) (now : Time) : Expired f (f.expire now).1 (f.expire now).2 := by
  have pending := accounted.pendingSend_iff
  unfold Flight.expire
  split_ifs with early waiting last
  · exact ⟨accounted, rfl, rfl, by simp, by simp, fun _ => rfl, by simp⟩
  · have some := pending.mp waiting
    refine ⟨{ accounted with }, rfl, rfl, ?_, fun _ _ => rfl, fun other => absurd rfl other, by simp⟩
    intro _ none
    omega
  · refine ⟨accounted, rfl, rfl, by simp, by simp, fun _ => rfl, ?_⟩
    intro e failed
    cases failed
    rfl
  · have fewer : f.retries + 1 ≤ maxFlightRetries := Nat.lt_of_le_of_ne accounted.retries last
    refine ⟨⟨accounted.messages, accounted.records, accounted.finished, min_le_right _ _, fewer⟩, rfl, rfl,
      fun _ _ => ⟨last, rfl⟩, ?_, fun other => absurd rfl other, by simp⟩
    intro _ some
    exact absurd (pending.mpr some) waiting

end Flight

end Socat.Dtls13
