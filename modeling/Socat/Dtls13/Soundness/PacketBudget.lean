import Socat.Dtls13.Model.Inbox
import Socat.Machine.Reservations

/-! # The packet budget is conserved

An association's books are right at every step: what it has reserved and not released is what stands in its queue, in
the hand of its driver, and in a call of `deliver` between its reservation and the queue. Whether `incomingBytes`
agrees depends on how far the calls under way are; where there are none, it does. An association that is torn down
has taken every packet out, because no call of `deliver` passes its checks once `shutdown` has returned.
-/

namespace Socat.Dtls13.Inbox

open Machine List Function

/-- The bytes in a queue. -/
def size (packets : List Bytes) : ℤ := ((packets.map List.length).sum : ℕ)

@[simp] theorem size_nil : size [] = 0 := rfl

private theorem size_cons (packet : Bytes) (packets : List Bytes) :
    size (packet :: packets) = packet.length + size packets := by
  simp [size]

private theorem size_append_singleton (packets : List Bytes) (packet : Bytes) :
    size (packets ++ [packet]) = size packets + packet.length := by
  simp [size]

/-- The packet the driver has to release, as far as `incomingBytes` still counts it. -/
def Hand.counted : Hand → ℤ
  | .dequeued packet | .releasing packet .called | .releasing packet .locked => packet.length
  | _ => 0

/-- The packet the driver has to release, as far as the budget still counts it. -/
def Hand.shares : Hand → List ℕ
  | .empty => []
  | .dequeued packet | .releasing packet _ => [packet.length]

/-- The driver is in `releasePacket`. -/
def Hand.releases : Hand → Bool
  | .releasing _ _ => true
  | _ => false

/-- The driver holds `mu`. -/
def Hand.locks : Hand → Bool
  | .releasing _ .locked | .releasing _ .lowered => true
  | _ => false

/-- The call that holds `mu` is one of `deliver`. -/
def delivers : Option Holder → Bool
  | some (.deliver _ _) => true
  | _ => false

/-- The packet of the call that holds `mu`, when it is in the queue and not in `incomingBytes`. -/
def ahead : Option Holder → ℤ
  | some (.deliver data .counting) => data.length
  | _ => 0

/-- The packet of the call that holds `mu`, when it has its reservation and is not in the queue. -/
def transit : Option Holder → List ℕ
  | some (.deliver data .sending) | some (.deliver data .refunding) => [data.length]
  | _ => []

/-- The call that holds `mu` is one of `deliver` past its first checks. -/
def admits : Option Holder → Bool
  | some (.deliver _ .checking) | some (.deliver _ .unlocking) => false
  | some (.deliver _ _) => true
  | _ => false

theorem still_of_idle {mu : Option Holder} (idle : delivers mu = false ∨ admits mu = false) :
    ahead mu = 0 ∧ transit mu = [] := by
  cases mu with
  | none => exact ⟨rfl, rfl⟩
  | some call =>
    cases call with
    | deliver data stage => cases stage <;> first | exact ⟨rfl, rfl⟩ | rcases idle with idle | idle <;> cases idle
    | releasePacket | shutdown => exact ⟨rfl, rfl⟩

variable {data : Bytes} {stage : DeliverStage}

namespace Association

/-- What the association has of the budget. -/
def held (a : Association) : Multiset ℕ := (transit a.mu ++ a.hand.shares ++ a.incoming.map List.length : List ℕ)

/-- No call of `deliver` or `releasePacket` is under way. -/
def quiet (a : Association) : Bool := !delivers a.mu && !a.hand.releases

/-- The packet the driver has dequeued. -/
def inHand (a : Association) : ℤ :=
  match a.hand with
  | .empty => 0
  | .dequeued packet | .releasing packet _ => packet.length

structure Sound (limit : ℤ) (a : Association) : Prop where
  bytes : a.incomingBytes + ahead a.mu = size a.incoming + a.hand.counted
  fits : ∀ data used, a.mu = some (.deliver data (.swapping used)) → (data.length : ℤ) ≤ limit - used
  driver : a.mu = some .releasePacket ↔ a.hand.locks = true
  stopper : a.mu = some .shutdown ↔ a.shutdown = .locked ∨ a.shutdown = .failed
  err : a.err = true ↔ a.shutdown = .failed ∨ a.shutdown = .returned
  live : admits a.mu = true → a.err = false
  late : a.life = .draining ∨ a.life = .closed → a.shutdown = .returned
  closed : a.life = .closed → a.incoming = [] ∧ a.hand = .empty

variable {a a' : Association} {b b' : MemoryBudget} {limit : ℤ}

private theorem sound_default (limit : ℤ) : Sound limit {} where
  bytes := rfl
  fits := nofun
  driver := by decide
  stopper := by decide
  err := by decide
  live := nofun
  late := by decide
  closed := nofun

/-- A closed association fails every call of `deliver`. -/
theorem Sound.failed_of_late (sound : a.Sound limit) (late : a.life = .draining ∨ a.life = .closed) : a.err = true :=
  sound.err.mpr (.inr (sound.late late))

/-- A call of `deliver` goes on: it changes the queue and the counts, and may give `mu` up. -/
theorem Sound.deliver (sound : a.Sound limit) (holds : a.mu = some (.deliver data stage))
    {mu : Option Holder} (next : mu = none ∨ ∃ stage, mu = some (.deliver data stage))
    {incoming : List Bytes} {incomingBytes : ℤ} {reserved released : List ℕ}
    (bytes : incomingBytes + ahead mu = size incoming + a.hand.counted)
    (fits : ∀ used, mu = some (.deliver data (.swapping used)) → (data.length : ℤ) ≤ limit - used)
    (live : admits mu = true → a.err = false) (kept : a.err = true → incoming = a.incoming := by exact fun _ => rfl) :
    Sound limit { a with mu, incoming, incomingBytes, reserved, released } := by
  have unlocked : a.hand.locks = false := by
    rw [← Bool.not_eq_true, ← sound.driver, holds]
    simp
  have elsewhere : ¬(a.shutdown = .locked ∨ a.shutdown = .failed) := by
    rw [← sound.stopper, holds]
    simp
  refine ⟨bytes, ?_, ?_, ?_, sound.err, live, sound.late, fun closed => ?_⟩
  · rintro data' used rfl
    obtain none | ⟨stage, same⟩ := next
    · cases none
    · cases same
      exact fits used rfl
  · rw [unlocked]
    obtain rfl | ⟨stage, rfl⟩ := next <;> simp
  · refine iff_of_false ?_ elsewhere
    obtain rfl | ⟨stage, rfl⟩ := next <;> simp
  · obtain ⟨none, hand⟩ := sound.closed closed
    exact ⟨(kept (sound.failed_of_late (.inr closed))).trans none, hand⟩

/-- A step takes one share of the budget, gives one back, or leaves the books alone. -/
inductive Books (b : MemoryBudget) (a : Association) : MemoryBudget → Association → Prop
  | keep {a' : Association} (held : a'.held = a.held := by rfl) (reserved : a'.reserved = a.reserved := by rfl)
      (released : a'.released = a.released := by rfl) : Books b a b a'
  | reserve {a' : Association} (n : ℕ) (room : (n : ℤ) ≤ b.limit - b.used) (held : a'.held = n ::ₘ a.held)
      (reserved : a'.reserved = n :: a.reserved := by rfl) (released : a'.released = a.released := by rfl) :
      Books b a { b with used := b.used + n } a'
  | release {a' : Association} (n : ℕ) (held : a.held = n ::ₘ a'.held) (reserved : a'.reserved = a.reserved := by rfl)
      (released : a'.released = n :: a.released := by rfl) : Books b a { b with used := b.used - n } a'

private theorem proceed_keeps (sound : a.Sound b.limit) (holds : a.mu = some (.deliver data stage)) :
    (a.proceed b data stage).2.Sound b.limit ∧ Books b a (a.proceed b data stage).1 (a.proceed b data stage).2 := by
  have bytes := sound.bytes
  have live := sound.live
  rw [holds] at bytes live
  cases stage with
  | checking =>
    simp only [proceed]
    split_ifs with refused
    · exact ⟨sound.deliver holds (.inr ⟨_, rfl⟩) bytes nofun nofun, .keep (by simp [held, holds, transit])⟩
    · refine ⟨sound.deliver holds (.inr ⟨_, rfl⟩) bytes nofun (fun _ => ?_), .keep (by simp [held, holds, transit])⟩
      simpa using fun failed => refused (.inl failed)
  | loading =>
    simp only [proceed]
    split_ifs with full
    · exact ⟨sound.deliver holds (.inr ⟨_, rfl⟩) bytes nofun nofun, .keep (by simp [held, holds, transit])⟩
    · refine ⟨sound.deliver holds (.inr ⟨_, rfl⟩) bytes ?_ (fun _ => live rfl), .keep (by simp [held, holds, transit])⟩
      rintro used ⟨⟩
      exact not_lt.mp full
  | swapping used =>
    simp only [proceed]
    split_ifs with current
    · refine ⟨sound.deliver holds (.inr ⟨_, rfl⟩) bytes nofun (fun _ => live rfl), ?_⟩
      rw [← current]
      exact .reserve data.length (current ▸ sound.fits data used holds) (by simp [held, holds, transit])
    · exact ⟨sound.deliver holds (.inr ⟨_, rfl⟩) bytes nofun (fun _ => live rfl),
        .keep (by simp [held, holds, transit])⟩
  | sending =>
    simp only [proceed]
    split_ifs
    · refine ⟨sound.deliver holds (.inr ⟨_, rfl⟩) ?_ nofun (fun _ => live rfl) fun failed => ?_, .keep ?_⟩
      · rw [size_append_singleton]
        simp only [ahead] at bytes ⊢
        omega
      · exact absurd (live rfl) (by simp [failed])
      · simp only [held, holds, transit, nil_append, map_append, map_cons, map_nil, ← append_assoc]
        exact Multiset.coe_eq_coe.mpr (perm_append_singleton _ _)
    · exact ⟨sound.deliver holds (.inr ⟨_, rfl⟩) bytes nofun (fun _ => live rfl),
        .keep (by simp [held, holds, transit])⟩
  | counting =>
    refine ⟨sound.deliver holds (.inr ⟨_, rfl⟩) ?_ nofun nofun, .keep (by simp [held, holds, transit, proceed])⟩
    simp only [ahead] at bytes ⊢
    omega
  | refunding =>
    exact ⟨sound.deliver holds (.inr ⟨_, rfl⟩) bytes nofun nofun,
      .release data.length (by simp [held, holds, transit, proceed])⟩
  | unlocking =>
    exact ⟨sound.deliver holds (.inl rfl) bytes nofun nofun, .keep (by simp [held, holds, transit, proceed])⟩

private theorem stepShutdown_keeps (sound : a.Sound limit) (taken : a.stepShutdown a.shutdown = some a') :
    a'.Sound limit ∧ Books b a b a' := by
  have stopper := sound.stopper
  have err := sound.err
  have late := sound.late
  cases stage : a.shutdown with
  | uncalled =>
    rw [stage] at taken stopper err late
    cases taken
    refine ⟨?_, .keep⟩
    exact { sound with
      stopper := by simpa using stopper
      err := by simpa using err
      late := fun stopped => absurd (late stopped) (by simp) }
  | called =>
    rw [stage] at taken stopper err late
    obtain ⟨free, rfl⟩ := guarded taken
    have bytes := sound.bytes
    have driver := sound.driver
    rw [free] at bytes driver
    exact ⟨⟨bytes, nofun, by simpa using driver, by simp, by simpa using err, nofun,
      fun stopped => absurd (late stopped) (by simp), sound.closed⟩, .keep (by simp [held, free, transit])⟩
  | locked =>
    rw [stage] at taken stopper err late
    cases taken
    have holds : a.mu = some .shutdown := by simpa using stopper
    refine ⟨?_, .keep⟩
    exact { sound with
      stopper := by simpa using stopper
      err := by simp
      live := by rw [holds]; nofun
      late := fun stopped => absurd (late stopped) (by simp) }
  | failed =>
    rw [stage] at taken stopper err late
    cases taken
    have holds : a.mu = some .shutdown := by simpa using stopper
    have bytes := sound.bytes
    have driver := sound.driver
    rw [holds] at bytes driver
    exact ⟨⟨bytes, nofun, by simpa using driver, by simp, by simpa using err, nofun, fun _ => rfl, sound.closed⟩,
      .keep (by simp [held, holds, transit])⟩
  | returned =>
    rw [stage] at taken
    cases taken

private theorem stepRelease_keeps (sound : a.Sound limit) (taken : a.stepRelease b a.hand = some (b', a')) :
    a'.Sound limit ∧ Books b a b' a' := by
  have bytes := sound.bytes
  have driver := sound.driver
  cases hand : a.hand with
  | empty =>
    rw [hand] at taken
    cases taken
  | dequeued packet =>
    rw [hand] at taken bytes driver
    cases taken
    refine ⟨?_, .keep (by simp [held, hand, Hand.shares])⟩
    exact { sound with
      bytes
      driver
      closed := fun closed => absurd (sound.closed closed).2 (by simp [hand]) }
  | releasing packet stage =>
    have unclosed : a.life ≠ .closed := fun closed => absurd (sound.closed closed).2 (by simp [hand])
    have stopper := sound.stopper
    rw [hand] at bytes driver
    cases stage with
    | called =>
      rw [hand, stepRelease] at taken
      split_ifs at taken with free
      cases taken
      rw [free] at bytes stopper
      exact ⟨⟨bytes, nofun, by simp [Hand.locks], by simpa using stopper, sound.err, nofun, sound.late,
        fun closed => absurd closed unclosed⟩, .keep (by simp [held, hand, free, transit, Hand.shares])⟩
    | locked =>
      rw [hand] at taken
      cases taken
      refine ⟨?_, .keep (by simp [held, hand, Hand.shares])⟩
      exact { sound with
        bytes := by
          simp only [Hand.counted] at bytes ⊢
          omega
        driver
        closed := fun closed => absurd closed unclosed }
    | lowered =>
      rw [hand] at taken
      cases taken
      have holds : a.mu = some .releasePacket := by simpa [Hand.locks] using driver
      rw [holds] at bytes stopper
      exact ⟨⟨bytes, nofun, by simp [Hand.locks], by simpa using stopper, sound.err, nofun, sound.late,
        fun closed => absurd closed unclosed⟩, .keep (by simp [held, hand, holds, transit, Hand.shares])⟩
    | unlocked =>
      rw [hand] at taken
      cases taken
      constructor
      · exact { sound with
          bytes
          driver
          closed := fun closed => absurd closed unclosed }
      · refine .release packet.length ?_
        simp only [held, hand, Hand.shares, append_nil, append_assoc]
        exact Multiset.coe_eq_coe.mpr perm_middle

/-- Every step of an association keeps it sound. -/
private theorem step_keeps {action : Action} (sound : a.Sound b.limit) (taken : a.step b action = some (b', a')) :
    a'.Sound b.limit ∧ Books b a b' a' := by
  cases action with
  | deliver data =>
    obtain ⟨free, same⟩ := guarded taken
    cases same
    have bytes := sound.bytes
    have driver := sound.driver
    have stopper := sound.stopper
    rw [free] at bytes driver stopper
    refine ⟨?_, .keep (by simp [held, free, transit])⟩
    exact { sound with
      bytes
      fits := nofun
      driver := by simpa using driver
      stopper := by simpa using stopper
      live := nofun }
  | proceed =>
    simp only [step] at taken
    split at taken
    · rename_i data stage holds
      have keeps := proceed_keeps sound holds
      rwa [Option.some.inj taken] at keeps
    · cases taken
  | shutdown =>
    obtain ⟨later, taken, same⟩ := Option.map_eq_some_iff.mp taken
    cases same
    exact stepShutdown_keeps sound taken
  | dequeue =>
    rw [step] at taken
    split_ifs at taken with free
    obtain ⟨empty, running⟩ := free
    have bytes := sound.bytes
    have driver := sound.driver
    rw [empty] at bytes driver
    split at taken
    · cases taken
    · rename_i packet rest queue
      cases taken
      rw [queue, size_cons] at bytes
      constructor
      · exact { sound with
          bytes := by
            simp only [Hand.counted] at bytes ⊢
            omega
          driver
          closed := fun closed => absurd running (by simp [show a.life = .closed from closed]) }
      · refine .keep ?_
        simp only [held, empty, queue, Hand.shares, append_nil, map_cons, append_assoc]
        rfl
  | release => exact stepRelease_keeps sound taken
  | teardown =>
    obtain ⟨-, same⟩ := guarded taken
    cases same
    refine ⟨?_, .keep⟩
    exact { sound with
      late := by simp
      closed := nofun }
  | failed =>
    obtain ⟨stopped, same⟩ := guarded taken
    cases same
    refine ⟨?_, .keep⟩
    exact { sound with
      late := fun _ => stopped.2
      closed := nofun }
  | drained =>
    obtain ⟨⟨empty, draining, none⟩, same⟩ := guarded taken
    cases same
    refine ⟨?_, .keep⟩
    exact { sound with
      late := fun _ => sound.late (.inl draining)
      closed := fun _ => ⟨none, empty⟩ }

/-! ## What the counts say -/

/-- Where no call is under way, `incomingBytes` and the budget count the same packets. -/
theorem Sound.agree (sound : a.Sound limit) (quiet : a.quiet = true) :
    a.incomingBytes = size a.incoming + a.inHand ∧ (a.held.sum : ℤ) = a.incomingBytes := by
  have bytes := sound.bytes
  simp only [Association.quiet, Bool.and_eq_true, Bool.not_eq_true'] at quiet
  obtain ⟨between, settled⟩ := quiet
  obtain ⟨counted, still⟩ := still_of_idle (.inl between)
  have total : (a.held.sum : ℤ) = a.hand.shares.sum + size a.incoming := by
    simp [held, still, size]
  rw [counted, add_zero] at bytes
  cases hand : a.hand with
  | empty =>
    simp only [hand, inHand, Hand.counted, Hand.shares, sum_nil] at bytes total ⊢
    omega
  | dequeued packet =>
    simp only [hand, inHand, Hand.counted, Hand.shares, sum_singleton] at bytes total ⊢
    omega
  | releasing packet stage =>
    rw [hand] at settled
    cases settled

/-- A closed association has given everything back. -/
theorem Sound.nothing_held (sound : a.Sound limit) (closed : a.life = .closed) :
    a.incoming = [] ∧ a.incomingBytes = 0 ∧ a.held = 0 := by
  obtain ⟨none, empty⟩ := sound.closed closed
  have refuses : admits a.mu = false := by
    rw [← Bool.not_eq_true]
    exact fun admits => absurd (sound.live admits) (by simp [sound.failed_of_late (.inr closed)])
  obtain ⟨counted, still⟩ := still_of_idle (.inr refuses)
  have bytes := sound.bytes
  rw [counted, none, empty] at bytes
  refine ⟨none, by simpa [Hand.counted] using bytes, ?_⟩
  simp [held, none, empty, still, Hand.shares]

end Association

/-! ## The listener -/

/-- The listener's books. -/
def World.books (w : World) : Reservations ℕ where
  used := w.budget.used
  limit := w.budget.limit
  members := Finset.range w.admitted
  held i := (w.associations i).held
  reserved i := (w.associations i).reserved
  released i := (w.associations i).released

structure World.Sound (w : World) : Prop where
  limit : w.budget.limit = packetLimit
  each : ∀ i, (w.associations i).Sound w.budget.limit
  later : ∀ i, w.admitted ≤ i → w.associations i = {}
  balanced : w.books.Balanced

theorem World.sound_start : World.Sound {} where
  limit := rfl
  each _ := Association.sound_default _
  later _ _ := rfl
  balanced := ⟨rfl, by decide, fun _ => rfl⟩

/-- What one association does is an entry in the listener's books. -/
theorem World.books_act {w : World} (sound : w.Sound) {i : ℕ} (member : i < w.admitted) {b : MemoryBudget}
    {a : Association} (entry : (w.associations i).Books w.budget b a) :
    let w' : World := { w with budget := b, associations := update w.associations i a }
    w'.books.Balanced := by
  have moved : ∀ {α : Type} (f : Association → α),
      (fun j => f (update w.associations i a j)) = update (fun j => f (w.associations j)) i (f a) :=
    fun f => comp_update f w.associations i a
  intro w'
  have after : w'.books = { w.books with
      used := b.used
      limit := b.limit
      held := update w.books.held i a.held
      reserved := update w.books.reserved i a.reserved
      released := update w.books.released i a.released } := by
    simp only [World.books, w', moved Association.held, moved (fun a => (a.reserved : Multiset ℕ)),
      moved (fun a => (a.released : Multiset ℕ))]
  have listed : i ∈ w.books.members := Finset.mem_range.mpr member
  have same_reserved : update w.books.reserved i ((w.associations i).reserved : Multiset ℕ) = w.books.reserved :=
    update_eq_self i _
  have same_released : update w.books.released i ((w.associations i).released : Multiset ℕ) = w.books.released :=
    update_eq_self i _
  rw [after]
  cases entry with
  | keep held reserved released =>
    have same_held : update w.books.held i (w.associations i).held = w.books.held := update_eq_self i _
    rw [held, reserved, released, same_held, same_reserved, same_released]
    exact sound.balanced
  | reserve n room held reserved released =>
    rw [held, reserved, released, same_released]
    exact (Reservations.Step.reserve i n listed room).balanced sound.balanced
  | release n held reserved released =>
    rw [reserved, released, same_reserved]
    exact (Reservations.Step.release i n a.held listed held).balanced sound.balanced

theorem World.step_sound {w w' : World} {action : Option (ℕ × Action)} (sound : w.Sound)
    (taken : w.step action = some w') : w'.Sound := by
  cases action with
  | none =>
    cases taken
    refine ⟨sound.limit, sound.each, fun i above => sound.later i (Nat.le_of_succ_le above), ?_⟩
    have nothing : w.books.held w.admitted = 0 := by
      show (w.associations w.admitted).held = 0
      rw [sound.later w.admitted le_rfl]
      rfl
    have joined := (Reservations.Step.join w.admitted Finset.notMem_range_self nothing).balanced sound.balanced
    rwa [show insert w.admitted w.books.members = Finset.range (w.admitted + 1) from
      Finset.range_add_one.symm] at joined
  | some entry =>
    obtain ⟨i, action⟩ := entry
    rw [step] at taken
    split_ifs at taken with member
    obtain ⟨⟨b, a⟩, moved, rfl⟩ := Option.map_eq_some_iff.mp taken
    obtain ⟨keeps, entry⟩ := Association.step_keeps (sound.each i) moved
    have limit : b.limit = w.budget.limit := by cases entry <;> rfl
    refine ⟨limit.trans sound.limit, fun j => ?_, fun j above => ?_, World.books_act sound member entry⟩
    · show (update w.associations i a j).Sound b.limit
      rw [limit]
      by_cases here : j = i
      · rw [here, update_self]
        exact keeps
      · rw [update_of_ne here]
        exact sound.each j
    · have away : j ≠ i := fun same => absurd member (Nat.not_lt.mpr (same ▸ above))
      exact (update_of_ne away ..).trans (sound.later j above)

/-- In every reachable state. -/
theorem World.sound_of_reaches {w : World} (reaches : Reaches World.step {} w) : w.Sound :=
  reaches.invariant (fun _ _ _ sound taken => World.step_sound sound taken) World.sound_start

/-- Whatever the order of deliveries, receptions and teardowns, `incomingBytes` and the budget count the packets that
are in the queues and in the hands of the drivers, the budget stays within its limit, and everything an association
has reserved it still has or has released once; a closed association has released all of it. -/
theorem packet_budget_conserved {w : World} (reaches : Reaches World.step {} w) :
    (∀ i < w.admitted, (w.associations i).quiet = true →
      (w.associations i).incomingBytes = size (w.associations i).incoming + (w.associations i).inHand) ∧
    ((∀ i < w.admitted, (w.associations i).quiet = true) →
      w.budget.used = ∑ i ∈ Finset.range w.admitted, (w.associations i).incomingBytes) ∧
    (0 ≤ w.budget.used ∧ w.budget.used ≤ w.budget.limit ∧ w.budget.limit = packetLimit) ∧
    (∀ i, ((w.associations i).reserved : Multiset ℕ) = (w.associations i).released + (w.associations i).held) ∧
    (∀ i < w.admitted, (w.associations i).life = .closed → (w.associations i).incoming = [] ∧
      (w.associations i).incomingBytes = 0 ∧ (w.associations i).reserved.Perm (w.associations i).released) := by
  have sound := World.sound_of_reaches reaches
  refine ⟨fun i _ quiet => ((sound.each i).agree quiet).1, fun quiet => ?_,
    ⟨sound.balanced.nonneg, sound.balanced.bounded, sound.limit⟩, sound.balanced.once, fun i _ closed => ?_⟩
  · refine sound.balanced.total.trans (Finset.sum_congr rfl fun i listed => ?_)
    exact ((sound.each i).agree (quiet i (Finset.mem_range.mp listed))).2
  · obtain ⟨none, zero, nothing⟩ := (sound.each i).nothing_held closed
    refine ⟨none, zero, Multiset.coe_eq_coe.mp ?_⟩
    have once := sound.balanced.once i
    rwa [show w.books.held i = 0 from nothing, add_zero] at once

/-- A packet is delivered while `shutdown` waits for `mu`; the teardown takes it out. -/
def racingScript : List (Option (ℕ × Action)) :=
  let own (action : Action) : Option (ℕ × Action) := some (0, action)
  let delivered := [own (.deliver [1, 2, 3]), own .shutdown] ++ List.replicate 6 (own .proceed)
  let failed := [own .teardown] ++ List.replicate 3 (own .shutdown) ++ [own .failed]
  [none] ++ delivered ++ failed ++ [own .dequeue] ++ List.replicate 5 (own .release) ++ [own .drained]

theorem packet_budget_conserved_racing : ∃ w, follow World.step racingScript {} = some w ∧
    (w.associations 0).reserved = [3] ∧ w.budget.used ≤ w.budget.limit ∧
    (w.associations 0).incomingBytes = 0 ∧ (w.associations 0).reserved.Perm (w.associations 0).released := by
  have followed : (follow World.step racingScript {}).any (fun w =>
      0 < w.admitted ∧ (w.associations 0).life = .closed ∧ (w.associations 0).reserved = [3]) = true := by
    decide +kernel
  obtain ⟨w, ended, reached⟩ := (Option.any_eq_true _ _).mp followed
  obtain ⟨member, closed, reserved⟩ := of_decide_eq_true reached
  obtain ⟨-, -, ⟨-, bounded, -⟩, -, stopped⟩ := packet_budget_conserved (reaches_follow ended)
  exact ⟨w, ended, reserved, bounded, (stopped 0 member closed).2⟩

end Socat.Dtls13.Inbox
