import Socat.Xio.Model.Fork
import Mathlib.Data.List.Perm.Basic

/-! # Slots are kept

Every turn is in one place: in the hands of the loop, with a child that runs its body, with a child that is about to
release it, or released. The channel has an element for each of the first three.
-/

namespace Socat.Xio.Fork

open Machine List

/-- The turn in the hands of the loop. -/
def Loop.hand : Loop → List ℕ
  | .holding turn | .releasing turn _ => [turn]
  | _ => []

/-- The turns that have a slot. -/
def State.holders (s : State) : List ℕ := s.loop.hand ++ s.running ++ s.done

structure Accounted (m : ℕ) (s : State) : Prop where
  /-- Each turn has a slot and one holder, or it was released once. -/
  once : (s.holders ++ s.released).Perm (List.range s.acquired)
  slots : s.slots = s.holders.length
  room : s.slots ≤ m
  children : s.children = s.running.length
  returned : s.loop = .returned → s.running = []

variable {kind : Kind} {m : ℕ} {s s' : State} {turn : ℕ}

/-- Turns pass from one holder to the next. -/
theorem Accounted.pass (accounted : Accounted m s) {loop : Loop} {cancelled : Bool} {children : ℕ}
    {running done : List ℕ}
    (held : ({ s with loop, running, done } : State).holders.Perm s.holders) (count : children = running.length)
    (still : loop = .returned → running = []) : Accounted m { s with loop, cancelled, children, running, done } where
  once := (held.append_right _).trans accounted.once
  slots := accounted.slots.trans held.length_eq.symm
  room := accounted.room
  children := count
  returned := still

/-- The loop goes on with what it has in its hands. -/
theorem Accounted.goto (accounted : Accounted m s) {loop : Loop} {cancelled : Bool} (hand : loop.hand = s.loop.hand)
    (still : loop = .returned → s.running = []) : Accounted m { s with loop, cancelled } :=
  accounted.pass (by simp only [State.holders, hand, List.Perm.refl]) accounted.children still

/-- The holder of a turn gives it back. -/
theorem Accounted.release (accounted : Accounted m s) {loop : Loop} {done : List ℕ}
    (held : s.holders.Perm (turn :: ({ s with loop, done } : State).holders))
    (released : ({ s with loop, done } : State).release (some m) turn = some s')
    (still : loop = .returned → s.running = []) : Accounted m s' := by
  obtain ⟨some, rfl⟩ := guarded released
  have slots := accounted.slots
  have room := accounted.room
  rw [held.length_eq, length_cons] at slots
  refine ⟨?_, ?_, ?_, accounted.children, still⟩
  · have moved := perm_middle.trans (held.append_right s.released).symm
    exact moved.trans accounted.once
  · show s.slots - 1 = ({ s with loop, done } : State).holders.length
    omega
  · show s.slots - 1 ≤ m
    omega

theorem Accounted.step (accounted : Accounted m s) {action : Action}
    (taken : step kind (some m) s action = some s') : Accounted m s' := by
  cases action with
  | cancel =>
    cases taken
    exact accounted.goto rfl accounted.returned
  | enter =>
    obtain ⟨here, rfl⟩ := guarded taken
    split <;> exact accounted.goto (by rw [here]; rfl) nofun
  | acquire =>
    obtain ⟨⟨here, free⟩, rfl⟩ := guarded taken
    have slots := accounted.slots
    have once := accounted.once
    simp only [State.holders, here, Loop.hand, nil_append, length_append] at slots once
    refine ⟨?_, ?_, Nat.succ_le_of_lt (by simpa using free), accounted.children, nofun⟩
    · rw [range_succ]
      exact (once.cons s.acquired).trans (perm_append_singleton _ _).symm
    · simp [State.holders, Loop.hand, slots]
  | abandon | interrupt =>
    obtain ⟨⟨here, -⟩, rfl⟩ := guarded taken
    exact accounted.goto (by rw [here]; rfl) nofun
  | resume =>
    obtain ⟨here, rfl⟩ := guarded taken
    exact accounted.goto (by rw [here]; rfl) nofun
  | fail | refuse =>
    simp only [Fork.step] at taken
    split at taken
    · rename_i here
      cases taken
      exact accounted.goto (by rw [here]; rfl) nofun
    · cases taken
  | release =>
    simp only [Fork.step] at taken
    split at taken
    · rename_i turn refused here
      refine accounted.release (by simp only [State.holders, here]; split <;> exact .refl _) taken ?_
      split <;> nofun
    · cases taken
  | spawn =>
    simp only [Fork.step] at taken
    split at taken
    · rename_i turn here
      cases taken
      refine accounted.pass ?_ (congrArg (· + 1) accounted.children) (by split <;> nofun)
      simp only [State.holders, here]
      split <;> exact .refl _
    · cases taken
  | finish turn =>
    obtain ⟨listed, rfl⟩ := guarded taken
    refine accounted.pass ?_ ?_ fun ended => by rw [accounted.returned ended]; rfl
    · have moved := perm_middle.trans ((perm_cons_erase listed).symm.append_right s.done)
      simpa only [State.holders, append_assoc] using moved.append_left s.loop.hand
    · rw [length_erase_of_mem listed, accounted.children]
  | childRelease turn =>
    obtain ⟨listed, released⟩ := Option.ite_none_right_eq_some.mp taken
    refine accounted.release ?_ released accounted.returned
    exact ((perm_cons_erase listed).append_left _).trans perm_middle
  | wait =>
    obtain ⟨⟨here, none⟩, rfl⟩ := guarded taken
    exact accounted.goto (by rw [here]; rfl) fun _ => length_eq_zero_iff.mp (accounted.children ▸ none)

/-- No more children than `max-children` run, no slot is lost or given back twice, no release waits, and the loop
returns when its children are done. -/
theorem fork_accounted {maxChildren : ℤ} (positive : 1 ≤ maxChildren)
    (reaches : Reaches (step kind (newChildSlots maxChildren)) {} s) :
    (s.running.length : ℤ) ≤ maxChildren ∧ (s.holders ++ s.released).Perm (List.range s.acquired) ∧
      s.slots = s.holders.length ∧
      (∀ turn refused, s.loop = .releasing turn refused → (step kind (newChildSlots maxChildren) s .release).isSome) ∧
      (∀ turn ∈ s.done, (step kind (newChildSlots maxChildren) s (.childRelease turn)).isSome) ∧
      (s.loop = .returned → s.running = []) := by
  have limit : newChildSlots maxChildren = some maxChildren.toNat := if_neg (by omega)
  rw [limit] at reaches ⊢
  have accounted : Accounted maxChildren.toNat s :=
    reaches.invariant (fun _ _ _ accounted taken => accounted.step taken) ⟨.refl _, rfl, Nat.zero_le _, rfl, nofun⟩
  have slots := accounted.slots
  have room := accounted.room
  have count : s.holders.length = s.loop.hand.length + s.running.length + s.done.length := by
    simp only [State.holders, length_append]
  refine ⟨by omega, accounted.once, slots, fun turn refused here => ?_, fun turn listed => ?_, accounted.returned⟩
  · rw [here, Loop.hand, length_singleton] at count
    have some : 0 < s.slots := by omega
    simp [step, here, State.release, some]
  · have := length_pos_of_mem listed
    have some : 0 < s.slots := by omega
    simp [step, listed, State.release, some]

/-- One slot: a peer is refused, a child runs and ends, and the listener is closed. -/
theorem fork_accounted_once : ∃ s : State, s.loop = .returned ∧ s.acquired = 2 ∧ s.slots = s.holders.length := by
  have followed : follow (step .forEachAccepted (newChildSlots 1))
      [.enter, .acquire, .refuse, .release, .enter, .acquire,
      .spawn, .enter, .cancel, .abandon, .finish 1, .wait] {} = some
        { slots := 1, cancelled := true, loop := .returned, acquired := 2, done := [1], released := [0] } := by decide
  exact ⟨_, rfl, rfl, (fork_accounted (by decide) (reaches_follow followed)).2.2.1⟩

end Socat.Xio.Fork
