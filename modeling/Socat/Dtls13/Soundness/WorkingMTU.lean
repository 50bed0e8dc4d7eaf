import Socat.Dtls13.Model.TransparentCipher
import Socat.Dtls13.Moves.Metering

/-! # The working MTU

The working MTU of a session stays between the smallest MTU the code works with and the configured one.
It grows only when the outstanding probe is answered, and never beyond the size of that probe. The
counter of reductions is what bounds them: it starts again when the working MTU grows.
-/

namespace Socat.Dtls13

open Machine

/-! ## What an adjustment does -/

/-- The session is configured, and its working MTU and its reductions are within their bounds. -/
structure Session.Sized (c : Config) (s : Session) : Prop where
  config : s.handshake.config = some c
  pathMTU : s.working.pathMTU = 0 ∨ minPathMTU ≤ s.working.pathMTU ∧ s.working.pathMTU ≤ c.MTU
  reductions : s.working.reductions ≤ maxMTUReductions

variable {c : Config}

theorem Session.Sized.ceiling {s : Session} (sized : s.Sized c) : s.mtuCeiling = c.MTU := by
  simp [Session.mtuCeiling, sized.config]

theorem Session.Sized.effective {s : Session} (sized : s.Sized c) :
    s.effectiveMTU = if s.working.pathMTU = 0 then c.MTU else s.working.pathMTU := by
  unfold Session.effectiveMTU
  rw [sized.ceiling]
  have smallest : minPathMTU = 256 := rfl
  rcases sized.pathMTU with unset | ⟨above, below⟩
  · simp [unset]
  · rw [if_pos (by omega), if_neg (by omega), min_eq_left below]

theorem Session.Sized.bounds {s : Session} (sized : s.Sized c) (floor : minPathMTU ≤ c.MTU) :
    minPathMTU ≤ s.effectiveMTU ∧ s.effectiveMTU ≤ c.MTU := by
  rw [sized.effective]
  split
  · exact ⟨floor, le_refl _⟩
  · exact sized.pathMTU.resolve_left ‹_›

private theorem reduceHandshakeMTU_effect {s s' : Session} {tooBig : ℕ} (sized : s.Sized c)
    (reduced : s.reduceHandshakeMTU tooBig = (true, s')) :
    s'.Sized c ∧ s'.effectiveMTU < s.effectiveMTU ∧ s'.working.reductions = s.working.reductions + 1 := by
  obtain ⟨floor, smaller, allowed, same⟩ := Session.reduceHandshakeMTU_lowers reduced
  have below : s.effectiveMTU ≤ c.MTU := by
    unfold Session.effectiveMTU
    rw [sized.ceiling]
    split
    · exact min_le_right _ _
    · exact le_refl _
  refine ⟨?_, smaller, by rw [same]⟩
  generalize s'.effectiveMTU = next at *
  exact same ▸ ⟨sized.config, .inr ⟨floor, smaller.le.trans below⟩, allowed⟩

private theorem setWorkingMTU_effect {s : Session} {n : ℕ} (sized : s.Sized c) (floor : minPathMTU ≤ c.MTU)
    (larger : s.effectiveMTU < n) :
    (s.setWorkingMTU n).Sized c ∧
      (s.setWorkingMTU n = s ∨
        s.effectiveMTU < (s.setWorkingMTU n).effectiveMTU ∧ (s.setWorkingMTU n).effectiveMTU ≤ n ∧
          (s.setWorkingMTU n).working.reductions = 0) := by
  obtain ⟨above, below⟩ := sized.bounds floor
  have next : max (min n s.mtuCeiling) minPathMTU = min n c.MTU := by
    rw [sized.ceiling]
    omega
  unfold Session.setWorkingMTU
  dsimp only
  rw [next]
  split
  · exact ⟨sized, .inl rfl⟩
  split
  · exact ⟨sized, .inl rfl⟩
  · rename_i positive grows
    have smallest : minPathMTU = 256 := rfl
    have after : Session.Sized c { s with working.pathMTU := min n c.MTU, working.reductions := 0 } :=
      ⟨sized.config, .inr ⟨show minPathMTU ≤ min n c.MTU by omega, min_le_right _ _⟩, Nat.zero_le _⟩
    refine ⟨after, .inr ⟨?_, ?_, rfl⟩⟩
    · rw [after.effective, if_neg (show min n c.MTU ≠ 0 by omega)]
      exact not_le.mp grows
    · rw [after.effective, if_neg (show min n c.MTU ≠ 0 by omega)]
      exact min_le_left _ _

theorem World.Calm.sized {w w' : World} (calm : w.Calm w') (sized : w.session.Sized c) : w'.session.Sized c := by
  obtain ⟨config, pathMTU, reductions⟩ := calm.fields
  exact ⟨config ▸ sized.config, pathMTU ▸ sized.pathMTU, reductions ▸ sized.reductions⟩

section Runs

variable [Crypto]

namespace Adjustment

def Grows (a : Adjustment) : Prop := a.before.session.effectiveMTU < a.after.session.effectiveMTU

def Shrinks (a : Adjustment) : Prop := a.after.session.effectiveMTU < a.before.session.effectiveMTU

instance (a : Adjustment) : Decidable a.Shrinks := Nat.decLt _ _

/-- The change is the answer to the outstanding probe and stays within the size of the probe. -/
def Probed (a : Adjustment) : Prop :=
  ∃ i probe, a.intake = some i ∧ i.Answers a.before probe ∧ a.after.session.effectiveMTU ≤ probe.size

end Adjustment

/-- The working MTU stays, shrinks at the cost of a reduction, or grows to the size of an answered probe. -/
theorem Adjustment.Made.effect {a : Adjustment} {w w' : World} (made : a.Made a.intake w w')
    (sized : w.session.Sized c) (floor : minPathMTU ≤ c.MTU) :
    w'.session.Sized c ∧
      (w'.session.working.reductions = w.session.working.reductions ∧ ¬a.Shrinks ∧ ¬a.Grows ∨
        w'.session.working.reductions = w.session.working.reductions + 1 ∧ a.Shrinks ∧ ¬a.Grows ∨
        w'.session.working.reductions = 0 ∧ a.Grows ∧ a.Probed) := by
  obtain ⟨intake, before, after⟩ := a
  obtain ⟨same, adjusts⟩ := made
  cases same
  unfold Adjustment.Shrinks Adjustment.Grows Adjustment.Probed
  dsimp only
  cases adjusts with
  | keep calm =>
    have effective := calm.effectiveMTU
    exact ⟨calm.sized sized, .inl ⟨calm.fields.2.2, by omega, by omega⟩⟩
  | reduce tooBig reduced =>
    obtain ⟨after, shrinks, reductions⟩ := reduceHandshakeMTU_effect sized reduced
    exact ⟨after, .inr (.inl ⟨reductions, shrinks, lt_asymm shrinks⟩)⟩
  | raise i probe current answers larger raised =>
    obtain ⟨grown, effect⟩ := setWorkingMTU_effect sized floor larger
    have effective : w'.session.effectiveMTU = (w.session.setWorkingMTU probe.size).effectiveMTU := raised.effectiveMTU
    have reductions := raised.fields.2.2
    refine ⟨raised.sized grown, ?_⟩
    rcases effect with same | ⟨grows, within, reset⟩
    · rw [same] at effective reductions
      exact .inl ⟨reductions, by omega, by omega⟩
    · rw [← effective] at grows within
      exact .inr (.inr ⟨reductions.trans reset, grows, i, probe, current, answers, within⟩)

/-! ## Runs -/

section Paths

variable {w w' : World} {changes : List Adjustment}
  (path : Path (fun w a w' => Adjustment.Made a.intake w a w') w changes w')
  (sized : w.session.Sized c) (floor : minPathMTU ≤ c.MTU)
include path sized floor

private theorem path_sized : w'.session.Sized c :=
  path.invariant (P := fun w => w.session.Sized c) (fun _ _ _ sized made => (made.effect sized floor).1) sized

/-- As long as nothing grows, the counter counts the reductions. -/
theorem path_reductions (level : ∀ a ∈ changes, ¬a.Grows) :
    w'.session.working.reductions =
      w.session.working.reductions + changes.countP fun a => decide a.Shrinks := by
  induction path with
  | nil => rfl
  | @cons w mid w' a rest made later ih =>
    have after := (made.effect sized floor).1
    have counted := ih after fun a member => level a (List.mem_cons_of_mem _ member)
    rw [counted, List.countP_cons]
    rcases (made.effect sized floor).2 with ⟨same, still, -⟩ | ⟨more, shrinks, -⟩ | ⟨-, grows, -⟩
    · simp [same, still]
    · simp [more, shrinks]
      omega
    · exact absurd grows (level a List.mem_cons_self)

/-- Every change of the path starts and ends within the bounds. -/
theorem path_within : ∀ a ∈ changes, a.before.session.Sized c ∧ a.after.session.Sized c ∧ (a.Grows → a.Probed) := by
  induction path with
  | nil => simp
  | @cons w mid w' a rest made later ih =>
    obtain ⟨after, effect⟩ := made.effect sized floor
    intro b member
    rcases List.mem_cons.mp member with rfl | deeper
    · obtain ⟨same, -⟩ := made
      rw [same]
      refine ⟨sized, after, fun grows => ?_⟩
      rw [← same] at grows ⊢
      rcases effect with ⟨-, -, still⟩ | ⟨-, -, still⟩ | ⟨-, -, probed⟩
      · exact absurd grows still
      · exact absurd grows still
      · exact probed
    · exact ih after b deeper

end Paths

/-- The adjustments of a run, operation by operation. -/
inductive Chronicle : World → List Adjustment → World → Prop
  | start (w : World) : Chronicle w [] w
  | operate {w v : World} {changes later : List Adjustment} (operation : Operation) (env : Env) :
      Chronicle w changes v →
      Operated operation.arrival (v.withEnv env) later (final (Dtls13.operate operation) (v.withEnv env)) →
      Chronicle w (changes ++ ⟨none, v, v.withEnv env⟩ :: later) (final (Dtls13.operate operation) (v.withEnv env))

theorem Steps.chronicle {w w' : World} (steps : Steps w w') : ∃ changes, Chronicle w changes w' := by
  induction steps with
  | refl => exact ⟨[], .start w⟩
  | @tail v _ _ step ih =>
    obtain ⟨changes, before⟩ := ih
    obtain ⟨operation, env⟩ := step
    obtain ⟨later, operated⟩ :=
      Ends.final (P := Adjusted operation.arrival (v.withEnv env)) (operate_adjusted operation _)
    exact ⟨_, .operate operation env before operated⟩

theorem made_path {intake : Option Intake} {w w' : World} {changes : List Adjustment}
    (path : Path (Adjustment.Made intake) w changes w') :
    Path (fun w a w' => Adjustment.Made a.intake w a w') w changes w' := by
  refine path.mono fun v a v' made => ?_
  obtain ⟨rfl, adjusts⟩ := made
  exact ⟨rfl, adjusts⟩

theorem TakenIn.path {hasCID : Bool} {sender : PacketPath} {now : Time} {records : List Record} {w w' : World}
    {changes : List Adjustment} (taken : TakenIn hasCID sender now records w changes w') :
    Path (fun w a w' => Adjustment.Made a.intake w a w') w changes w' := by
  induction taken with
  | stop => exact .nil _
  | take first _ ih => exact (made_path first).append ih

theorem Operated.path {arrival : Option (Bytes × PacketPath × Time)} {w w' : World} {changes : List Adjustment}
    (operated : Operated arrival w changes w') : Path (fun w a w' => Adjustment.Made a.intake w a w') w changes w' := by
  cases operated with
  | apart path => exact made_path path
  | received _ _ first taken last => exact ((made_path first).append taken.path).append (made_path last)

/-- A run is one path of adjustments. -/
theorem Chronicle.path {w w' : World} {changes : List Adjustment} (chronicle : Chronicle w changes w') :
    Path (fun w a w' => Adjustment.Made a.intake w a w') w changes w' := by
  induction chronicle with
  | start => exact .nil _
  | operate operation env _ later ih => exact ih.append (.cons ⟨rfl, .keep rfl⟩ later.path)

/-- In every run the working MTU stays between 256 and the configured MTU, it grows only when the
outstanding probe is answered, and it shrinks at most eight times while it does not grow. -/
theorem steps_workingMTU {w w' : World} {c : Config} (new : w.session.working = {})
    (configured : w.session.handshake.config = some c) (range : 256 ≤ c.MTU ∧ c.MTU ≤ 65507) (steps : Steps w w') :
    ∃ changes, Chronicle w changes w' ∧
      (256 ≤ w'.session.effectiveMTU ∧ w'.session.effectiveMTU ≤ c.MTU) ∧
      (∀ a ∈ changes, ∀ s ∈ [a.before.session, a.after.session], 256 ≤ s.effectiveMTU ∧ s.effectiveMTU ≤ c.MTU) ∧
      (∀ a ∈ changes, a.Grows → a.Probed) ∧
      ∀ part, part <:+: changes → (∀ a ∈ part, ¬a.Grows) → part.countP (fun a => decide a.Shrinks) ≤ 8 := by
  have sized : w.session.Sized c := by
    refine ⟨configured, .inl ?_, ?_⟩
    · rw [new]
    · rw [new]
      exact Nat.zero_le _
  obtain ⟨changes, chronicle⟩ := steps.chronicle
  have path := chronicle.path
  have within := path_within path sized range.1
  refine ⟨changes, chronicle, (path_sized path sized range.1).bounds range.1, ?_,
    fun a member => (within a member).2.2, ?_⟩
  · intro a member s either
    obtain ⟨before, after, -⟩ := within a member
    simp only [List.mem_cons, List.not_mem_nil, or_false] at either
    rcases either with rfl | rfl
    · exact before.bounds range.1
    · exact after.bounds range.1
  · intro part inside level
    obtain ⟨before, prior, after, upTo, along⟩ := path.segment inside
    have start := path_sized upTo sized range.1
    have counted := path_reductions along start range.1 level
    have limit := (path_sized along start range.1).reductions
    have most : maxMTUReductions = 8 := rfl
    omega

end Runs

/-- A client in an open association that may probe its path. -/
def probingClient : World := { newWorld true with
  session.handshake := { (newWorld true).session.handshake with
    config := some { MTU := 600, unfragmentedProbes := true }
    localCID := [9]
    peerCID := [7]
    cidNegotiated := true
    rrc := true
    complete := true }
  session.epochs.read := AList.singleton 3 { keys := transparentKeys 2 }
  session.epochs.write := AList.singleton 3 { keys := some (transparentKeys 1) }
  session.epochs.readApplicationEpoch := 3
  session.cid.requested := true
  session.path := some { peer := ⟨some (1, 1), 0⟩ } }

/-- The server's response to a challenge, in its `n`th record. -/
def responseTo (cookie : Bytes) (n : ℕ) : Bytes :=
  match @TrafficKeys.encodeRecord transparent (transparentKeys 2) ⟨3, n⟩ [9] contentRRC (pathResponse :: cookie) 0 with
  | .ok bytes => bytes
  | .error _ => []

/-- User data turns out to be too long for the path; then two probes are sent and answered. -/
def probeScript : List (Operation × Env) :=
  let first : Bytes := [1, 2, 3, 4, 5, 6, 7, 8]
  let second : Bytes := [8, 7, 6, 5, 4, 3, 2, 1]
  [(.event (.ready true), {}),
   (.application [1, 2, 3], { sends := [some .messageTooLong] }),
   (.event (.tick 1), { random := first }),
   (.event (.receive (responseTo first 0) ⟨some (1, 1), 0⟩ 2), {}),
   (.event (.tick (3 * probePace)), { random := second }),
   (.event (.receive (responseTo second 1) ⟨some (1, 1), 0⟩ (3 * probePace + 1)), {})]

theorem probingClient_workingMTU :
    (@perform transparent (probeScript.take 4) probingClient).session.effectiveMTU = 300 ∧
    (@perform transparent probeScript probingClient).session.effectiveMTU = 450 ∧
    ∃ changes, @Chronicle transparent probingClient changes (@perform transparent probeScript probingClient) ∧
      ∀ a ∈ changes, a.Grows → @Adjustment.Probed transparent a := by
  refine ⟨by decide +kernel, by decide +kernel, ?_⟩
  obtain ⟨changes, chronicle, -, -, probed, -⟩ := @steps_workingMTU transparent probingClient _ _ rfl rfl
    (by decide) (@steps_perform transparent probeScript probingClient)
  exact ⟨changes, chronicle, probed⟩

end Socat.Dtls13
