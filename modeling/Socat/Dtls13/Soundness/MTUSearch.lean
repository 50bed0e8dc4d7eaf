import Socat.Dtls13.Model.Path
import Socat.Machine.Path
import Socat.ToMathlib.Slots

/-! # The search for the path MTU

The search keeps the sizes that were lost in order, all above the sizes that were acknowledged. Every answer to a
probe narrows the interval or uses up one of the probes, so the search ends; on a path that passes exactly the sizes
up to a limit, the limit stays inside the interval.
-/

namespace Socat.Dtls13

open Machine List

namespace MTUFinder

/-! ## Probes and their answers -/

/-- What comes of a probe. A rejected one was never sent. -/
inductive Reply
  | acked
  | lost
  | rejected
deriving DecidableEq, Repr

/-- A probe was sent. -/
def sent (f : MTUFinder) (size : ℤ) : MTUFinder := { f with inFlight := size, probes := f.probes + 1 }

def settle (f : MTUFinder) (size : ℤ) : Reply → MTUFinder
  | .acked => (f.sent size).onAcked size
  | .lost => (f.sent size).onLost size
  | .rejected => f.rejectHard size

/-- The next size is probed and answered. -/
def Step (f : MTUFinder) (reply : Reply) (f' : MTUFinder) : Prop := f.nextSize ≠ 0 ∧ f' = f.settle f.nextSize reply

/-- The path passes exactly the sizes up to a limit. -/
def StepOn (limit : ℤ) (f : MTUFinder) (reply : Reply) (f' : MTUFinder) : Prop :=
  f.Step reply f' ∧ (reply = .acked ↔ f.nextSize ≤ limit)

/-! ## What a search holds -/

/-- The sizes that were lost, in order and above the floor. -/
structure Searching (f : MTUFinder) (sizes : List ℤ) : Prop where
  slots : f.lost = slots maxLostMTUProbes invalidProbeSize sizes
  fits : sizes.length ≤ maxLostMTUProbes
  filled : sizes ≠ []
  positive : 1 ≤ f.floor
  sorted : sizes.Pairwise (· ≤ ·)
  above : ∀ v ∈ sizes, f.floor < v

namespace Searching

variable {f : MTUFinder} {sizes : List ℤ}

section

variable (search : Searching f sizes)
include search

theorem used : ∀ v ∈ sizes, v ≠ invalidProbeSize := by
  intro v member
  have := search.positive
  have := search.above v member
  unfold invalidProbeSize
  omega

theorem isGreatest_ceiling : IsGreatest {v | v ∈ sizes} f.ceiling := by
  have last : f.ceiling = sizes.getLast search.filled := by
    unfold ceiling
    rw [search.slots, slots_takeWhile search.used, getLast?_eq_some_getLast search.filled, Option.getD_some]
  rw [last]
  exact isGreatest_getLast search.sorted search.filled

theorem floor_lt_ceiling : f.floor < f.ceiling :=
  search.above _ search.isGreatest_ceiling.1

/-- A size between the bounds is next until the search is done. -/
theorem nextSize_between (going : f.done = false) : f.floor < f.nextSize ∧ f.nextSize < f.ceiling := by
  obtain ⟨wide, -⟩ : ¬f.ceiling - f.floor ≤ maxMTUDiff + 1 ∧ ¬maxSearchProbes ≤ f.probes := by
    simpa [done] using going
  have first : f.floor < f.lost.headD 0 ∧ f.lost.headD 0 ≤ f.ceiling := by
    obtain ⟨first, rest, rfl⟩ := exists_cons_of_ne_nil search.filled
    rw [search.slots]
    exact ⟨search.above first mem_cons_self, search.isGreatest_ceiling.2 mem_cons_self⟩
  unfold maxMTUDiff at wide
  unfold nextSize
  rw [going, if_neg Bool.false_ne_true]
  dsimp only
  split_ifs <;> omega

private theorem onAcked {size : ℤ} (low : f.floor < size) (high : size < f.ceiling) :
    ∃ sizes', Searching (f.onAcked size) sizes' ∧ (∀ v ∈ sizes', v ∈ sizes) ∧ f.ceiling ∈ sizes' := by
  obtain ⟨below, above, rfl, below_le, above_gt⟩ := exists_cut search.sorted size
  have top : f.ceiling ∈ above := by
    rcases mem_append.mp search.isGreatest_ceiling.1 with member | member
    · exact absurd (below_le _ member) (not_le.mpr high)
    · exact member
  have floor := search.positive
  have shift : (f.lost.findIdx? fun v => decide (size < v)).getD 0 = below.length := by
    rw [search.slots, slots_findIdx? below_le above_gt (by unfold invalidProbeSize; omega), if_neg (ne_nil_of_mem top)]
    rfl
  refine ⟨above, ?_, fun v member => mem_append_right _ member, top⟩
  constructor
  · show f.lost.drop _ ++ replicate _ _ = _
    rw [shift, search.slots]
    exact slots_drop below above search.fits
  · have := search.fits
    rw [length_append] at this
    omega
  · exact ne_nil_of_mem top
  · exact le_trans floor (le_max_left _ _)
  · exact (pairwise_append.mp search.sorted).2.1
  · intro v member
    exact max_lt (search.above v (mem_append_right _ member)) (above_gt v member)

/-- A lost size goes in before the greater ones; the sizes up to it gain a slot. -/
theorem onLost {size : ℤ} (low : f.floor < size) :
    ∃ sizes', Searching (f.onLost size) sizes' ∧ (∀ v ∈ sizes', v = size ∨ v ∈ sizes) ∧
      ∀ k, (∀ v ∈ sizes.take k, v ≤ size) → ∀ v ∈ sizes'.take (k + 1), v ≤ size := by
  obtain ⟨below, above, rfl, below_le, above_gt⟩ := exists_cut search.sorted size
  have floor := search.positive
  have found : (f.lost.findIdx? fun v => decide (size < v)) = if above = [] then none else some below.length := by
    rw [search.slots, slots_findIdx? below_le above_gt (by unfold invalidProbeSize; omega)]
  by_cases full : above = []
  · subst full
    rw [if_pos rfl] at found
    refine ⟨below ++ [], ?_, fun v member => .inr member, ?_⟩
    · have lost : (f.onLost size).lost = f.lost := by
        unfold MTUFinder.onLost
        rw [found]
      exact ⟨lost ▸ search.slots, search.fits, search.filled, search.positive, search.sorted, search.above⟩
    · intro k _ v member
      rw [append_nil] at member
      exact below_le v (mem_of_mem_take member)
  · rw [if_neg full] at found
    have members : ∀ v ∈ (below ++ size :: above).take maxLostMTUProbes, v = size ∨ v ∈ below ++ above := by
      intro v member
      have inside := mem_of_mem_take member
      simp only [mem_append, mem_cons] at inside ⊢
      tauto
    refine ⟨(below ++ size :: above).take maxLostMTUProbes, ?_, members, ?_⟩
    · constructor
      · unfold MTUFinder.onLost
        rw [found]
        show (f.lost.insertIdx _ _).take _ = _
        rw [search.slots]
        exact slots_insertIdx below above size search.fits
      · exact length_take_le _ _
      · simp [maxLostMTUProbes]
      · exact floor
      · exact (pairwise_insert search.sorted below_le above_gt).sublist (take_sublist _ _)
      · intro v member
        rcases members v member with rfl | member
        · exact low
        · exact search.above v member
    · intro k few v member
      -- no more than the sizes below and the new one are among the first
      have short : k ≤ below.length := by
        by_contra long
        obtain ⟨first, rest, rfl⟩ := exists_cons_of_ne_nil full
        have greater : first ∈ (below ++ first :: rest).take k := by
          rw [take_append]
          obtain ⟨extra, same⟩ : ∃ extra, k - below.length = extra + 1 := ⟨k - below.length - 1, by omega⟩
          rw [same]
          exact mem_append_right _ mem_cons_self
        exact absurd (few first greater) (not_le.mpr (above_gt first mem_cons_self))
      have prior : v ∈ (below ++ [size] ++ above).take (k + 1) := by
        rw [append_assoc, singleton_append]
        rw [take_take, Nat.min_comm, ← take_take] at member
        exact mem_of_mem_take member
      rw [take_append_of_le_length (by simp; omega)] at prior
      rcases mem_append.mp (mem_of_mem_take prior) with member | member
      · exact below_le v member
      · exact le_of_eq (mem_singleton.mp member)

private theorem rejectHard {size : ℤ} (low : f.floor < size) :
    ∃ sizes', Searching (f.rejectHard size) sizes' ∧ (∀ v ∈ sizes', v = size ∨ v ∈ sizes) ∧ ∀ v ∈ sizes', v ≤ size := by
  obtain ⟨sizes₁, search₁, from₁, more₁⟩ := search.onLost low
  obtain ⟨sizes₂, search₂, from₂, more₂⟩ := search₁.onLost low
  obtain ⟨sizes₃, search₃, from₃, more₃⟩ := search₂.onLost low
  refine ⟨sizes₃, search₃, ?_, ?_⟩
  · intro v member
    rcases from₃ v member with same | member
    · exact .inl same
    · rcases from₂ v member with same | member
      · exact .inl same
      · exact from₁ v member
  · intro v member
    rw [← take_of_length_le search₃.fits] at member
    exact more₃ 2 (more₂ 1 (more₁ 0 (by simp))) v member

end

end Searching

/-! ## Steps -/

/-- The probes that are left and the width of the interval. -/
def rank (f : MTUFinder) : ℕ := maxSearchProbes - f.probes + (f.ceiling - f.floor).toNat

theorem not_done_of_nextSize {f : MTUFinder} (next : f.nextSize ≠ 0) : f.done = false := by
  by_contra stopped
  rw [Bool.not_eq_false] at stopped
  unfold nextSize at next
  rw [stopped] at next
  exact next rfl

theorem nextSize_of_done {f : MTUFinder} (stopped : f.done = true) : f.nextSize = 0 := by
  unfold nextSize
  rw [stopped]
  rfl

section Step

variable {f f' : MTUFinder} {sizes : List ℤ} {reply : Reply}

/-- An acknowledged size becomes the floor; a lost or rejected one is held with those that were lost before. -/
theorem Searching.step (search : Searching f sizes) (step : f.Step reply f') :
    ∃ sizes', Searching f' sizes' ∧ f'.floor = (if reply = .acked then f.nextSize else f.floor) ∧
      (∀ v ∈ sizes', reply ≠ .acked ∧ v = f.nextSize ∨ v ∈ sizes) ∧ f'.ceiling ≤ f.ceiling ∧ f'.rank < f.rank := by
  obtain ⟨next, rfl⟩ := step
  have going := not_done_of_nextSize next
  obtain ⟨low, high⟩ := search.nextSize_between going
  have probes : f.probes < maxSearchProbes := by
    have := going
    simp only [done, Bool.or_eq_false_iff, decide_eq_false_iff_not, not_le] at this
    exact this.2
  have width := search.floor_lt_ceiling
  have sent : Searching (f.sent f.nextSize) sizes :=
    ⟨search.slots, search.fits, search.filled, search.positive, search.sorted, search.above⟩
  cases reply with
  | acked =>
    obtain ⟨sizes', later, old, top⟩ := sent.onAcked low high
    have ceiling : (f.settle f.nextSize .acked).ceiling ≤ f.ceiling :=
      search.isGreatest_ceiling.2 (old _ later.isGreatest_ceiling.1)
    have floor : (f.settle f.nextSize .acked).floor = f.nextSize := max_eq_right low.le
    refine ⟨sizes', later, floor, fun v member => .inr (old v member), ceiling, ?_⟩
    have counted : (f.settle f.nextSize .acked).probes = f.probes + 1 := rfl
    have := later.floor_lt_ceiling
    unfold rank
    rw [floor, counted]
    omega
  | lost =>
    obtain ⟨sizes', later, old, -⟩ := sent.onLost low
    have ceiling : (f.settle f.nextSize .lost).ceiling ≤ f.ceiling := by
      rcases old _ later.isGreatest_ceiling.1 with same | member
      · exact same.trans_le high.le
      · exact search.isGreatest_ceiling.2 member
    refine ⟨sizes', later, rfl, fun v member => (old v member).imp_left fun same => ⟨by simp, same⟩, ceiling, ?_⟩
    have counted : (f.settle f.nextSize .lost).probes = f.probes + 1 := rfl
    have floor : (f.settle f.nextSize .lost).floor = f.floor := rfl
    have := later.floor_lt_ceiling
    unfold rank
    rw [floor, counted]
    omega
  | rejected =>
    obtain ⟨sizes', later, old, most⟩ := search.rejectHard low
    have ceiling : (f.settle f.nextSize .rejected).ceiling < f.ceiling :=
      (most _ later.isGreatest_ceiling.1).trans_lt high
    refine ⟨sizes', later, rfl, fun v member => (old v member).imp_left fun same => ⟨by simp, same⟩, ceiling.le, ?_⟩
    have counted : (f.settle f.nextSize .rejected).probes = f.probes := rfl
    have floor : (f.settle f.nextSize .rejected).floor = f.floor := rfl
    have := later.floor_lt_ceiling
    unfold rank
    rw [floor, counted]
    omega

end Step

/-! ## Whole searches -/

/-- A search that begins at its ceiling is over, and its only entry is the floor. -/
structure Shut (f : MTUFinder) : Prop where
  lost : f.lost = slots maxLostMTUProbes invalidProbeSize [f.floor]
  positive : 1 ≤ f.floor

theorem Shut.ceiling {f : MTUFinder} (shut : Shut f) : f.ceiling = f.floor := by
  have used : ∀ v ∈ [f.floor], v ≠ invalidProbeSize := by
    intro v member
    have := shut.positive
    rw [mem_singleton.mp member]
    unfold invalidProbeSize
    omega
  unfold MTUFinder.ceiling
  rw [shut.lost, slots_takeWhile used]
  rfl

theorem Shut.done {f : MTUFinder} (shut : Shut f) : f.done = true := by
  simp [MTUFinder.done, shut.ceiling, maxMTUDiff]

theorem searching_init {start ceiling : ℤ} (wide : max start 1 < ceiling) :
    Searching (init start ceiling) [ceiling] where
  slots := by
    show [max ceiling (max start 1), _, _] = _
    rw [max_eq_left wide.le]
    rfl
  fits := by simp [maxLostMTUProbes]
  filled := cons_ne_nil _ _
  positive := le_max_right _ _
  sorted := pairwise_singleton _ _
  above := by
    intro v member
    rw [mem_singleton.mp member]
    exact wide

theorem shut_init {start ceiling : ℤ} (narrow : ceiling ≤ max start 1) : Shut (init start ceiling) where
  lost := by
    show [max ceiling (max start 1), _, _] = _
    rw [max_eq_right narrow]
    rfl
  positive := le_max_right _ _

section Runs

variable {start ceiling : ℤ} {replies : List Reply} {f : MTUFinder}

/-- A search either is over from the start, or holds the sizes that were lost. -/
theorem run_cases (run : Path Step (init start ceiling) replies f) :
    ceiling ≤ max start 1 ∧ Shut f ∨ max start 1 < ceiling ∧ ∃ sizes, Searching f sizes := by
  rcases le_or_gt ceiling (max start 1) with narrow | wide
  · refine .inl ⟨narrow, ?_⟩
    have shut := shut_init narrow
    cases run with
    | nil => exact shut
    | cons taken _ => exact absurd (nextSize_of_done shut.done) taken.1
  · have keeps : ∀ s reply t, (∃ sizes, Searching s sizes) → Step s reply t → ∃ sizes, Searching t sizes := by
      rintro s reply t ⟨sizes, search⟩ step
      obtain ⟨sizes', later, -⟩ := search.step step
      exact ⟨sizes', later⟩
    exact .inr ⟨wide, run.invariant (P := fun f => ∃ sizes, Searching f sizes) keeps ⟨_, searching_init wide⟩⟩

private theorem exists_done (replies : ℕ → Reply) :
    ∃ n f, Path Step (init start ceiling) ((range n).map replies) f ∧ f.done = true := by
  rcases le_or_gt ceiling (max start 1) with narrow | wide
  · exact ⟨0, _, .nil _, (shut_init narrow).done⟩
  · have goes : ∀ f reply, (∃ sizes, Searching f sizes) → ¬f.done = true →
        ∃ f', Step f reply f' ∧ (∃ sizes, Searching f' sizes) ∧ f'.rank < f.rank := by
      rintro f reply ⟨sizes, search⟩ going
      have between := search.nextSize_between (Bool.not_eq_true _ ▸ going)
      have floor := search.positive
      have step : Step f reply (f.settle f.nextSize reply) := ⟨by omega, rfl⟩
      obtain ⟨sizes', later, -, -, -, lower⟩ := search.step step
      exact ⟨_, step, ⟨sizes', later⟩, lower⟩
    obtain ⟨n, -, f, path, stopped⟩ := Path.exists_stop goes ⟨_, searching_init wide⟩ replies
    exact ⟨n, f, path, stopped⟩

/-- The limit of the path stays inside the interval. -/
theorem limit_inside {limit : ℤ} (positive : 1 ≤ limit) (least : start ≤ limit) (upto : limit < ceiling)
    (run : Path (StepOn limit) (init start ceiling) replies f) : f.floor ≤ limit ∧ limit < f.ceiling := by
  have keeps : ∀ s reply t, (∃ sizes, Searching s sizes ∧ s.floor ≤ limit ∧ ∀ v ∈ sizes, limit < v) →
      StepOn limit s reply t → ∃ sizes, Searching t sizes ∧ t.floor ≤ limit ∧ ∀ v ∈ sizes, limit < v := by
    rintro s reply t ⟨sizes, search, passed, lost⟩ ⟨step, answer⟩
    obtain ⟨sizes', later, floor, held, -⟩ := search.step step
    refine ⟨sizes', later, ?_, ?_⟩
    · rw [floor]
      split_ifs with acked
      · exact answer.mp acked
      · exact passed
    · intro v member
      rcases held v member with ⟨failed, rfl⟩ | member
      · exact not_le.mp fun small => failed (answer.mpr small)
      · exact lost v member
  have wide : max start 1 ≤ limit := max_le least positive
  obtain ⟨sizes, search, passed, lost⟩ := run.invariant keeps
    ⟨_, searching_init (wide.trans_lt upto), wide, fun v member => by rwa [mem_singleton.mp member]⟩
  exact ⟨passed, lost _ search.isGreatest_ceiling.1⟩

end Runs

/-- From any start and ceiling: the bounds close in and never cross, every size that is probed lies between them, the
lost sizes are in order above the floor, and the search ends; on a path with a fixed limit the limit stays between the
bounds. A search that begins at its ceiling holds the floor alone. -/
theorem search_sound (start ceiling : ℤ) :
    (∀ replies f, Path Step (init start ceiling) replies f →
      f.floor ≤ f.ceiling ∧
      (f.nextSize ≠ 0 → f.floor < f.nextSize ∧ f.nextSize < f.ceiling) ∧
      (f.lost.filter (· ≠ invalidProbeSize)).Pairwise (· ≤ ·) ∧
      (∀ v ∈ f.lost, v ≠ invalidProbeSize → f.floor < v ∨ ceiling ≤ max start 1 ∧ v = f.floor) ∧
      ∀ reply f', Step f reply f' → f.floor ≤ f'.floor ∧ f'.ceiling ≤ f.ceiling) ∧
    (∀ replies : ℕ → Reply,
      ∃ n f, Path Step (init start ceiling) ((range n).map replies) f ∧ f.done = true ∧ f.nextSize = 0) ∧
    ∀ limit, 1 ≤ limit → start ≤ limit → limit < ceiling → ∀ replies f,
      Path (StepOn limit) (init start ceiling) replies f →
      f.floor ≤ limit ∧ limit < f.ceiling ∧ (f.ceiling - f.floor ≤ maxMTUDiff + 1 → limit - f.floor ≤ 20) := by
  refine ⟨?_, ?_, ?_⟩
  · intro replies f run
    rcases run_cases run with ⟨narrow, shut⟩ | ⟨-, sizes, search⟩
    · have stopped := nextSize_of_done shut.done
      have entry : ∀ v ∈ f.lost, v ≠ invalidProbeSize → v = f.floor := by
        intro v member used
        rw [shut.lost, mem_slots_of_ne used] at member
        exact mem_singleton.mp member
      refine ⟨shut.ceiling.ge, fun next => absurd stopped next, ?_,
        fun v member used => .inr ⟨narrow, entry v member used⟩,
        fun reply f' step => absurd stopped step.1⟩
      apply List.Pairwise.imp_of_mem _ (pairwise_of_forall fun _ _ => trivial)
      intro v w first second _
      rw [mem_filter, decide_eq_true_eq] at first second
      rw [entry v first.1 first.2, entry w second.1 second.2]
    · refine ⟨search.floor_lt_ceiling.le, fun next => search.nextSize_between (not_done_of_nextSize next), ?_, ?_, ?_⟩
      · rw [search.slots, slots_filter search.used]
        exact search.sorted
      · intro v member used
        rw [search.slots, mem_slots_of_ne used] at member
        exact .inl (search.above v member)
      · intro reply f' step
        have between := search.nextSize_between (not_done_of_nextSize step.1)
        obtain ⟨-, -, floor, -, lower, -⟩ := search.step step
        refine ⟨?_, lower⟩
        rw [floor]
        split_ifs
        · exact between.1.le
        · exact le_refl _
  · intro replies
    obtain ⟨n, f, run, stopped⟩ := exists_done replies
    exact ⟨n, f, run, stopped, nextSize_of_done stopped⟩
  · intro limit positive least upto replies f run
    obtain ⟨passed, lost⟩ := limit_inside positive least upto run
    refine ⟨passed, lost, fun tight => ?_⟩
    unfold maxMTUDiff at tight
    omega

/-- One probe of a path that passes 700. -/
theorem search_sound_probe :
    (init 256 1500).nextSize = 878 ∧
    ((init 256 1500).settle 878 .lost).floor ≤ 700 ∧ 700 < ((init 256 1500).settle 878 .lost).ceiling := by
  have next : (init 256 1500).nextSize = 878 := by decide
  have run : Path (StepOn 700) (init 256 1500) [.lost] ((init 256 1500).settle 878 .lost) :=
    .cons ⟨⟨by decide, by rw [next]⟩, by decide⟩ (.nil _)
  obtain ⟨low, high, -⟩ := (search_sound 256 1500).2.2 700 (by decide) (by decide) (by decide) _ _ run
  exact ⟨next, low, high⟩

/-- A search that begins at its ceiling holds an entry that is not above the floor, and one that begins below 1 takes
1 for its floor even if the path does not pass it. -/
theorem search_begins_shut :
    (∃ v ∈ (init 5 5).lost, v ≠ invalidProbeSize ∧ ¬(init 5 5).floor < v) ∧
    ∃ limit : ℤ, 0 ≤ limit ∧ limit < 1500 ∧ ¬(init 0 1500).floor ≤ limit := by
  exact ⟨⟨5, by decide, by decide, by decide⟩, 0, by decide, by decide, by decide⟩

end MTUFinder

end Socat.Dtls13
