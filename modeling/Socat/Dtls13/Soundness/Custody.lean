import Socat.Dtls13.Model.Writes

/-! # Whose a command object is

A command object belongs to one call at a time. The driver may keep one after its call has returned with an error, but
then nobody else uses it again: an object goes to the cache only with the reply to its own call taken out, and the
driver has put the object away before it replies.
-/

namespace Socat.Dtls13.Writes

open Function (forall_update_iff)

variable {phase : Phase} {o k : ℕ} {p : Taken} {r : Outcome}

namespace Phase

/-- The command of a call in `execute`. -/
def command : Phase → Option ℕ
  | .waiting o | .taken o | .leaving o _ _ => some o
  | _ => none

/-- The driver took the command of the call. -/
def wasTaken : Phase → Bool
  | .taken _ => true
  | .leaving _ _ was | .returned _ was => was
  | _ => false

/-- The call has its reply, and it is nil. -/
def succeeded : Phase → Bool
  | .leaving _ none _ | .returned none _ => true
  | _ => false

/-- The command of a call, when nobody but the call has it. -/
def owned : Phase → Option ℕ
  | .waiting o | .leaving o none _ => some o
  | _ => none

theorem command_of_owned (owned : phase.owned = some o) : phase.command = some o := by
  cases phase with
  | leaving o' outcome taken => cases outcome <;> simp_all [Phase.owned, command]
  | _ => simp_all [Phase.owned, command]

/-- A call whose command the driver has is not one that has it to itself. -/
theorem owned_eq_none (taken : phase.wasTaken = true) (unsettled : phase.succeeded = false) : phase.owned = none := by
  cases phase with
  | leaving o outcome taken => cases outcome <;> simp_all [Phase.owned, succeeded]
  | _ => simp_all [Phase.owned, wasTaken]

end Phase

/-- A call has an object of its own. -/
structure Held (data : ℕ → Bytes) (w : World) (k o : ℕ) : Prop where
  created : o < w.created
  call : (w.commands o).call = k
  data : (w.commands o).data = data k
  uncancelled : (w.commands o).cancel = false

/-- An object in the cache is nobody's. -/
structure Unused (w : World) (o : ℕ) : Prop where
  created : o < w.created
  uncancelled : (w.commands o).cancel = false
  empty : (w.commands o).result = none
  unclaimed : ∀ p, w.pending = some p → p.command ≠ o
  unheld : ∀ k, (w.calls k).command ≠ some o

/-- The driver's command has the data of the call it was taken from, and that call has not gone on with it. -/
structure Claimed (data : ℕ → Bytes) (w : World) (p : Taken) : Prop where
  created : p.command < w.created
  call : (w.commands p.command).call = p.call
  data : (w.commands p.command).data = data p.call
  empty : (w.commands p.command).result = none
  taken : (w.calls p.call).wasTaken = true
  unsettled : (w.calls p.call).succeeded = false
  holds : ∀ o, (w.calls p.call).command = some o → o = p.command

structure Custody (data : ℕ → Bytes) (w : World) : Prop where
  cached : ∀ o, w.cachedCommand = some o → Unused w o
  held : ∀ k o, (w.calls k).command = some o → Held data w k o
  empty : ∀ k o, (w.calls k).owned = some o → (w.commands o).result = none
  pending : ∀ p, w.pending = some p → Claimed data w p
  /-- A reply lies in the object of the call it was made for. -/
  reply : ∀ o k r, (w.commands o).result = some (k, r) → (w.commands o).call = k

namespace Custody

variable {data : ℕ → Bytes} {w : World}

theorem start : Custody data {} where
  cached o found := by
    cases found
    exact ⟨Nat.one_pos, rfl, rfl, nofun, nofun⟩
  held := nofun
  empty := nofun
  pending := nofun
  reply := nofun

/-! ## One change at a time -/

section

variable (custody : Custody data w)
include custody

theorem setCall (holds : ∀ o, phase.command = some o → Held data w k o ∧ w.cachedCommand ≠ some o)
    (empty : ∀ o, phase.owned = some o → (w.commands o).result = none)
    (claimed : ∀ p, w.pending = some p → p.call = k →
      phase.wasTaken = true ∧ phase.succeeded = false ∧ ∀ o, phase.command = some o → o = p.command) :
    Custody data (w.setCall k phase) where
  cached o found :=
    { custody.cached o found with
      unheld := (forall_update_iff w.calls fun _ p => p.command ≠ some o).mpr
        ⟨fun has => (holds o has).2 found, fun k' _ => (custody.cached o found).unheld k'⟩ }
  held := (forall_update_iff w.calls fun k' p => ∀ o, p.command = some o → Held data (w.setCall k phase) k' o).mpr
    ⟨fun o has => { (holds o has).1 with }, fun k' _ o has => { custody.held k' o has with }⟩
  empty := (forall_update_iff w.calls fun _ p => ∀ o, p.owned = some o → (w.commands o).result = none).mpr
    ⟨empty, fun k' _ => custody.empty k'⟩
  pending p found := by
    have kept := custody.pending p found
    obtain ⟨taken, unsettled, holds⟩ := (forall_update_iff w.calls fun k' phase => p.call = k' →
      phase.wasTaken = true ∧ phase.succeeded = false ∧ ∀ o, phase.command = some o → o = p.command).mpr
        ⟨claimed p found, fun k' _ same => same ▸ ⟨kept.taken, kept.unsettled, kept.holds⟩⟩ p.call rfl
    exact { kept with taken, unsettled, holds }
  reply := custody.reply

theorem setCommand {c : Command} (uncached : w.cachedCommand ≠ some o)
    (held : ∀ k, (w.calls k).command = some o → c.call = k ∧ c.data = data k ∧ c.cancel = false)
    (empty : ∀ k, (w.calls k).owned = some o → c.result = none)
    (claimed : ∀ p, w.pending = some p → p.command = o → c.call = p.call ∧ c.data = data p.call ∧ c.result = none)
    (reply : ∀ k r, c.result = some (k, r) → c.call = k) : Custody data (w.setCommand o c) where
  cached o' found := by
    have unused := custody.cached o' found
    have kept : (w.setCommand o c).commands o' = w.commands o' :=
      Function.update_of_ne (fun same : o' = o => uncached (same ▸ found)) _ _
    exact { unused with uncancelled := kept ▸ unused.uncancelled, empty := kept ▸ unused.empty }
  held k o' has := by
    have kept := custody.held k o' has
    obtain ⟨call, ofCall, uncancelled⟩ := (forall_update_iff w.commands fun o' c =>
      (w.calls k).command = some o' → c.call = k ∧ c.data = data k ∧ c.cancel = false).mpr
        ⟨held k, fun o' _ has => ⟨(custody.held k o' has).call, (custody.held k o' has).data,
          (custody.held k o' has).uncancelled⟩⟩ o' has
    exact ⟨kept.created, call, ofCall, uncancelled⟩
  empty k := (forall_update_iff w.commands fun o' c => (w.calls k).owned = some o' → c.result = none).mpr
    ⟨empty k, fun o' _ => custody.empty k o'⟩
  pending p found := by
    have kept := custody.pending p found
    obtain ⟨call, ofCall, none⟩ := (forall_update_iff w.commands fun o' c => p.command = o' →
      c.call = p.call ∧ c.data = data p.call ∧ c.result = none).mpr
        ⟨claimed p found, fun o' _ same => same ▸ ⟨kept.call, kept.data, kept.empty⟩⟩ p.command rfl
    exact { kept with call, data := ofCall, empty := none }
  reply := (forall_update_iff w.commands fun _ c => ∀ k r, c.result = some (k, r) → c.call = k).mpr
    ⟨reply, fun o' _ => custody.reply o'⟩

/-- What a world does with its jobs, its socket and its signals is none of the objects' business. -/
theorem congr {w' : World} (cached : w'.cachedCommand = w.cachedCommand)
    (rest : (w'.created, w'.commands, w'.calls, w'.pending) = (w.created, w.commands, w.calls, w.pending)) :
    Custody data w' := by
  obtain ⟨_, _, _, _, _, _, _, _, _, _, _, _, _, _⟩ := w
  cases w'
  cases rest
  subst cached
  exact ⟨fun o found => { custody.cached o found with }, fun k o has => { custody.held k o has with },
    custody.empty, fun p found => { custody.pending p found with }, custody.reply⟩

theorem release : Custody data { w with pending := none } where
  cached o found := { custody.cached o found with unclaimed := nofun }
  held k o has := { custody.held k o has with }
  empty := custody.empty
  pending := nofun
  reply := custody.reply

private theorem uncache : Custody data { w with cachedCommand := none } where
  cached := nofun
  held k o has := { custody.held k o has with }
  empty := custody.empty
  pending p found := { custody.pending p found with }
  reply := custody.reply

private theorem cache (unused : Unused w o) : Custody data { w with cachedCommand := some o } where
  cached o' found := by
    cases found
    exact { unused with }
  held k o has := { custody.held k o has with }
  empty := custody.empty
  pending p found := { custody.pending p found with }
  reply := custody.reply

private theorem create : Custody data { w with created := w.created + 1 } where
  cached o found := { custody.cached o found with created := Nat.lt_succ_of_lt (custody.cached o found).created }
  held k o has := { custody.held k o has with created := Nat.lt_succ_of_lt (custody.held k o has).created }
  empty := custody.empty
  pending p found := { custody.pending p found with created := Nat.lt_succ_of_lt (custody.pending p found).created }
  reply := custody.reply

private theorem claim (claimed : Claimed data w p) (uncached : w.cachedCommand ≠ some p.command) :
    Custody data { w with pending := some p } where
  cached o found := by
    refine { custody.cached o found with unclaimed := fun p' same taken => uncached ?_ }
    cases same
    exact found.trans (congrArg some taken.symm)
  held k o has := { custody.held k o has with }
  empty := custody.empty
  pending p' found := by
    cases found
    exact { claimed with }
  reply := custody.reply

/-! ## Calls -/

theorem uncached (has : (w.calls k).command = some o) :
    w.cachedCommand ≠ some o := fun found => (custody.cached o found).unheld k has

/-- An object has one call. -/
theorem only {k' : ℕ} (has : (w.calls k).command = some o) (has' : (w.calls k').command = some o) : k' = k :=
  (custody.held k' o has').call.symm.trans (custody.held k o has).call

/-- An object whose call has gone is nobody's. -/
theorem unheld (has : (w.calls k).command = some o) (gone : phase.command = none) :
    ∀ k', ((w.setCall k phase).calls k').command ≠ some o :=
  (forall_update_iff w.calls fun _ p => p.command ≠ some o).mpr
    ⟨by simp [gone], fun _ other has' => other (custody.only has has')⟩

/-- A call that has its object to itself shares it with no driver. -/
theorem unclaimed (owned : (w.calls k).owned = some o) (found : w.pending = some p) : p.call ≠ k ∧ p.command ≠ o := by
  have claimed := custody.pending p found
  have other : p.call ≠ k := by
    intro same
    have none := Phase.owned_eq_none claimed.taken claimed.unsettled
    rw [same, owned] at none
    cases none
  have mine := (custody.held k o (Phase.command_of_owned owned)).call
  exact ⟨other, fun same => other (claimed.call.symm.trans (same ▸ mine))⟩

/-- A call goes on with the object it has. -/
theorem proceed (keeps : ∀ o, phase.command = some o → (w.calls k).command = some o)
    (empty : ∀ o, phase.owned = some o → (w.commands o).result = none)
    (claimed : ∀ p, w.pending = some p → p.call = k → phase.wasTaken = true ∧ phase.succeeded = false) :
    Custody data (w.setCall k phase) := by
  refine custody.setCall (fun o has => ⟨custody.held k o (keeps o has), custody.uncached (keeps o has)⟩) empty ?_
  intro p found same
  obtain ⟨taken, unsettled⟩ := claimed p found same
  exact ⟨taken, unsettled, fun o has => (custody.pending p found).holds o (same ▸ keeps o has)⟩

/-- The driver has nothing from a call it did not take a command from. -/
theorem untaken (fresh : (w.calls k).wasTaken = false) (found : w.pending = some p) : p.call ≠ k := by
  rintro rfl
  have taken := (custody.pending p found).taken
  rw [fresh] at taken
  cases taken

theorem enter (idle : w.calls k = .idle) : Custody data (w.enter data k) := by
  have fresh : ∀ p, w.pending = some p → p.call ≠ k := fun p => custody.untaken (by rw [idle]; rfl)
  unfold World.enter
  split
  · rename_i o found
    have unused := custody.cached o found
    have written : Custody data (({ w with cachedCommand := none } : World).setCommand o
        { w.commands o with call := k, data := data k }) :=
      custody.uncache.setCommand nofun (fun k' has => absurd has (unused.unheld k'))
        (fun _ _ => unused.empty) (fun p claimed same => absurd same (unused.unclaimed p claimed))
        fun _ _ replied => nomatch unused.empty.symm.trans replied
    refine written.setCall ?_ ?_ fun p claimed same => absurd same (fresh p claimed)
    · intro o' has
      cases has
      exact ⟨⟨unused.created, by simp [World.setCommand], by simp [World.setCommand],
        by simpa [World.setCommand] using unused.uncancelled⟩, nofun⟩
    · intro o' has
      cases has
      simpa [World.setCommand] using unused.empty
  · rename_i none
    have written : Custody data (({ w with created := w.created + 1 } : World).setCommand w.created
        { call := k, data := data k }) := by
      refine custody.create.setCommand (fun found => nomatch none.symm.trans found) ?_ (fun _ _ => rfl) ?_ nofun
      · intro k' has
        exact absurd (custody.held k' _ has).created (Nat.lt_irrefl _)
      · intro p claimed same
        exact absurd (same ▸ (custody.pending p claimed).created) (Nat.lt_irrefl _)
    refine written.setCall ?_ ?_ fun p claimed same => absurd same (fresh p claimed)
    · intro o has
      cases has
      exact ⟨⟨Nat.lt_succ_self _, by simp [World.setCommand], by simp [World.setCommand],
        by simp [World.setCommand]⟩, fun found => nomatch none.symm.trans found⟩
    · intro o has
      cases has
      simp [World.setCommand]

theorem take (waiting : w.calls k = .waiting o) (free : w.pending = none) :
    Custody data { w.setCall k (.taken o) with pending := some ⟨o, k⟩ } := by
  have has : (w.calls k).command = some o := by rw [waiting]; rfl
  have held := custody.held k o has
  have gone : Custody data (w.setCall k (.taken o)) := by
    refine custody.proceed (fun o' same => ?_) nofun fun p found => ?_
    · cases same
      exact has
    · rw [free] at found
      cases found
  refine gone.claim ⟨held.created, held.call, held.data, custody.empty k o (by rw [waiting]; rfl), ?_, ?_, ?_⟩
    (custody.uncached has)
  all_goals simp only [World.setCall, Function.update_self]
  · rfl
  · rfl
  · intro o' same
    cases same
    rfl

theorem consume {j : ℕ} (taken : w.calls k = .taken o) (replied : (w.commands o).result = some (j, r)) :
    Custody data ((w.setCommand o { w.commands o with result := none }).setCall k (.leaving o r true)) := by
  have has : (w.calls k).command = some o := by rw [taken]; rfl
  have emptied : Custody data (w.setCommand o { w.commands o with result := none }) :=
    custody.setCommand (custody.uncached has)
      (fun k' has' => ⟨(custody.held k' o has').call, (custody.held k' o has').data,
        (custody.held k' o has').uncancelled⟩)
      (fun _ _ => rfl)
      (fun p found same => ⟨same ▸ (custody.pending p found).call, same ▸ (custody.pending p found).data, rfl⟩) nofun
  refine emptied.proceed (fun o' same => ?_) (fun o' same => ?_) fun p found same => ⟨rfl, ?_⟩
  · cases same
    exact has
  · cases Phase.command_of_owned same
    simp [World.setCommand]
  · -- the driver put the command away before it replied
    have claimed := custody.pending p found
    have this := claimed.holds o (same ▸ has)
    rw [this, claimed.empty] at replied
    cases replied

theorem leave {taken : Bool} (leaving : w.calls k = .leaving o r taken) : Custody data (w.leave k o taken r) := by
  have has : (w.calls k).command = some o := by rw [leaving]; rfl
  have held := custody.held k o has
  cases r with
  | none =>
    have owned : (w.calls k).owned = some o := by rw [leaving]; rfl
    have gone : Custody data (w.setCall k (.returned none taken)) :=
      custody.proceed nofun nofun fun p found same => absurd same (custody.unclaimed owned found).1
    have unheld : ∀ k', ((w.setCall k (.returned none taken)).calls k').command ≠ some o := custody.unheld has rfl
    have cleared : Custody data ((w.setCall k (.returned none taken)).setCommand o { w.commands o with data := [] }) :=
      gone.setCommand (custody.uncached has) (fun k' has' => absurd has' (unheld k'))
        (fun k' has' => absurd (Phase.command_of_owned has') (unheld k'))
        (fun p found same => absurd same (custody.unclaimed owned found).2) fun k' r => custody.reply o k' r
    rcases cached : w.cachedCommand with _ | o'
    · have unused : Unused ((w.setCall k (.returned none taken)).setCommand o { w.commands o with data := [] }) o := by
        refine ⟨held.created, ?_, ?_, fun p found => (custody.unclaimed owned found).2, unheld⟩ <;>
          simp only [World.setCommand, Function.update_self]
        exacts [held.uncancelled, custody.empty k o owned]
      exact (cleared.cache unused).congr (by simp [World.leave, cached]) rfl
    · exact cleared.congr (by simp [World.leave, World.setCall, World.setCommand, cached]) rfl
  | some reason =>
    have gone : Custody data (w.setCall k (.returned (some reason) taken)) := by
      refine custody.proceed nofun nofun fun p found same => ⟨?_, rfl⟩
      have was := (custody.pending p found).taken
      rw [same, leaving] at was
      exact was
    have unheld : ∀ k', ((w.setCall k (.returned (some reason) taken)).calls k').command ≠ some o :=
      custody.unheld has rfl
    have cancelled : Custody data ((w.setCall k (.returned (some reason) taken)).setCommand o
        { w.commands o with cancel := true }) := by
      refine gone.setCommand (custody.uncached has) ?_ ?_ ?_ fun k' r => custody.reply o k' r
      · exact fun k' has' => absurd has' (unheld k')
      · exact fun k' owned => absurd (Phase.command_of_owned owned) (unheld k')
      · intro p found same
        have claimed := custody.pending p found
        exact ⟨same ▸ claimed.call, same ▸ claimed.data, same ▸ claimed.empty⟩
    exact cancelled.congr rfl rfl

/-! ## The driver -/

theorem answer (found : w.pending = some p) : Custody data ({ w with pending := none }.setCommand p.command
      { w.commands p.command with result := some (p.call, r) }) := by
  have claimed := custody.pending p found
  have mine : ∀ k, (w.calls k).command = some p.command → k = p.call := fun k has =>
    (custody.held k _ has).call.symm.trans claimed.call
  refine custody.release.setCommand (fun cached => (custody.cached _ cached).unclaimed p found rfl) ?_ ?_ nofun ?_
  · intro k has
    have held := custody.held k _ has
    exact ⟨held.call, held.data, held.uncancelled⟩
  · intro k owned
    have none := Phase.owned_eq_none claimed.taken claimed.unsettled
    rw [← mine k (Phase.command_of_owned owned)] at none
    exact nomatch none.symm.trans owned
  · intro k r replied
    cases replied
    exact claimed.call

end

end Custody

end Socat.Dtls13.Writes
