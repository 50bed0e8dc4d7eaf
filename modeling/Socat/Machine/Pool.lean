import Mathlib.Data.Set.Insert

/-! # Pools of devices that are never restarted

A device emits items one after the other and moves past each of them: a counter that hands out
numbers, a filter that lets every item through once. A pool holds devices under keys. Devices come and
go, but no key gets a second device. Then what was emitted under one key was emitted by one device, in
its order, and a device that is gone stays gone.
-/

namespace Socat.Machine

/-- `past s i` says that the device has moved past the item `i`. -/
structure Device (σ ι : Type*) where
  emit : σ → ι → σ → Prop
  past : σ → ι → Prop
  past_emit : ∀ {s i s'}, emit s i s' → past s' i
  past_mono : ∀ {s i s' j}, emit s i s' → past s j → past s' j

/-- `live` holds the devices, `used` the keys that ever had one, and `emitted` the items of all
devices, newest first. -/
@[ext]
structure Pool (α σ ι : Type*) where
  live : α → Option σ
  used : Set α
  emitted : List (α × ι)

namespace Pool

variable {α σ ι : Type*} [DecidableEq α] {D : Device σ ι} {p p' : Pool α σ ι}

/-- The device of one key changes. -/
def put (p : Pool α σ ι) (a : α) (s : Option σ) : Pool α σ ι :=
  { p with live := Function.update p.live a s }

inductive Step (D : Device σ ι) : Pool α σ ι → Pool α σ ι → Prop
  | emit {p : Pool α σ ι} (a : α) (s : σ) (i : ι) (s' : σ) (live : p.live a = some s)
      (emits : D.emit s i s') : Step D p { p.put a (some s') with emitted := (a, i) :: p.emitted }
  | skip {p : Pool α σ ι} (a : α) (s : σ) (i : ι) (s' : σ) (live : p.live a = some s)
      (emits : D.emit s i s') : Step D p (p.put a (some s'))
  | create {p : Pool α σ ι} (a : α) (s : σ) (unused : a ∉ p.used) :
      Step D p { p.put a (some s) with used := insert a p.used }
  | drop {p : Pool α σ ι} (a : α) : Step D p (p.put a none)

abbrev Steps (D : Device σ ι) : Pool α σ ι → Pool α σ ι → Prop := Relation.ReflTransGen (Step D)

/-! ## What a change of one device leaves alone -/

theorem live_put_self (p : Pool α σ ι) (a : α) (s : Option σ) : (p.put a s).live a = s := by
  simp [put]

theorem live_put_of_ne (p : Pool α σ ι) {a b : α} (different : b ≠ a) (s : Option σ) :
    (p.put a s).live b = p.live b := by
  simp [put, Function.update_of_ne different]

/-- A device found after a change is the new one or an old one. -/
theorem live_put {a b : α} {s : Option σ} {s' : σ} (found : (p.put a s).live b = some s') :
    (b = a ∧ s = some s') ∨ (b ≠ a ∧ p.live b = some s') := by
  by_cases same : b = a
  · subst same
    exact .inl ⟨rfl, (live_put_self p b s).symm.trans found⟩
  · exact .inr ⟨same, (live_put_of_ne p same s).symm.trans found⟩

/-- Several devices are dropped. -/
theorem Steps.drops (p : Pool α σ ι) (keys : List α) :
    Steps D p { p with live := fun a => if a ∈ keys then none else p.live a } := by
  induction keys generalizing p with
  | nil => simpa using Relation.ReflTransGen.refl
  | cons key rest ih =>
    have both : (fun a => if a ∈ rest then none else (p.put key none).live a)
        = fun a => if a ∈ key :: rest then none else p.live a := by
      funext a
      by_cases same : a = key
      · simp [same, put]
      · simp [same, live_put_of_ne p same]
    exact .head (.drop key) (both ▸ ih (p.put key none))

/-! ## Soundness -/

structure Sound (D : Device σ ι) (p : Pool α σ ι) : Prop where
  live_used : ∀ a s, p.live a = some s → a ∈ p.used
  emitted_used : ∀ x ∈ p.emitted, x.1 ∈ p.used
  past : ∀ x ∈ p.emitted, ∀ s, p.live x.1 = some s → D.past s x.2
  ordered : p.emitted.Pairwise fun later earlier =>
    later.1 = earlier.1 → ∃ s s', D.past s earlier.2 ∧ D.emit s later.2 s'

omit [DecidableEq α] in
/-- Nothing was emitted yet. -/
theorem Sound.of_unused (unused : p.emitted = []) (used : ∀ a s, p.live a = some s → a ∈ p.used) : p.Sound D where
  live_used := used
  emitted_used := by simp [unused]
  past := by simp [unused]
  ordered := by simp [unused]

/-- A device that emits moves on, and stays past what it was past. -/
theorem Sound.advance (sound : p.Sound D) {a : α} {s s' : σ} {i : ι} (live : p.live a = some s)
    (emits : D.emit s i s') : (p.put a (some s')).Sound D where
  live_used b t found := by
    rcases live_put found with ⟨rfl, -⟩ | ⟨-, before⟩
    · exact sound.live_used b s live
    · exact sound.live_used b t before
  emitted_used := sound.emitted_used
  past x member t found := by
    rcases live_put found with ⟨same, ⟨⟩⟩ | ⟨-, before⟩
    · exact D.past_mono emits (sound.past x member s (same ▸ live))
    · exact sound.past x member t before
  ordered := sound.ordered

theorem Step.sound (step : Step D p p') (sound : p.Sound D) : p'.Sound D := by
  cases step with
  | emit a s i s' live emits =>
    obtain ⟨live_used, emitted_used, past, ordered⟩ := sound.advance live emits
    refine ⟨live_used, ?_, ?_, ?_⟩
    · exact List.forall_mem_cons.mpr ⟨sound.live_used a s live, emitted_used⟩
    · refine List.forall_mem_cons.mpr ⟨fun t found => ?_, past⟩
      obtain ⟨-, ⟨⟩⟩ | ⟨different, -⟩ := live_put found
      · exact D.past_emit emits
      · exact absurd rfl different
    · refine List.pairwise_cons.mpr ⟨fun x member same => ?_, ordered⟩
      exact ⟨s, s', sound.past x member s (same ▸ live), emits⟩
  | skip a s i s' live emits => exact sound.advance live emits
  | create a s unused =>
    refine ⟨fun b t found => ?_, fun x member => ?_, fun x member t found => ?_, sound.ordered⟩
    · rcases live_put found with ⟨rfl, -⟩ | ⟨-, before⟩
      · exact Set.mem_insert b p.used
      · exact Set.mem_insert_of_mem a (sound.live_used b t before)
    · exact Set.mem_insert_of_mem a (sound.emitted_used x member)
    · rcases live_put found with ⟨same, -⟩ | ⟨-, before⟩
      · exact absurd (sound.emitted_used x member) (same ▸ unused)
      · exact sound.past x member t before
  | drop a =>
    have kept : ∀ {b t}, (p.put a none).live b = some t → p.live b = some t := by
      intro b t found
      rcases live_put found with ⟨-, ⟨⟩⟩ | ⟨-, before⟩
      exact before
    exact ⟨fun b t found => sound.live_used b t (kept found), sound.emitted_used,
      fun x member t found => sound.past x member t (kept found), sound.ordered⟩

theorem Steps.sound (steps : Steps D p p') (sound : p.Sound D) : p'.Sound D := by
  induction steps with
  | refl => exact sound
  | tail _ step ih => exact step.sound ih

/-! ## Devices over time -/

theorem Step.used (step : Step D p p') {a : α} (used : a ∈ p.used) : a ∈ p'.used := by
  cases step with
  | create b => exact Set.mem_insert_of_mem b used
  | emit | skip | drop => exact used

theorem Steps.used (steps : Steps D p p') {a : α} (used : a ∈ p.used) : a ∈ p'.used := by
  induction steps with
  | refl => exact used
  | tail _ step ih => exact step.used ih

theorem Step.gone (step : Step D p p') {a : α} (used : a ∈ p.used) (gone : p.live a = none) : p'.live a = none := by
  cases step with
  | emit b s i s' live | skip b s i s' live =>
    have different : a ≠ b := fun same => by simp [same, live] at gone
    exact (live_put_of_ne p different _).trans gone
  | create b s unused =>
    have different : a ≠ b := fun same => unused (same ▸ used)
    exact (live_put_of_ne p different _).trans gone
  | drop b =>
    by_cases same : a = b
    · exact same ▸ live_put_self p a none
    · exact (live_put_of_ne p same _).trans gone

/-- A device that is gone does not come back. -/
theorem Steps.gone (steps : Steps D p p') {a : α} (used : a ∈ p.used) (gone : p.live a = none) :
    p'.live a = none := by
  induction steps with
  | refl => exact gone
  | tail before step ih => exact step.gone (Steps.used before used) ih

/-- A device that is gone emits nothing more. -/
theorem Steps.silent (steps : Steps D p p') {a : α} (used : a ∈ p.used) (gone : p.live a = none) :
    p'.emitted.countP (·.1 = a) = p.emitted.countP (·.1 = a) := by
  induction steps with
  | refl => rfl
  | tail before step ih =>
    rw [← ih]
    cases step with
    | emit b s i s' live =>
      have different : b ≠ a := by
        rintro rfl
        exact absurd ((Steps.gone before used gone).symm.trans live) (by simp)
      exact List.countP_cons_of_neg (by simpa using different)
    | skip | create | drop => rfl

section Follows

variable {R : σ → σ → Prop} (refl : ∀ s, R s s) (emits : ∀ {s i s'}, D.emit s i s' → R s s')

include refl emits in
theorem Step.follows (step : Step D p p') (sound : p.Sound D) {a : α} {s s' : σ}
    (before : p.live a = some s) (after : p'.live a = some s') : R s s' := by
  have unchanged : p.live a = some s' → R s s' := fun same => by
    obtain rfl := Option.some.inj (before.symm.trans same)
    exact refl s
  cases step with
  | emit b t i t' live emitted | skip b t i t' live emitted =>
    rcases live_put after with ⟨rfl, ⟨⟩⟩ | ⟨-, same⟩
    · obtain rfl := Option.some.inj (before.symm.trans live)
      exact emits emitted
    · exact unchanged same
  | create b t unused =>
    rcases live_put after with ⟨rfl, -⟩ | ⟨-, same⟩
    · exact absurd (sound.live_used a s before) unused
    · exact unchanged same
  | drop b =>
    rcases live_put after with ⟨-, ⟨⟩⟩ | ⟨-, same⟩
    exact unchanged same

include refl emits in
/-- A device at two moments is one device that moved on. -/
theorem Steps.follows (trans : ∀ {s t u}, R s t → R t u → R s u) (steps : Steps D p p')
    (sound : p.Sound D) {a : α} {s s' : σ} (before : p.live a = some s) (after : p'.live a = some s') : R s s' := by
  induction steps using Relation.ReflTransGen.head_induction_on generalizing s with
  | refl =>
    obtain rfl := Option.some.inj (before.symm.trans after)
    exact refl s
  | @head p₀ p₁ step rest ih =>
    cases middle : p₁.live a with
    | none =>
      have gone := Steps.gone rest (step.used (sound.live_used a s before)) middle
      exact absurd (gone.symm.trans after) (by simp)
    | some t => exact trans (step.follows refl emits sound before middle) (ih (step.sound sound) middle)

end Follows

end Pool

end Socat.Machine
