import Mathlib.Algebra.Order.BigOperators.Group.Finset

/-! # Reservations from a shared amount

The members of a group reserve shares of a limited amount and give every share back as a whole. The books record the
amount in use, the shares each member holds, and all it ever reserved and released. In every state the amount in use
is what the members hold, and a member has released each share it does not hold, once.
-/

namespace Socat.Machine

open Function

/-- The books of an amount that is shared. -/
structure Reservations (ι : Type*) where
  used : ℤ
  limit : ℤ
  members : Finset ι
  held : ι → Multiset ℕ
  reserved : ι → Multiset ℕ
  released : ι → Multiset ℕ

namespace Reservations

variable {ι : Type*} [DecidableEq ι] {r r' : Reservations ι}

inductive Step (r : Reservations ι) : Reservations ι → Prop
  | join (i : ι) (new : i ∉ r.members) (nothing : r.held i = 0) :
      Step r { r with members := insert i r.members }
  | reserve (i : ι) (n : ℕ) (member : i ∈ r.members) (room : (n : ℤ) ≤ r.limit - r.used) :
      Step r { r with
        used := r.used + n
        held := update r.held i (n ::ₘ r.held i)
        reserved := update r.reserved i (n ::ₘ r.reserved i) }
  | release (i : ι) (n : ℕ) (rest : Multiset ℕ) (member : i ∈ r.members) (share : r.held i = n ::ₘ rest) :
      Step r { r with
        used := r.used - n
        held := update r.held i rest
        released := update r.released i (n ::ₘ r.released i) }

structure Balanced (r : Reservations ι) : Prop where
  total : r.used = ∑ i ∈ r.members, ((r.held i).sum : ℤ)
  bounded : r.used ≤ r.limit
  once : ∀ i, r.reserved i = r.released i + r.held i

omit [DecidableEq ι] in
theorem Balanced.nonneg (balanced : r.Balanced) : 0 ≤ r.used := by
  rw [balanced.total]
  exact Finset.sum_nonneg fun _ _ => Int.natCast_nonneg _

/-- The total moves with the one member that changes. -/
theorem sum_update {members : Finset ι} {i : ι} (member : i ∈ members) (held : ι → Multiset ℕ) (share : Multiset ℕ) :
    (∑ j ∈ members, ((update held i share j).sum : ℤ)) =
      (∑ j ∈ members, ((held j).sum : ℤ)) + share.sum - (held i).sum := by
  have others : ∀ j ∈ members.erase i, ((update held i share j).sum : ℤ) = (held j).sum := by
    intro j listed
    rw [update_of_ne (Finset.ne_of_mem_erase listed)]
  rw [← Finset.add_sum_erase _ _ member, ← Finset.add_sum_erase _ _ member, Finset.sum_congr rfl others,
    update_self]
  omega

theorem Step.balanced (step : Step r r') (balanced : r.Balanced) : r'.Balanced := by
  cases step with
  | join i new nothing =>
    refine ⟨?_, balanced.bounded, balanced.once⟩
    dsimp only
    rw [Finset.sum_insert new, nothing, Multiset.sum_zero, Int.natCast_zero, zero_add]
    exact balanced.total
  | reserve i n member room =>
    refine ⟨?_, by dsimp only; omega, fun j => ?_⟩
    · dsimp only
      rw [sum_update member, ← balanced.total, Multiset.sum_cons]
      omega
    · by_cases here : j = i
      · subst here
        simp only [update_self, Multiset.add_cons, balanced.once j]
      · simp only [update_of_ne here, balanced.once j]
  | release i n rest member share =>
    refine ⟨?_, ?_, fun j => ?_⟩
    · dsimp only
      rw [sum_update member, ← balanced.total, share, Multiset.sum_cons]
      omega
    · have := balanced.bounded
      dsimp only
      omega
    · by_cases here : j = i
      · subst here
        simp only [update_self, balanced.once j, share, Multiset.add_cons, Multiset.cons_add]
      · simp only [update_of_ne here, balanced.once j]

end Reservations

end Socat.Machine
