import Mathlib.Algebra.Order.Group.Defs
import Mathlib.Tactic.Abel

/-! # Leases that are renewed by use

A lease expires `ttl` after it was last renewed. A use renews it when `slack` or more has passed since, and
the time of the last renewal is read off the expiry. What is kept is `Fresh`: after a use the expiry is at
most `slack` short of a full `ttl`. -/
namespace Foundations
namespace Lease
set_option autoImplicit false

variable {T : Type} [AddCommGroup T] [LinearOrder T]

/-- The expiry after a use at `now`. -/
def renew (ttl slack now expiry : T) : T := if now - (expiry - ttl) ≥ slack then now + ttl else expiry

/-- The expiry of a lease that was last used at `used`. -/
structure Fresh (ttl slack used expiry : T) : Prop where
  lower : used + ttl - slack ≤ expiry
  upper : expiry ≤ used + ttl

variable {ttl slack used now expiry : T}

/-- Used again soon enough, it has not expired. -/
theorem Fresh.live (h : Fresh ttl slack used expiry) (hsoon : now < used + ttl - slack) : now < expiry :=
  lt_of_lt_of_le hsoon h.lower

/-- Left unused for `ttl`, it has expired. -/
theorem Fresh.expired (h : Fresh ttl slack used expiry) (hlate : used + ttl ≤ now) : expiry ≤ now :=
  h.upper.trans hlate

variable [IsOrderedAddMonoid T]

theorem fresh_new (ttl now : T) (hslack : 0 ≤ slack) : Fresh ttl slack now (now + ttl) :=
  ⟨sub_le_self _ hslack, le_refl _⟩

theorem Fresh.renew (h : Fresh ttl slack used expiry) (hslack : 0 ≤ slack) (hle : used ≤ now) :
    Fresh ttl slack now (renew ttl slack now expiry) := by
  unfold Lease.renew
  split
  · exact fresh_new ttl now hslack
  · next hrecent =>
    constructor
    · have hlt : now - (expiry - ttl) < slack := not_le.mp hrecent
      have hswap : now + ttl - slack < expiry := by
        rw [sub_lt_iff_lt_add] at hlt ⊢
        calc now + ttl < slack + (expiry - ttl) + ttl := add_lt_add_left hlt ttl
          _ = expiry + slack := by abel
      exact hswap.le
    · exact h.upper.trans (add_le_add_left hle ttl)

end Lease
end Foundations
