import Mathlib.Logic.Function.Basic

/-! # Things that are shared

Something with an owner, which can be published and granted to single users with a permission. The users
and the permissions are arbitrary. Grants to different users commute, and taking a first grant back
undoes it. -/
namespace Foundations
set_option autoImplicit false

structure Shareable (υ π : Type) where
  owner : υ
  published : Bool
  grants : υ → Option π

/-- What others can see of the sharing: nobody, those with a grant, everybody. -/
inductive Exposure
  | owner | grantees | everybody
  deriving DecidableEq

namespace Shareable
variable {υ π : Type}

def HasGrants (c : Shareable υ π) : Prop := ∃ u, (c.grants u).isSome

open Classical in
noncomputable def exposure (c : Shareable υ π) : Exposure :=
  if c.published then .everybody else if c.HasGrants then .grantees else .owner

def publish (c : Shareable υ π) (published : Bool) : Shareable υ π := { c with published := published }

variable [DecidableEq υ]

def grant (c : Shareable υ π) (u : υ) (p : π) : Shareable υ π :=
  { c with grants := Function.update c.grants u (some p) }

def revoke (c : Shareable υ π) (u : υ) : Shareable υ π :=
  { c with grants := Function.update c.grants u none }

@[simp] theorem grants_grant_self (c : Shareable υ π) (u : υ) (p : π) : (c.grant u p).grants u = some p :=
  Function.update_self ..

@[simp] theorem grants_revoke_self (c : Shareable υ π) (u : υ) : (c.revoke u).grants u = none :=
  Function.update_self ..

theorem grants_grant_of_ne (c : Shareable υ π) {u v : υ} (p : π) (h : v ≠ u) :
    (c.grant u p).grants v = c.grants v :=
  Function.update_of_ne h ..

theorem grants_revoke_of_ne (c : Shareable υ π) {u v : υ} (h : v ≠ u) :
    (c.revoke u).grants v = c.grants v :=
  Function.update_of_ne h ..

theorem grant_comm (c : Shareable υ π) {u v : υ} (h : u ≠ v) (p q : π) :
    (c.grant u p).grant v q = (c.grant v q).grant u p := by
  unfold grant
  rw [Function.update_comm h]

theorem grant_revoke_comm (c : Shareable υ π) {u v : υ} (h : u ≠ v) (p : π) :
    (c.grant u p).revoke v = (c.revoke v).grant u p := by
  unfold grant revoke
  rw [Function.update_comm h]

theorem revoke_comm (c : Shareable υ π) (u v : υ) : (c.revoke u).revoke v = (c.revoke v).revoke u := by
  by_cases h : u = v
  · rw [h]
  · unfold revoke
    rw [Function.update_comm h]

/-- Taking a grant back leaves what was there without it. -/
@[simp] theorem revoke_grant (c : Shareable υ π) (u : υ) (p : π) : (c.grant u p).revoke u = c.revoke u := by
  unfold grant revoke
  rw [Function.update_idem]

theorem revoke_of_none {c : Shareable υ π} {u : υ} (h : c.grants u = none) : c.revoke u = c := by
  unfold revoke
  rw [← h, Function.update_eq_self]

theorem grant_of_some {c : Shareable υ π} {u : υ} {p : π} (h : c.grants u = some p) : c.grant u p = c := by
  unfold grant
  rw [← h, Function.update_eq_self]

theorem hasGrants_grant (c : Shareable υ π) (u : υ) (p : π) : (c.grant u p).HasGrants :=
  ⟨u, by rw [grants_grant_self]; rfl⟩

theorem hasGrants_revoke {c : Shareable υ π} {u : υ} :
    (c.revoke u).HasGrants ↔ ∃ v, v ≠ u ∧ (c.grants v).isSome := by
  constructor
  · rintro ⟨v, hv⟩
    by_cases h : v = u
    · rw [h, grants_revoke_self] at hv
      cases hv
    · exact ⟨v, h, by rwa [grants_revoke_of_ne c h] at hv⟩
  · rintro ⟨v, h, hv⟩
    exact ⟨v, by rwa [grants_revoke_of_ne c h]⟩

end Shareable
end Foundations
