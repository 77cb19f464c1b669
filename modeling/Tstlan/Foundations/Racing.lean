import Tstlan.Foundations.Sharing

/-! # Two edits of one shared thing, committed from the same snapshot

The exposure is stored next to the grants. An edit computes it from the snapshot it has loaded and writes
it only when it differs from the loaded one; of the grants it writes the one it is about. When two edits
load the same snapshot, the second commit does not see what the first has written. `raced_serial_iff` says
for which pairs the outcome is that of a serial order. -/
namespace Foundations
set_option autoImplicit false

inductive SharingOp (υ π : Type)
  | keep
  | publish (published : Bool)
  | grant (u : υ) (p : π)
  | revoke (u : υ)
  deriving DecidableEq

/-- What is stored after a commit: what is there, unless the edit changed what it had loaded. -/
def merge {α : Type} [DecidableEq α] (loaded new cur : α) : α := if new = loaded then cur else new

namespace Shareable
variable {υ π : Type}

/-- The exposure that goes with a flag and with whether there are grants. -/
def exposureOf : Bool → Bool → Exposure
  | true, _ => .everybody
  | false, true => .grantees
  | false, false => .owner

open Classical in
noncomputable def hasGrants (c : Shareable υ π) : Bool := decide c.HasGrants

theorem hasGrants_eq_true {c : Shareable υ π} : c.hasGrants = true ↔ c.HasGrants := by
  classical
  unfold hasGrants
  exact decide_eq_true_iff

theorem exposure_eq (c : Shareable υ π) : c.exposure = exposureOf c.published c.hasGrants := by
  unfold exposure hasGrants
  cases c.published
  · by_cases h : c.HasGrants
    · simp [h, exposureOf]
    · simp [h, exposureOf]
  · simp [exposureOf]

/-- Grants show unless the document is published. -/
theorem exposureOf_eq_true_iff (published hasGrants : Bool) :
    exposureOf published hasGrants = exposureOf published true ↔ ¬ (published = false ∧ hasGrants = false) := by
  revert published hasGrants
  decide

end Shareable

namespace SharingOp
variable {υ π : Type}

/-- A grant that is taken back must be there. -/
def Enabled (c : Shareable υ π) : SharingOp υ π → Prop
  | revoke u => (c.grants u).isSome
  | _ => True

/-- The edit adds the first grant or takes back the last one. -/
def Toggles (c : Shareable υ π) : SharingOp υ π → Prop
  | grant _ _ => ¬ c.HasGrants
  | revoke u => ∀ v, v ≠ u → c.grants v = none
  | _ => False

/-- The pairs that interfere when `a` commits first: an edit that takes a publication back against a
change of whether there are grants; a publication that is committed before such a change; and, on what is
not published, a new grant against the end of the last one, or the end of the last two. -/
def Conflict (c : Shareable υ π) (a b : SharingOp υ π) : Prop :=
  (c.published = true ∧ (a = publish false ∧ b.Toggles c ∨ b = publish false ∧ a.Toggles c)) ∨
  (c.published = false ∧ a = publish true ∧ b.Toggles c) ∨
  (c.published = false ∧ ∃ u v, u ≠ v ∧
    ((∃ p, a = grant u p ∧ b = revoke v ∧ b.Toggles c) ∨
      (∃ p, b = grant u p ∧ a = revoke v ∧ a.Toggles c) ∨
      a = revoke u ∧ b = revoke v ∧ ∀ w, w ≠ u → w ≠ v → c.grants w = none))

variable {c : Shareable υ π} {a b : SharingOp υ π} {u v : υ} {p q : π}

noncomputable def view (c : Shareable υ π) : Exposure × (υ → Option π) := (c.exposure, c.grants)

theorem view_eq (c : Shareable υ π) :
    view c = (Shareable.exposureOf c.published c.hasGrants, c.grants) := by
  rw [view, Shareable.exposure_eq]

theorem view_publish (c : Shareable υ π) (x : Bool) :
    view (c.publish x) = (Shareable.exposureOf x c.hasGrants, c.grants) :=
  view_eq _

theorem hasGrants_of_enabled (h : (revoke u : SharingOp υ π).Enabled c) : c.hasGrants = true :=
  Shareable.hasGrants_eq_true.mpr ⟨u, h⟩

theorem toggles_grant : (grant u p).Toggles c ↔ c.hasGrants = false := by
  rw [← Bool.not_eq_true, Shareable.hasGrants_eq_true]
  rfl

/-! ## Edits of the flag and edits of the grants -/

/-- The flag after an edit that is about the flag. -/
def flag (c : Shareable υ π) : SharingOp υ π → Bool
  | publish published => published
  | _ => c.published

/-- The edit is about the flag, not about the grants. -/
def OfFlag : SharingOp υ π → Prop
  | keep => True
  | publish _ => True
  | _ => False

/-- The edit is about the grants. -/
def OfGrants : SharingOp υ π → Prop
  | grant _ _ => True
  | revoke _ => True
  | _ => False

theorem not_conflict_flags (ha : a.OfFlag) (hb : b.OfFlag) : ¬ Conflict c a b := by
  have htoggles : ∀ op : SharingOp υ π, op.OfFlag → ¬ op.Toggles c := by
    intro op hop
    cases op with
    | keep => exact fun h => h
    | publish published => exact fun h => h
    | grant u p => cases hop
    | revoke u => cases hop
  rintro (⟨-, ⟨-, h⟩ | ⟨-, h⟩⟩ | ⟨-, -, h⟩ | ⟨-, u, v, -, ⟨p, rfl, -⟩ | ⟨p, rfl, -⟩ | ⟨rfl, -⟩⟩)
  · exact htoggles b hb h
  · exact htoggles a ha h
  · exact htoggles b hb h
  · cases ha
  · cases hb
  · cases ha

theorem conflict_flag_grants (ha : a.OfFlag) :
    Conflict c a b ↔ c.published ≠ a.flag c ∧ b.Toggles c := by
  cases a with
  | grant u p => cases ha
  | revoke u => cases ha
  | keep =>
    refine iff_of_false ?_ (fun h => h.1 rfl)
    rintro (⟨-, ⟨h, -⟩ | ⟨-, h⟩⟩ | ⟨-, h, -⟩ | ⟨-, u, v, -, ⟨p, h, -⟩ | ⟨p, -, h, -⟩ | ⟨h, -⟩⟩)
    · cases h
    · cases h
    · cases h
    · cases h
    · cases h
    · cases h
  | publish x =>
    have hflag : (publish x : SharingOp υ π).flag c = x := rfl
    rw [hflag]
    constructor
    · rintro (⟨hp, ⟨h, ht⟩ | ⟨-, h⟩⟩ | ⟨hp, h, ht⟩ | ⟨-, u, v, -, ⟨p, h, -⟩ | ⟨p, -, h, -⟩ | ⟨h, -⟩⟩)
      · cases h
        exact ⟨by rw [hp]; decide, ht⟩
      · cases h
      · cases h
        exact ⟨by rw [hp]; decide, ht⟩
      · cases h
      · cases h
      · cases h
    · rintro ⟨hne, ht⟩
      cases hp : c.published with
      | true =>
        cases x with
        | true => exact absurd hp hne
        | false => exact .inl ⟨hp, .inl ⟨rfl, ht⟩⟩
      | false =>
        cases x with
        | true => exact .inr (.inl ⟨hp, rfl, ht⟩)
        | false => exact absurd hp hne

theorem conflict_grants_flag (ha : a.OfGrants) (hb : b.OfFlag) :
    Conflict c a b ↔ (c.published = true ∧ b.flag c = false) ∧ a.Toggles c := by
  cases b with
  | grant u p => cases hb
  | revoke u => cases hb
  | keep =>
    refine iff_of_false ?_ (fun h => ?_)
    · rintro (⟨-, ⟨-, h⟩ | ⟨h, -⟩⟩ | ⟨-, -, h⟩ | ⟨-, u, v, -, ⟨p, -, h, -⟩ | ⟨p, h, -⟩ | ⟨-, h, -⟩⟩)
      · exact h
      · cases h
      · exact h
      · cases h
      · cases h
      · cases h
    · have hflag : (keep : SharingOp υ π).flag c = c.published := rfl
      obtain ⟨⟨hp, hx⟩, -⟩ := h
      rw [hflag, hp] at hx
      cases hx
  | publish x =>
    have hflag : (publish x : SharingOp υ π).flag c = x := rfl
    rw [hflag]
    constructor
    · rintro (⟨hp, ⟨h, -⟩ | ⟨h, ht⟩⟩ | ⟨-, -, h⟩ | ⟨-, u, v, -, ⟨p, -, h, -⟩ | ⟨p, h, -⟩ | ⟨-, h, -⟩⟩)
      · subst h
        cases ha
      · cases h
        exact ⟨⟨hp, rfl⟩, ht⟩
      · exact absurd h (fun h => h)
      · cases h
      · cases h
      · cases h
    · rintro ⟨⟨hp, rfl⟩, ht⟩
      exact .inl ⟨hp, .inr ⟨rfl, ht⟩⟩

/-- Between two edits of the grants only the last disjunct of a conflict is possible. -/
theorem conflict_grants (ha : a.OfGrants) (hb : b.OfGrants) :
    Conflict c a b ↔ c.published = false ∧ ∃ u v, u ≠ v ∧
      ((∃ p, a = grant u p ∧ b = revoke v ∧ b.Toggles c) ∨
        (∃ p, b = grant u p ∧ a = revoke v ∧ a.Toggles c) ∨
        a = revoke u ∧ b = revoke v ∧ ∀ w, w ≠ u → w ≠ v → c.grants w = none) := by
  unfold Conflict
  constructor
  · rintro (⟨-, ⟨rfl, -⟩ | ⟨rfl, -⟩⟩ | ⟨-, rfl, -⟩ | h)
    · cases ha
    · cases hb
    · cases ha
    · exact h
  · exact fun h => .inr (.inr h)

/-! ## The outcome of one edit -/

variable [DecidableEq υ]

def apply (c : Shareable υ π) : SharingOp υ π → Shareable υ π
  | keep => c
  | publish published => c.publish published
  | grant u p => c.grant u p
  | revoke u => c.revoke u

theorem hasGrants_apply_grant : ((grant u p).apply c).hasGrants = true :=
  Shareable.hasGrants_eq_true.mpr (c.hasGrants_grant u p)

theorem toggles_revoke : (revoke u : SharingOp υ π).Toggles c ↔
    ((revoke u : SharingOp υ π).apply c).hasGrants = false := by
  rw [← Bool.not_eq_true, Shareable.hasGrants_eq_true]
  show (∀ v, v ≠ u → c.grants v = none) ↔ ¬ (c.revoke u).HasGrants
  rw [Shareable.hasGrants_revoke]
  constructor
  · rintro h ⟨v, hv, hsome⟩
    rw [h v hv] at hsome
    cases hsome
  · intro h v hv
    by_contra hne
    exact h ⟨v, hv, Option.isSome_iff_ne_none.mpr hne⟩

/-- An enabled edit toggles exactly when it changes whether there are grants. -/
theorem toggles_iff (h : b.Enabled c) : b.Toggles c ↔ (b.apply c).hasGrants ≠ c.hasGrants := by
  cases b with
  | keep => exact iff_of_false (fun h => h) (fun h => h rfl)
  | publish published => exact iff_of_false (fun h => h) (fun h => h rfl)
  | grant u p =>
    rw [toggles_grant, hasGrants_apply_grant]
    cases c.hasGrants <;> simp
  | revoke u =>
    rw [toggles_revoke, hasGrants_of_enabled h]
    cases ((revoke u : SharingOp υ π).apply c).hasGrants <;> simp

theorem apply_ofFlag (h : a.OfFlag) (d : Shareable υ π) : a.apply d = d.publish (a.flag d) := by
  cases a with
  | keep => rfl
  | publish published => rfl
  | grant u p => cases h
  | revoke u => cases h

theorem apply_publish (h : b.OfGrants) (x : Bool) : b.apply (c.publish x) = (b.apply c).publish x := by
  cases b with
  | keep => cases h
  | publish published => cases h
  | grant u p => rfl
  | revoke u => rfl

/-- The two orders of an edit of the flag and one of the grants. -/
theorem flag_grants_comm (ha : a.OfFlag) (hb : b.OfGrants) :
    b.apply (a.apply c) = (b.apply c).publish (a.flag c) ∧
      a.apply (b.apply c) = (b.apply c).publish (a.flag c) := by
  refine ⟨by rw [apply_ofFlag ha, apply_publish hb], ?_⟩
  rw [apply_ofFlag ha]
  cases a with
  | grant u p => cases ha
  | revoke u => cases ha
  | publish x => rfl
  | keep =>
    cases b with
    | keep => cases hb
    | publish published => cases hb
    | grant u p => rfl
    | revoke u => rfl

theorem exposure_ofFlag (h : a.OfFlag) :
    (a.apply c).exposure = Shareable.exposureOf (a.flag c) c.hasGrants := by
  rw [apply_ofFlag h]
  exact Shareable.exposure_eq _

theorem exposure_ofGrants (h : b.OfGrants) :
    (b.apply c).exposure = Shareable.exposureOf c.published (b.apply c).hasGrants := by
  rw [Shareable.exposure_eq]
  cases b with
  | keep => cases h
  | publish published => cases h
  | grant u p => rfl
  | revoke u => rfl

theorem exposure_grant (d : Shareable υ π) (u : υ) (p : π) :
    ((grant u p).apply d).exposure = Shareable.exposureOf d.published true := by
  rw [Shareable.exposure_eq, hasGrants_apply_grant]
  rfl

theorem exposure_revoke (d : Shareable υ π) (u : υ) :
    ((revoke u : SharingOp υ π).apply d).exposure =
      Shareable.exposureOf d.published ((revoke u : SharingOp υ π).apply d).hasGrants :=
  Shareable.exposure_eq _

/-! ## The writes of an edit -/

/-- The write to the exposure of an edit that loaded `c`. -/
noncomputable def writeExposure (c : Shareable υ π) (e : Exposure) (op : SharingOp υ π) : Exposure :=
  if (op.apply c).exposure = c.exposure then e else (op.apply c).exposure

variable [DecidableEq π]

/-- The write to the grants of an edit that loaded `c`; a permission that is there already is not written. -/
def writeGrants (c : Shareable υ π) (G : υ → Option π) : SharingOp υ π → υ → Option π
  | grant u p => if c.grants u = some p then G else Function.update G u (some p)
  | revoke u => Function.update G u none
  | _ => G

theorem writeGrants_eq {op : SharingOp υ π} (h : op.Enabled c) (G : υ → Option π) (v : υ) :
    op.writeGrants c G v = merge (c.grants v) ((op.apply c).grants v) (G v) := by
  unfold merge
  cases op with
  | keep => exact (if_pos rfl).symm
  | publish published => exact (if_pos rfl).symm
  | grant u p =>
    show (if c.grants u = some p then G else Function.update G u (some p)) v =
      if (c.grant u p).grants v = c.grants v then G v else (c.grant u p).grants v
    by_cases hv : v = u
    · subst hv
      rw [Shareable.grants_grant_self]
      by_cases hp : c.grants v = some p
      · rw [if_pos hp, if_pos hp.symm]
      · rw [if_neg hp, if_neg (Ne.symm hp), Function.update_self]
    · rw [Shareable.grants_grant_of_ne c p hv, if_pos rfl]
      split
      · rfl
      · exact Function.update_of_ne hv ..
  | revoke u =>
    show Function.update G u none v = if (c.revoke u).grants v = c.grants v then G v else (c.revoke u).grants v
    by_cases hv : v = u
    · subst hv
      have hheld : none ≠ c.grants v := by
        intro hnone
        rw [Enabled, ← hnone] at h
        cases h
      rw [Shareable.grants_revoke_self, Function.update_self, if_neg hheld]
    · rw [Shareable.grants_revoke_of_ne c hv, if_pos rfl]
      exact Function.update_of_ne hv ..

/-- What is stored after `a` and then `b` have committed, both from `c`. -/
noncomputable def raced (c : Shareable υ π) (a b : SharingOp υ π) : Exposure × (υ → Option π) :=
  (b.writeExposure c (a.writeExposure c c.exposure), b.writeGrants c (a.writeGrants c c.grants))

theorem writeGrants_self (c : Shareable υ π) (op : SharingOp υ π) :
    op.writeGrants c c.grants = (op.apply c).grants := by
  cases op with
  | keep => rfl
  | publish published => rfl
  | revoke u => rfl
  | grant u p =>
    show (if c.grants u = some p then c.grants else Function.update c.grants u (some p)) = (c.grant u p).grants
    split
    · next h => rw [Shareable.grant_of_some h]
    · rfl

theorem raced_eq (c : Shareable υ π) (a b : SharingOp υ π) :
    raced c a b =
      (if (b.apply c).exposure = c.exposure then (a.apply c).exposure else (b.apply c).exposure,
        b.writeGrants c (a.apply c).grants) := by
  unfold raced writeExposure
  rw [writeGrants_self]
  congr 1
  by_cases h : (a.apply c).exposure = c.exposure
  · rw [if_pos h, h]
  · rw [if_neg h]

/-- The outcome is that of one of the two orders. -/
def Serial (c : Shareable υ π) (a b : SharingOp υ π) : Prop :=
  raced c a b = view (b.apply (a.apply c)) ∨ raced c a b = view (a.apply (b.apply c))

/-- When both orders lead to `d` and the grants are those of `d`, the exposure decides. -/
theorem serial_iff {d : Shareable υ π} (hab : b.apply (a.apply c) = d) (hba : a.apply (b.apply c) = d)
    (hgrants : b.writeGrants c (a.apply c).grants = d.grants) :
    Serial c a b ↔
      (if (b.apply c).exposure = c.exposure then (a.apply c).exposure else (b.apply c).exposure) =
        d.exposure := by
  unfold Serial
  rw [hab, hba, or_self_iff, raced_eq, hgrants, view, Prod.mk.injEq, and_iff_left rfl]

/-! ## Two edits of the flag -/

theorem writeGrants_ofFlag (h : a.OfFlag) (G : υ → Option π) : a.writeGrants c G = G := by
  cases a with
  | keep => rfl
  | publish published => rfl
  | grant u p => cases h
  | revoke u => cases h

theorem serial_flag_flag (ha : a.OfFlag) (hb : b.OfFlag) : Serial c a b := by
  have hraced : raced c a b =
      (if Shareable.exposureOf (b.flag c) c.hasGrants = Shareable.exposureOf c.published c.hasGrants then
        Shareable.exposureOf (a.flag c) c.hasGrants else Shareable.exposureOf (b.flag c) c.hasGrants,
        c.grants) := by
    rw [raced_eq, exposure_ofFlag ha, exposure_ofFlag hb, writeGrants_ofFlag hb, apply_ofFlag ha,
      Shareable.exposure_eq]
    rfl
  unfold Serial
  rw [hraced, apply_ofFlag hb (a.apply c), apply_ofFlag ha (b.apply c), apply_ofFlag ha c, apply_ofFlag hb c]
  show _ = view (c.publish _) ∨ _ = view (c.publish _)
  rw [view_publish, view_publish, Prod.mk.injEq, and_iff_left rfl, Prod.mk.injEq, and_iff_left rfl]
  cases b with
  | grant u p => cases hb
  | revoke u => cases hb
  | keep => exact .inl (if_pos rfl)
  | publish y =>
    by_cases h : Shareable.exposureOf y c.hasGrants = Shareable.exposureOf c.published c.hasGrants
    · rw [show (publish y : SharingOp υ π).flag c = y from rfl, if_pos h]
      cases a with
      | grant u p => cases ha
      | revoke u => cases ha
      | keep => exact .inl h.symm
      | publish x => exact .inr rfl
    · exact .inl (if_neg h)

/-! ## An edit of the flag against one of the grants -/

theorem serial_flag_grants (ha : a.OfFlag) (hb : b.OfGrants) (hen : b.Enabled c) :
    Serial c a b ↔ ¬ Conflict c a b := by
  obtain ⟨hab, hba⟩ := flag_grants_comm (c := c) ha hb
  have hgrants : b.writeGrants c (a.apply c).grants = ((b.apply c).publish (a.flag c)).grants := by
    rw [apply_ofFlag ha]
    exact writeGrants_self c b
  have htable : ∀ p x h₀ h : Bool,
      (if Shareable.exposureOf p h = Shareable.exposureOf p h₀ then Shareable.exposureOf x h₀
        else Shareable.exposureOf p h) = Shareable.exposureOf x h ↔ ¬ (p ≠ x ∧ h ≠ h₀) := by
    decide
  rw [serial_iff hab hba hgrants, conflict_flag_grants ha, toggles_iff hen, exposure_ofFlag ha,
    exposure_ofGrants hb, Shareable.exposure_eq c, Shareable.exposure_eq (Shareable.publish _ _)]
  exact htable c.published (a.flag c) c.hasGrants (b.apply c).hasGrants

theorem serial_grants_flag (ha : a.OfGrants) (hb : b.OfFlag) (hen : a.Enabled c) :
    Serial c a b ↔ ¬ Conflict c a b := by
  obtain ⟨hba, hab⟩ := flag_grants_comm (c := c) hb ha
  have hgrants : b.writeGrants c (a.apply c).grants = ((a.apply c).publish (b.flag c)).grants :=
    writeGrants_ofFlag hb _
  have htable : ∀ p x h₀ h : Bool,
      (if Shareable.exposureOf x h₀ = Shareable.exposureOf p h₀ then Shareable.exposureOf p h
        else Shareable.exposureOf x h₀) = Shareable.exposureOf x h ↔
          ¬ ((p = true ∧ x = false) ∧ h ≠ h₀) := by
    decide
  rw [serial_iff hab hba hgrants, conflict_grants_flag ha hb, toggles_iff hen, exposure_ofFlag hb,
    exposure_ofGrants ha, Shareable.exposure_eq c, Shareable.exposure_eq (Shareable.publish _ _)]
  exact htable c.published (b.flag c) c.hasGrants (a.apply c).hasGrants

/-! ## Two edits of the grants -/

theorem serial_grant_grant (c : Shareable υ π) (u v : υ) (p q : π) :
    Serial c (grant u p) (grant v q) ∧ ¬ Conflict c (grant u p) (grant v q) := by
  refine ⟨?_, ?_⟩
  · unfold Serial
    rw [raced_eq, exposure_grant, exposure_grant, view_eq, view_eq, hasGrants_apply_grant,
      hasGrants_apply_grant, ite_id]
    have hwrite : (grant v q).writeGrants c ((grant u p).apply c).grants =
        if c.grants v = some q then (c.grant u p).grants else ((c.grant u p).grant v q).grants := rfl
    rw [hwrite]
    by_cases h : c.grants v = some q
    · right
      rw [if_pos h]
      have hsame : (grant v q).apply c = c := Shareable.grant_of_some h
      rw [hsame]
      rfl
    · left
      rw [if_neg h]
      rfl
  · rw [conflict_grants (a := grant u p) (b := grant v q) trivial trivial]
    rintro ⟨-, x, y, -, ⟨-, -, h, -⟩ | ⟨-, -, h, -⟩ | ⟨h, -⟩⟩
    · cases h
    · cases h
    · cases h

theorem serial_grant_revoke {v : υ} (hen : (revoke v : SharingOp υ π).Enabled c) (u : υ) (p : π) :
    Serial c (grant u p) (revoke v) ↔ ¬ Conflict c (grant u p) (revoke v) := by
  have hconflict : Conflict c (grant u p) (revoke v) ↔
      c.published = false ∧ u ≠ v ∧ (revoke v : SharingOp υ π).Toggles c := by
    rw [conflict_grants (a := grant u p) (b := revoke v) trivial trivial]
    constructor
    · rintro ⟨hp, x, y, hne, ⟨q, hx, hy, ht⟩ | ⟨q, hx, -⟩ | ⟨hx, -⟩⟩
      · cases hx
        cases hy
        exact ⟨hp, hne, ht⟩
      · cases hx
      · cases hx
    · rintro ⟨hp, hne, ht⟩
      exact ⟨hp, u, v, hne, .inl ⟨p, rfl, rfl, ht⟩⟩
  rw [hconflict, toggles_revoke]
  by_cases huv : u = v
  · subst huv
    refine iff_of_true (.inl ?_) (fun h => h.2.1 rfl)
    rw [raced_eq, exposure_revoke, exposure_grant, view_eq, Shareable.exposure_eq c, hasGrants_of_enabled hen]
    have happly : (revoke u : SharingOp υ π).apply ((grant u p).apply c) = (revoke u).apply c :=
      c.revoke_grant u p
    rw [happly]
    refine Prod.ext ?_ (congrArg Shareable.grants happly)
    show _ = Shareable.exposureOf c.published ((revoke u : SharingOp υ π).apply c).hasGrants
    split
    · next h => exact h.symm
    · rfl
  · have hcomm : (revoke v : SharingOp υ π).apply ((grant u p).apply c) = (grant u p).apply ((revoke v).apply c) :=
      c.grant_revoke_comm huv p
    have hkept (x y : Exposure) : (if x = y then y else x) = y ↔ x = y := by
      by_cases h : x = y
      · rw [if_pos h, h]
      · rw [if_neg h]
    rw [serial_iff hcomm rfl (congrArg Shareable.grants hcomm), exposure_revoke, exposure_grant,
      exposure_grant, Shareable.exposure_eq c, hasGrants_of_enabled hen, and_iff_right huv]
    exact (hkept _ _).trans (Shareable.exposureOf_eq_true_iff c.published _)

theorem serial_revoke_grant {v : υ} (hen : (revoke v : SharingOp υ π).Enabled c) {u : υ} {p : π}
    (hpass : u = v → c.grants u = some p) :
    Serial c (revoke v) (grant u p) ↔ ¬ Conflict c (revoke v) (grant u p) := by
  have hconflict : Conflict c (revoke v) (grant u p) ↔
      c.published = false ∧ u ≠ v ∧ (revoke v : SharingOp υ π).Toggles c := by
    rw [conflict_grants (a := revoke v) (b := grant u p) trivial trivial]
    constructor
    · rintro ⟨hp, x, y, hne, ⟨q, hx, -⟩ | ⟨q, hx, hy, ht⟩ | ⟨-, hx, -⟩⟩
      · cases hx
      · cases hx
        cases hy
        exact ⟨hp, hne, ht⟩
      · cases hx
    · rintro ⟨hp, hne, ht⟩
      exact ⟨hp, u, v, hne, .inr (.inl ⟨p, rfl, rfl, ht⟩)⟩
  rw [hconflict, toggles_revoke]
  by_cases huv : u = v
  · subst huv
    refine iff_of_true (.inr ?_) (fun h => h.2.1 rfl)
    have happly : (revoke u : SharingOp υ π).apply ((grant u p).apply c) = (revoke u).apply c :=
      c.revoke_grant u p
    rw [raced_eq, exposure_revoke, exposure_grant, happly, view_eq, Shareable.exposure_eq c,
      hasGrants_of_enabled hen, if_pos rfl]
    refine Prod.ext rfl ?_
    exact if_pos (hpass rfl)
  · have hcomm : (grant u p).apply ((revoke v : SharingOp υ π).apply c) = (revoke v).apply ((grant u p).apply c) :=
      (c.grant_revoke_comm huv p).symm
    have hgrants : (grant u p).writeGrants c ((revoke v : SharingOp υ π).apply c).grants =
        ((grant u p).apply ((revoke v).apply c)).grants := by
      show (if c.grants u = some p then (c.revoke v).grants else ((c.revoke v).grant u p).grants) =
        ((c.revoke v).grant u p).grants
      split
      · next h => rw [Shareable.grant_of_some (by rw [Shareable.grants_revoke_of_ne c huv, h])]
      · rfl
    rw [serial_iff rfl hcomm.symm hgrants, exposure_revoke, exposure_grant, exposure_grant,
      Shareable.exposure_eq c, hasGrants_of_enabled hen, and_iff_right huv, if_pos rfl]
    exact Shareable.exposureOf_eq_true_iff c.published _

theorem serial_revoke_revoke {u v : υ} (hu : (revoke u : SharingOp υ π).Enabled c)
    (hv : (revoke v : SharingOp υ π).Enabled c) :
    Serial c (revoke u) (revoke v) ↔ ¬ Conflict c (revoke u) (revoke v) := by
  have hconflict : Conflict c (revoke u) (revoke v) ↔
      c.published = false ∧ u ≠ v ∧ ∀ w, w ≠ u → w ≠ v → c.grants w = none := by
    rw [conflict_grants (a := revoke u) (b := revoke v) trivial trivial]
    constructor
    · rintro ⟨hp, x, y, hne, ⟨q, hx, -⟩ | ⟨q, hx, -⟩ | ⟨hx, hy, h⟩⟩
      · cases hx
      · cases hx
      · cases hx
        cases hy
        exact ⟨hp, hne, h⟩
    · rintro ⟨hp, hne, h⟩
      exact ⟨hp, u, v, hne, .inr (.inr ⟨rfl, rfl, h⟩)⟩
  rw [hconflict]
  by_cases huv : u = v
  · subst huv
    refine iff_of_true (.inl ?_) (fun h => h.2.1 rfl)
    have happly : (revoke u : SharingOp υ π).apply ((revoke u).apply c) = (revoke u).apply c :=
      Shareable.revoke_of_none (c.grants_revoke_self u)
    rw [raced_eq, happly, ite_id]
    exact Prod.ext rfl (congrArg Shareable.grants happly)
  · have hcomm : (revoke v : SharingOp υ π).apply ((revoke u).apply c) = (revoke u).apply ((revoke v).apply c) :=
      c.revoke_comm u v
    have hleft : ∀ x y : υ, x ≠ y → (revoke y : SharingOp υ π).Enabled c →
        ((revoke x : SharingOp υ π).apply c).hasGrants = true := by
      intro x y hne hy
      exact Shareable.hasGrants_eq_true.mpr (Shareable.hasGrants_revoke.mpr ⟨y, Ne.symm hne, hy⟩)
    have hlast : ((revoke v : SharingOp υ π).apply ((revoke u).apply c)).hasGrants = false ↔
        ∀ w, w ≠ u → w ≠ v → c.grants w = none := by
      rw [← toggles_revoke]
      show (∀ w, w ≠ v → (c.revoke u).grants w = none) ↔ _
      constructor
      · intro h w hwu hwv
        rw [← Shareable.grants_revoke_of_ne c hwu]
        exact h w hwv
      · intro h w hwv
        by_cases hwu : w = u
        · rw [hwu, Shareable.grants_revoke_self]
        · rw [Shareable.grants_revoke_of_ne c hwu]
          exact h w hwu hwv
    rw [serial_iff rfl hcomm.symm rfl, exposure_revoke, exposure_revoke, exposure_revoke, hleft u v huv hv,
      hleft v u (Ne.symm huv) hu, ite_id, and_iff_right huv, ← hlast, eq_comm]
    exact Shareable.exposureOf_eq_true_iff c.published _

/-- **When racing edits are serializable.** Two enabled edits that both commit, `a` first, from one
snapshot have the outcome of a serial order exactly when they do not conflict. An update of a permission
finds its grant, so it does not follow the revocation of that grant. -/
theorem raced_serial_iff (ha : a.Enabled c) (hb : b.Enabled c)
    (hpass : ∀ u p, a = revoke u → b = grant u p → c.grants u = some p) :
    Serial c a b ↔ ¬ Conflict c a b := by
  cases a with
  | keep =>
    cases b with
    | keep => exact iff_of_true (serial_flag_flag trivial trivial) (not_conflict_flags trivial trivial)
    | publish y => exact iff_of_true (serial_flag_flag trivial trivial) (not_conflict_flags trivial trivial)
    | grant v q => exact serial_flag_grants trivial trivial hb
    | revoke v => exact serial_flag_grants trivial trivial hb
  | publish x =>
    cases b with
    | keep => exact iff_of_true (serial_flag_flag trivial trivial) (not_conflict_flags trivial trivial)
    | publish y => exact iff_of_true (serial_flag_flag trivial trivial) (not_conflict_flags trivial trivial)
    | grant v q => exact serial_flag_grants trivial trivial hb
    | revoke v => exact serial_flag_grants trivial trivial hb
  | grant u p =>
    cases b with
    | keep => exact serial_grants_flag trivial trivial ha
    | publish y => exact serial_grants_flag trivial trivial ha
    | grant v q => exact iff_of_true (serial_grant_grant c u v p q).1 (serial_grant_grant c u v p q).2
    | revoke v => exact serial_grant_revoke hb u p
  | revoke u =>
    cases b with
    | keep => exact serial_grants_flag trivial trivial ha
    | publish y => exact serial_grants_flag trivial trivial ha
    | grant v q =>
      refine serial_revoke_grant ha (fun huv => ?_)
      subst huv
      exact hpass v q rfl rfl
    | revoke v => exact serial_revoke_revoke ha hb

end SharingOp
end Foundations
