import Tstlan.Configs.Abstract

/-! # The tables behind the abstract store

How the config and share tables represent owners, flags and grant maps, and what each statement of the
service does to that. -/
namespace Tstlan
open Foundations
set_option autoImplicit false

/-! ## Statements that the constraints allow -/

namespace Tables.Constraints
variable {t : Tables} (h : t.Constraints)
include h

theorem set_config {k : ℤ} {row : DeviceConfig} (hk : row.id = k)
    (howner : (t.users.get? row.ownerId).isSome) :
    { t with configs := t.configs.set k row : Tables }.Constraints :=
  { h with
    configId := h.configId.set hk
    owner := h.owner.set howner
    shareConfig := h.shareConfig.set_right _ _ }

theorem set_share {k : ℤ} {s : ConfigShare} (hk : s.id = k)
    (hconfig : (t.configs.get? s.configId).isSome) (hgrantee : (t.users.get? s.granteeId).isSome)
    (hone : ∀ j r, t.shares.get? j = some r → r.configId = s.configId → r.granteeId = s.granteeId → j = k) :
    { t with shares := t.shares.set k s : Tables }.Constraints :=
  { h with
    shareId := h.shareId.set hk
    shareConfig := h.shareConfig.set hconfig
    grantee := h.grantee.set hgrantee
    oneGrant := h.oneGrant.set (fun j r hr hsame => by
      obtain ⟨hc, hg⟩ := Prod.mk.inj hsame
      exact hone j r hr hc hg) }

theorem erase_share (k : ℤ) : { t with shares := t.shares.erase k : Tables }.Constraints :=
  { h with
    shareId := h.shareId.filter _
    shareConfig := h.shareConfig.filter _
    grantee := h.grantee.filter _
    oneGrant := h.oneGrant.filter _ }

theorem delete_config {k : ℤ} {p : ℤ → ConfigShare → Bool}
    (hp : ∀ j s, p j s = true → s.configId ≠ k) :
    { t with configs := t.configs.erase k, shares := t.shares.filter p : Tables }.Constraints :=
  { h with
    configId := h.configId.filter _
    owner := h.owner.filter _
    shareId := h.shareId.filter _
    shareConfig := by
      intro j s hs
      rw [Dict.get?_filter, Option.filter_eq_some_iff] at hs
      rw [Dict.get?_erase, if_neg (hp j s hs.2)]
      exact h.shareConfig j s hs.1
    grantee := h.grantee.filter _
    oneGrant := h.oneGrant.filter _ }

end Tables.Constraints

/-! ## Grant maps -/

namespace Database

/-- The permission a user holds on a config. -/
def grants (db : Database) (configId granteeId : ℤ) : Option SharePermission :=
  ((db.sharesOf configId).find? (fun s => s.granteeId = granteeId)).map ConfigShare.permission

def abstractConfig (db : Database) (row : DeviceConfig) : AbstractConfig :=
  ⟨row.ownerId, row.visibility = .PUBLIC, db.grants row.id⟩

def abstract (db : Database) : AbstractStore :=
  ⟨db.users, fun id => (db.configs.get? id).map db.abstractConfig⟩

variable {db db' : Database}

theorem id_of_config {k : ℤ} {row : DeviceConfig} (h : db.configs.get? k = some row) : row.id = k :=
  db.constraints.configId k row h

theorem mem_sharesOf {configId : ℤ} {s : ConfigShare} :
    s ∈ db.sharesOf configId ↔ db.shares.get? s.id = some s ∧ s.configId = configId := by
  rw [sharesOf, List.mem_filter, Dict.mem_values, decide_eq_true_eq]
  constructor
  · rintro ⟨⟨k, hk⟩, hc⟩
    have hid := db.constraints.shareId k s hk
    exact ⟨by rw [hid]; exact hk, hc⟩
  · rintro ⟨hs, hc⟩
    exact ⟨⟨s.id, hs⟩, hc⟩

/-- There is one row for a config and a grantee. -/
theorem eq_of_mem_sharesOf {configId : ℤ} {r s : ConfigShare} (hr : r ∈ db.sharesOf configId)
    (hs : s ∈ db.sharesOf configId) (h : r.granteeId = s.granteeId) : r = s := by
  obtain ⟨hr, hrc⟩ := mem_sharesOf.mp hr
  obtain ⟨hs, hsc⟩ := mem_sharesOf.mp hs
  have hkey := db.constraints.oneGrant r.id s.id r s hr hs (Prod.ext (hrc.trans hsc.symm) h)
  rw [hkey, hs] at hr
  exact (Option.some.inj hr).symm

theorem grants_eq_some {configId granteeId : ℤ} {p : SharePermission} :
    db.grants configId granteeId = some p ↔
      ∃ s ∈ db.sharesOf configId, s.granteeId = granteeId ∧ s.permission = p := by
  rw [grants, Option.map_eq_some_iff]
  constructor
  · rintro ⟨s, hs, hp⟩
    exact ⟨s, List.mem_of_find?_eq_some hs, by simpa using List.find?_some hs, hp⟩
  · rintro ⟨s, hs, hg, hp⟩
    cases hfind : (db.sharesOf configId).find? (fun s => s.granteeId = granteeId) with
    | none => exact absurd hg (by simpa using List.find?_eq_none.mp hfind s hs)
    | some r =>
      have hr : r.granteeId = granteeId := by simpa using List.find?_some hfind
      exact ⟨r, rfl, by rw [eq_of_mem_sharesOf (List.mem_of_find?_eq_some hfind) hs (hr.trans hg.symm), hp]⟩

theorem grants_isSome {configId granteeId : ℤ} :
    (db.grants configId granteeId).isSome ↔ ∃ s ∈ db.sharesOf configId, s.granteeId = granteeId := by
  rw [Option.isSome_iff_exists]
  constructor
  · rintro ⟨p, hp⟩
    obtain ⟨s, hs, hg, -⟩ := grants_eq_some.mp hp
    exact ⟨s, hs, hg⟩
  · rintro ⟨s, hs, hg⟩
    exact ⟨s.permission, grants_eq_some.mpr ⟨s, hs, hg, rfl⟩⟩

theorem grants_eq_none {configId granteeId : ℤ} :
    db.grants configId granteeId = none ↔ ∀ s ∈ db.sharesOf configId, s.granteeId ≠ granteeId := by
  rw [← Option.not_isSome_iff_eq_none, grants_isSome]
  constructor
  · intro h s hs hg
    exact h ⟨s, hs, hg⟩
  · rintro h ⟨s, hs, hg⟩
    exact h s hs hg

theorem hasGrants_iff {row : DeviceConfig} :
    (db.abstractConfig row).HasGrants ↔ db.sharesOf row.id ≠ [] := by
  constructor
  · rintro ⟨u, hu⟩
    obtain ⟨s, hs, -⟩ := grants_isSome.mp hu
    exact List.ne_nil_of_mem hs
  · intro h
    obtain ⟨s, hs⟩ := List.exists_mem_of_ne_nil _ h
    exact ⟨s.granteeId, grants_isSome.mpr ⟨s, hs, rfl⟩⟩

theorem grants_congr (h : db'.shares = db.shares) : db'.grants = db.grants := by
  unfold grants sharesOf
  rw [h]

/-- A row that is inserted, or that replaces one of the same config and grantee. -/
theorem grants_set {r : ConfigShare} (h : db'.shares = db.shares.set r.id r)
    (hold : ∀ s, db.shares.get? r.id = some s → s.configId = r.configId ∧ s.granteeId = r.granteeId)
    (configId : ℤ) :
    db'.grants configId =
      if configId = r.configId then Function.update (db.grants configId) r.granteeId (some r.permission)
      else db.grants configId := by
  have hin : r ∈ db'.sharesOf r.configId := mem_sharesOf.mpr ⟨by rw [h, Dict.get?_set_self], rfl⟩
  have hother : ∀ s g, s.granteeId = g → (configId = r.configId → g ≠ r.granteeId) →
      (s ∈ db'.sharesOf configId ↔ s ∈ db.sharesOf configId) := by
    intro s g hg hne
    rw [mem_sharesOf, mem_sharesOf, h, Dict.get?_set]
    refine and_congr_left (fun hc => ?_)
    by_cases hid : s.id = r.id
    · rw [if_pos hid, hid]
      constructor
      · rintro hs
        cases hs
        exact absurd hg.symm (hne hc.symm)
      · intro hs
        obtain ⟨hsc, hsg⟩ := hold s hs
        exact absurd (hg.symm.trans hsg) (hne (hc.symm.trans hsc))
    · rw [if_neg hid]
  funext g
  apply Option.ext
  intro p
  by_cases hc : configId = r.configId
  · subst hc
    rw [if_pos rfl, grants_eq_some]
    by_cases hg : g = r.granteeId
    · subst hg
      rw [Function.update_self, Option.some.injEq]
      constructor
      · rintro ⟨s, hs, hsg, hp⟩
        rw [← hp, eq_of_mem_sharesOf hs hin hsg]
      · intro hp
        exact ⟨r, hin, rfl, hp⟩
    · rw [Function.update_of_ne hg, grants_eq_some]
      refine exists_congr (fun s => ?_)
      constructor
      · rintro ⟨hs, hsg, hp⟩
        exact ⟨(hother s g hsg (fun _ => hg)).mp hs, hsg, hp⟩
      · rintro ⟨hs, hsg, hp⟩
        exact ⟨(hother s g hsg (fun _ => hg)).mpr hs, hsg, hp⟩
  · rw [if_neg hc, grants_eq_some, grants_eq_some]
    refine exists_congr (fun s => and_congr_left (fun _ => ?_))
    exact hother s s.granteeId rfl (fun hc' => absurd hc' hc)

theorem grants_erase {r : ConfigShare} (h : db'.shares = db.shares.erase r.id)
    (hr : db.shares.get? r.id = some r) (configId : ℤ) :
    db'.grants configId =
      if configId = r.configId then Function.update (db.grants configId) r.granteeId none
      else db.grants configId := by
  have hmem : ∀ s, s ∈ db'.sharesOf configId ↔ s ∈ db.sharesOf configId ∧ s.id ≠ r.id := by
    intro s
    rw [mem_sharesOf, mem_sharesOf, h, Dict.get?_erase]
    by_cases hid : s.id = r.id
    · simp [hid]
    · simp [hid]
  have hne : ∀ s ∈ db.sharesOf configId, s.id = r.id ↔ configId = r.configId ∧ s.granteeId = r.granteeId := by
    intro s hs
    constructor
    · intro hid
      obtain ⟨hs, hc⟩ := mem_sharesOf.mp hs
      rw [hid, hr] at hs
      cases hs
      exact ⟨hc.symm, rfl⟩
    · rintro ⟨rfl, hg⟩
      rw [eq_of_mem_sharesOf hs (mem_sharesOf.mpr ⟨hr, rfl⟩) hg]
  funext g
  apply Option.ext
  intro p
  by_cases hc : configId = r.configId ∧ g = r.granteeId
  · obtain ⟨rfl, rfl⟩ := hc
    rw [if_pos rfl, Function.update_self, grants_eq_some]
    constructor
    · rintro ⟨s, hs, hsg, -⟩
      obtain ⟨hs, hid⟩ := (hmem s).mp hs
      exact absurd ((hne s hs).mpr ⟨rfl, hsg⟩) hid
    · rintro ⟨⟩
  · have hsame : (if configId = r.configId then Function.update (db.grants configId) r.granteeId none
        else db.grants configId) g = db.grants configId g := by
      by_cases hcc : configId = r.configId
      · rw [if_pos hcc, Function.update_of_ne (fun hg => hc ⟨hcc, hg⟩)]
      · rw [if_neg hcc]
    rw [hsame, grants_eq_some, grants_eq_some]
    refine exists_congr (fun s => ?_)
    constructor
    · rintro ⟨hs, hsg, hp⟩
      exact ⟨((hmem s).mp hs).1, hsg, hp⟩
    · rintro ⟨hs, hsg, hp⟩
      refine ⟨(hmem s).mpr ⟨hs, fun hid => ?_⟩, hsg, hp⟩
      obtain ⟨hcc, hg⟩ := (hne s hs).mp hid
      exact hc ⟨hcc, hsg.symm.trans hg⟩

theorem grants_filter {k : ℤ} {p : ℤ → ConfigShare → Bool} (h : db'.shares = db.shares.filter p)
    (hp : ∀ j s, db.shares.get? j = some s → (p j s = true ↔ s.configId ≠ k)) {configId : ℤ}
    (hne : configId ≠ k) : db'.grants configId = db.grants configId := by
  have hmem : ∀ s, s ∈ db'.sharesOf configId ↔ s ∈ db.sharesOf configId := by
    intro s
    rw [mem_sharesOf, mem_sharesOf, h, Dict.get?_filter, Option.filter_eq_some_iff]
    constructor
    · rintro ⟨⟨hs, -⟩, hc⟩
      exact ⟨hs, hc⟩
    · rintro ⟨hs, hc⟩
      exact ⟨⟨hs, (hp _ _ hs).mpr (hc ▸ hne)⟩, hc⟩
  funext g
  apply Option.ext
  intro q
  rw [grants_eq_some, grants_eq_some]
  refine exists_congr (fun s => ?_)
  rw [hmem]

end Database
end Tstlan
