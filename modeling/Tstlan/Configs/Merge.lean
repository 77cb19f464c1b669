import Tstlan.Configs.Refinement
import Tstlan.Foundations.Racing

/-! # Committing into a database that has changed since

An object that was loaded from one database is flushed into another. What it changed is written, what it
did not change stays as it is there. -/
namespace Tstlan
open Foundations
set_option autoImplicit false

namespace Configs
variable {env : Env} {db₀ db db' : Database} {configId : ℤ} {row cur : DeviceConfig} {o : ConfigObject}
  {edit : ConfigObject.GrantEdit}

/-- What has become of the grants that were loaded from `db₀`: the row is the one of this grantee, or it
is gone and so is the grant. -/
def Stable (db₀ : Database) (configId : ℤ) (db : Database) : Prop :=
  ∀ s ∈ db₀.sharesOf configId,
    (∃ r, db.shares.get? s.id = some r ∧ r.configId = configId ∧ r.granteeId = s.granteeId) ∨
    db.shares.get? s.id = none ∧ db.grants configId s.granteeId = none

theorem Stable.refl (db : Database) (configId : ℤ) : Stable db configId db := by
  intro s hs
  obtain ⟨hget, hc⟩ := Database.mem_sharesOf.mp hs
  exact .inl ⟨s, hget, hc, rfl⟩

theorem Stable.congr (h : Stable db₀ configId db) (hshares : db'.shares = db.shares) :
    Stable db₀ configId db' := by
  unfold Stable
  rw [hshares, Database.grants_congr hshares]
  exact h

theorem grants_of_mem {s : ConfigShare} (hs : s ∈ db.sharesOf configId) :
    db.grants configId s.granteeId = some s.permission :=
  Database.grants_eq_some.mpr ⟨s, hs, rfl, rfl⟩

/-- A write to one grant, as a merge at every user. -/
theorem update_eq_merge {G₀ : ℤ → Option SharePermission} {g : ℤ} {x : Option SharePermission}
    (hne : x ≠ G₀ g) (G : ℤ → Option SharePermission) (u : ℤ) :
    Function.update G g x u = merge (G₀ u) (Function.update G₀ g x u) (G u) := by
  unfold merge
  by_cases hu : u = g
  · subst hu
    rw [Function.update_self, Function.update_self, if_neg hne]
  · rw [Function.update_of_ne hu, Function.update_of_ne hu, if_pos rfl]

theorem flush_edit (hvalid : edit.Valid db₀ configId) (hs : Stable db₀ configId db)
    (h : edit.flush env configId db = .ok db') :
    db'.configs = db.configs ∧ db'.users = db.users ∧ ∀ u, db'.grants configId u =
      merge (db₀.grants configId u) (edit.apply (db₀.grants configId) u) (db.grants configId u) := by
  cases edit with
  | keep =>
    cases h
    exact ⟨rfl, rfl, fun u => (if_pos rfl).symm⟩
  | add g p =>
    obtain ⟨k, hk, hdb'⟩ := ConfigObject.GrantEdit.flush_add_ok h
    refine ⟨by rw [hdb'], by rw [hdb'], fun u => ?_⟩
    have hshares : db'.shares = db.shares.set k ⟨k, configId, g, p⟩ := by rw [hdb']
    have hgrants := Database.grants_set (r := ⟨k, configId, g, p⟩) hshares
      (fun s hs => by rw [hk] at hs; cases hs) configId
    rw [hgrants, if_pos rfl]
    exact update_eq_merge (by rw [hvalid.2]; exact fun h => nomatch h) _ u
  | assign s p =>
    have hheld := grants_of_mem hvalid
    by_cases hp : p = s.permission
    · have hsame : db = db' := Except.ok.inj ((if_pos hp).symm.trans h)
      subst hsame
      refine ⟨rfl, rfl, fun u => (if_pos ?_).symm⟩
      show Function.update (db₀.grants configId) s.granteeId (some p) u = _
      rw [hp, ← hheld, Function.update_eq_self]
    · rcases hs s hvalid with ⟨r, hr, hrc, hrg⟩ | ⟨hnone, -⟩
      · obtain ⟨db'', hflush, hdb''⟩ := ConfigObject.GrantEdit.flush_assign env configId p hp hr
        rw [hflush] at h
        cases h
        have hid := db.constraints.shareId _ r hr
        refine ⟨by rw [hdb''], by rw [hdb''], fun u => ?_⟩
        have hshares : db'.shares = db.shares.set r.id { r with permission := p } := by rw [hdb'', hid]
        have hgrants := Database.grants_set (r := { r with permission := p }) hshares (fun x hx => by
          rw [show ({ r with permission := p } : ConfigShare).id = s.id from hid, hr] at hx
          cases hx
          exact ⟨rfl, rfl⟩) configId
        rw [hgrants, if_pos hrc.symm]
        show Function.update (db.grants configId) r.granteeId (some p) u = _
        rw [hrg]
        exact update_eq_merge (by rw [hheld]; exact fun h => hp (Option.some.inj h)) _ u
      · have hstale : (ConfigObject.GrantEdit.assign s p).flush env configId db = .error .staleDataError := by
          show (if p = s.permission then _ else _) = _
          rw [if_neg hp, hnone]
        rw [hstale] at h
        cases h
  | drop s =>
    have hheld := grants_of_mem hvalid
    obtain ⟨db'', hflush, hdb''⟩ := ConfigObject.GrantEdit.flush_drop env configId db s
    rw [hflush] at h
    cases h
    refine ⟨by rw [hdb''], by rw [hdb''], fun u => ?_⟩
    have hne : none ≠ db₀.grants configId s.granteeId := by
      rw [hheld]
      exact fun h => nomatch h
    have hupdate := update_eq_merge hne (db.grants configId) u
    rcases hs s hvalid with ⟨r, hr, hrc, hrg⟩ | ⟨hnone, hgone⟩
    · have hid := db.constraints.shareId _ r hr
      have hshares : db'.shares = db.shares.erase r.id := by rw [hdb'', hid]
      have hgrants := Database.grants_erase hshares (hid ▸ hr) configId
      rw [hgrants, if_pos hrc.symm, hrg]
      exact hupdate
    · have hsame : db'.shares = db.shares := by
        rw [hdb'']
        exact Dict.erase_of_fresh hnone
      rw [Database.grants_congr hsame]
      refine Eq.trans ?_ hupdate
      rw [← hgone, Function.update_eq_self]

/-- A changed permission is written into a grant that is still there. -/
theorem flush_edit_passes (hvalid : edit.Valid db₀ configId) (hs : Stable db₀ configId db)
    (h : edit.flush env configId db = .ok db') {u : ℤ} (hheld : (db₀.grants configId u).isSome)
    (hnew : (edit.apply (db₀.grants configId) u).isSome)
    (hne : edit.apply (db₀.grants configId) u ≠ db₀.grants configId u) : (db.grants configId u).isSome := by
  cases edit with
  | keep => exact absurd rfl hne
  | add g p =>
    by_cases hu : u = g
    · rw [hu, hvalid.2] at hheld
      cases hheld
    · exact absurd (Function.update_of_ne hu ..) hne
  | drop s =>
    by_cases hu : u = s.granteeId
    · rw [hu, ConfigObject.GrantEdit.apply, Function.update_self] at hnew
      cases hnew
    · exact absurd (Function.update_of_ne hu ..) hne
  | assign s p =>
    by_cases hu : u = s.granteeId
    · subst hu
      have hp : p ≠ s.permission := by
        rintro rfl
        rw [ConfigObject.GrantEdit.apply, Function.update_self, grants_of_mem hvalid] at hne
        exact hne rfl
      rcases hs s hvalid with ⟨r, hr, hrc, hrg⟩ | ⟨hnone, -⟩
      · have hid := db.constraints.shareId _ r hr
        exact Database.grants_isSome.mpr ⟨r, Database.mem_sharesOf.mpr ⟨hid ▸ hr, hrc⟩, hrg⟩
      · have hstale : (ConfigObject.GrantEdit.assign s p).flush env configId db = .error .staleDataError := by
          show (if p = s.permission then _ else _) = _
          rw [if_neg hp, hnone]
        rw [hstale] at h
        cases h
    · exact absurd (Function.update_of_ne hu ..) hne

/-- An edit of what is there leaves the other grants in their rows. -/
theorem stable_of_edit (hvalid : edit.Valid db configId) (h : edit.flush env configId db = .ok db') :
    Stable db configId db' := by
  intro x hx
  obtain ⟨hget, hc⟩ := Database.mem_sharesOf.mp hx
  obtain ⟨-, -, hgrants⟩ := flush_edit hvalid (.refl db configId) h
  cases edit with
  | keep =>
    cases h
    exact .inl ⟨x, hget, hc, rfl⟩
  | add g p =>
    obtain ⟨k, hk, hdb'⟩ := ConfigObject.GrantEdit.flush_add_ok h
    have hne : x.id ≠ k := by
      rintro rfl
      rw [hk] at hget
      cases hget
    exact .inl ⟨x, by rw [hdb']; exact (Dict.get?_set_of_ne _ _ hne).trans hget, hc, rfl⟩
  | assign s p =>
    obtain ⟨hs, hsc⟩ := Database.mem_sharesOf.mp hvalid
    by_cases hp : p = s.permission
    · have hsame : db = db' := Except.ok.inj ((if_pos hp).symm.trans h)
      subst hsame
      exact .inl ⟨x, hget, hc, rfl⟩
    · obtain ⟨db'', hflush, hdb''⟩ := ConfigObject.GrantEdit.flush_assign env configId p hp hs
      rw [hflush] at h
      cases h
      by_cases hid : x.id = s.id
      · rw [hid, hs] at hget
        cases hget
        exact .inl ⟨{ x with permission := p }, by rw [hdb'']; exact Dict.get?_set_self .., hsc, rfl⟩
      · exact .inl ⟨x, by rw [hdb'']; exact (Dict.get?_set_of_ne _ _ hid).trans hget, hc, rfl⟩
  | drop s =>
    obtain ⟨hs, -⟩ := Database.mem_sharesOf.mp hvalid
    obtain ⟨db'', hflush, hdb''⟩ := ConfigObject.GrantEdit.flush_drop env configId db s
    rw [hflush] at h
    cases h
    by_cases hid : x.id = s.id
    · rw [hid, hs] at hget
      cases hget
      refine .inr ⟨?_, ?_⟩
      · rw [hdb'']
        exact (Dict.get?_erase _ _ _).trans (if_pos rfl)
      · rw [hgrants, ConfigObject.GrantEdit.apply, Function.update_self]
        unfold merge
        rw [if_neg (by rw [grants_of_mem hvalid]; exact (Option.some_ne_none _).symm)]
    · refine .inl ⟨x, ?_, hc, rfl⟩
      rw [hdb'']
      exact ((Dict.get?_erase _ _ _).trans (if_neg hid)).trans hget

/-! ## The whole flush -/

/-- What the flush of a loaded object stores in a database that has changed since. -/
theorem flush_merge (h : Prepared db₀ configId row o edit) (hs : Stable db₀ configId db)
    (hcur : db.configs.get? configId = some cur) (hflush : o.flush env db = .ok db') :
    db'.configs.get? configId = some (o.rowAfter env.now cur) ∧ db'.users = db.users ∧
      (o.rowAfter env.now cur).visibility = merge row.visibility o.row.visibility cur.visibility ∧
      ∀ u, db'.grants configId u =
        merge (db₀.grants configId u) (edit.apply (db₀.grants configId) u) (db.grants configId u) := by
  obtain ⟨db₁, hsplit, hdb₁⟩ := flush_split h hcur env
  have hshares : db₁.shares = db.shares := by rw [hdb₁]
  obtain ⟨hconfigs, husers, hgrants⟩ := flush_edit h.valid (hs.congr hshares) (hsplit.symm.trans hflush)
  refine ⟨?_, by rw [husers, hdb₁], ?_, fun u => ?_⟩
  · rw [hconfigs, hdb₁]
    exact Dict.get?_set_self ..
  · rw [ConfigObject.visibility_rowAfter, h.stored]
    rfl
  · rw [hgrants u, Database.grants_congr hshares]

theorem flush_passes (h : Prepared db₀ configId row o edit) (hs : Stable db₀ configId db)
    (hcur : db.configs.get? configId = some cur) (hflush : o.flush env db = .ok db') {u : ℤ}
    (hheld : (db₀.grants configId u).isSome) (hnew : (edit.apply (db₀.grants configId) u).isSome)
    (hne : edit.apply (db₀.grants configId) u ≠ db₀.grants configId u) : (db.grants configId u).isSome := by
  obtain ⟨db₁, hsplit, hdb₁⟩ := flush_split h hcur env
  have hshares : db₁.shares = db.shares := by rw [hdb₁]
  rw [← Database.grants_congr hshares]
  exact flush_edit_passes h.valid (hs.congr hshares) (hsplit.symm.trans hflush) hheld hnew hne

theorem stable_of_flush (h : Prepared db configId row o edit) (hflush : o.flush env db = .ok db') :
    Stable db configId db' := by
  obtain ⟨db₁, hsplit, hdb₁⟩ := flush_split h h.found env
  have hshares : db₁.shares = db.shares := by rw [hdb₁]
  have husers : db₁.users = db.users := by rw [hdb₁]
  have hstable := stable_of_edit (h.valid_congr husers hshares) (hsplit.symm.trans hflush)
  intro x hx
  exact hstable x (Database.mem_sharesOf.mpr (hshares ▸ Database.mem_sharesOf.mp hx))

end Configs
end Tstlan
