import Tstlan.Configs.Race
import Tstlan.Configs.Merge

/-! # When two requests on one config interfere

Alone, a request does to the sharing of the config what its edit says. When both load before either
commits, the label and the grants are merged one by one, and the label may no longer be the one that the
grants call for. -/
namespace Tstlan
open Foundations
set_option autoImplicit false

/-! ## Labels and exposures -/

def labelOf : Exposure → ConfigVisibility
  | .everybody => .PUBLIC
  | .grantees => .SHARED
  | .owner => .PRIVATE

theorem visibilityOf_eq_labelOf (c : AbstractConfig) : visibilityOf c = labelOf c.exposure := by
  unfold visibilityOf
  cases c.exposure <;> rfl

theorem labelOf_inj {x y : Exposure} : labelOf x = labelOf y ↔ x = y := by
  cases x <;> cases y <;> decide

theorem merge_labelOf (x y z : Exposure) : merge (labelOf x) (labelOf y) (labelOf z) = labelOf (merge x y z) := by
  unfold merge
  by_cases h : y = x
  · rw [if_pos h, if_pos (congrArg labelOf h)]
  · rw [if_neg h, if_neg (fun hl => h (labelOf_inj.mp hl))]

/-! ## One request -/

namespace AbstractStore
variable {s t : AbstractStore} {user : User} {configId newId : ℤ} {c : AbstractConfig}

theorem visible_owner (hc : s.configs configId = some c) (hmanage : user.role = .ADMIN ∨ c.owner = user.id) :
    s.visible user configId = .ok (c, .OWNER) := by
  unfold visible
  simp only [hc, access_owner.mpr hmanage]

theorem put_self (hc : s.configs configId = some c) : s.put configId (some c) = s := by
  unfold put
  rw [← hc, Function.update_eq_self]

theorem perform_update {data : ConfigUpdate} {v : ConfigVisibility} (hv : data.visibility = some v)
    (hc : s.configs configId = some c) (hmanage : user.role = .ADMIN ∨ c.owner = user.id)
    (hpublish : v = .PUBLIC → user.role ≠ .USER) :
    s.perform newId (.update user configId data) = .ok (s.put configId (some (c.publish (v = .PUBLIC)))) := by
  unfold perform
  simp only [visible_owner hc hmanage, bind, Except.bind, hv]
  rw [if_neg (fun h => h.2 rfl), if_neg (fun h => nomatch h.2)]
  unfold mayPublish
  rw [if_neg (fun h => hpublish (Option.some.inj h.1) h.2)]
  rfl

theorem perform_update_none {data : ConfigUpdate} (hv : data.visibility = none)
    (h : s.perform newId (.update user configId data) = .ok t) : t = s := by
  unfold perform at h
  simp only at h
  cases hvis : s.visible user configId with
  | error e =>
    rw [hvis] at h
    cases h
  | ok x =>
    simp only [hvis, bind, Except.bind, hv] at h
    split at h
    · cases h
    · split at h
      · cases h
      · have hmay : mayPublish user none = .ok () := if_neg (fun h => nomatch h.1)
        rw [hmay] at h
        cases h
        rfl

theorem perform_unshare_none {grantee : User} {login : String} (hc : s.configs configId = some c)
    (hmanage : user.role = .ADMIN ∨ c.owner = user.id) (hu : s.userByLogin login = some grantee)
    (hg : c.grants grantee.id = none) :
    s.perform newId (.unshare user configId login) = .error (.granteeNotFound login) := by
  unfold perform
  simp only [managed_ok.mpr ⟨hc, hmanage⟩, bind, Except.bind, hu]
  exact if_neg (by rw [hg]; decide)

end AbstractStore

open Configs

theorem Database.abstract_configs {db : Database} {configId : ℤ} {row : DeviceConfig}
    (h : db.configs.get? configId = some row) : db.abstract.configs configId = some (db.abstractConfig row) := by
  show (db.configs.get? configId).map _ = _
  rw [h]
  rfl

namespace EditRequest
variable {root : LogLevel} {configId : ℤ} {env : Env} {db₀ db db' : Database} {req : EditRequest} {o : ConfigObject}
  {access : Access} {c₀ c : AbstractConfig}

/-- What a request that may commit has prepared, and the edit that it is. -/
theorem load_ok (h : req.load root configId db = .ok (o, access)) :
    ∃ row edit, Prepared db configId row o edit ∧ (req.op db).Enabled (db.abstractConfig row) ∧
      (req.op db).apply (db.abstractConfig row) =
        ⟨row.ownerId, o.row.visibility = .PUBLIC, edit.apply (db.grants configId)⟩ := by
  cases req with
  | update user data =>
    rcases prepareUpdate_cases root db user configId data with ⟨e, -, hprep⟩ |
      ⟨row, access', hrow, -, -, -, -, hprep, -⟩
    · cases hprep.symm.trans h
    · cases hprep.symm.trans h
      refine ⟨row, .keep, prepared_update hrow data, ?_, ?_⟩
      · unfold op
        simp only
        split <;> trivial
      · rw [row_updatedObject]
        unfold op Database.abstractConfig ConfigObject.GrantEdit.apply
        simp only [Database.id_of_config hrow]
        cases data.visibility with
        | none => rfl
        | some v =>
          simp only [updatedVisibility_public]
          rfl
  | share user req =>
    rcases prepareShare_cases root db user configId req with ⟨e, -, hprep⟩ |
      ⟨row, grantee, o', edit, -, hgrantee, -, hprep, hobject, -, hpublic, happly, -⟩
    · cases hprep.symm.trans h
    · cases hprep.symm.trans h
      have hop : (share user req).op db = .grant grantee.id req.permission := by
        unfold op
        simp only [hgrantee]
      rw [hop]
      refine ⟨row, edit, hobject, trivial, ?_⟩
      rw [happly]
      unfold SharingOp.apply Database.abstractConfig Shareable.grant
      simp only [hpublic, Database.id_of_config hobject.found]
  | unshare user login =>
    rcases prepareUnshare_cases root db user configId login with ⟨e, -, hprep⟩ |
      ⟨row, grantee, o', s, -, hgrantee, hg, hprep, hobject, -, hpublic, -⟩
    · cases hprep.symm.trans h
    · cases hprep.symm.trans h
      have hop : (unshare user login).op db = .revoke grantee.id := by
        unfold op
        simp only [hgrantee]
      have hid := Database.id_of_config hobject.found
      rw [hop]
      refine ⟨row, .drop s, hobject, ?_, ?_⟩
      · show (db.grants row.id grantee.id).isSome
        rw [hid]
        exact Database.grants_isSome.mpr ⟨s, hobject.valid, hg⟩
      · unfold SharingOp.apply Database.abstractConfig Shareable.revoke ConfigObject.GrantEdit.apply
        simp only [hpublic, hid, hg]

/-- A request that commits what it has just loaded has run alone. -/
theorem run_of_load (h : req.load root configId db = .ok (o, access)) (hflush : o.flush env db = .ok db') :
    ((req.call configId).run root env).run db = .ok () db' := by
  obtain ⟨row, edit, hobject, -⟩ := load_ok h
  obtain ⟨db₁, hflush₁, hc⟩ := flush_prepared hobject env
  rw [hflush] at hflush₁
  cases hflush₁
  cases req with
  | update user data => exact run_bind_ok (updateConfig_ok h hflush hc.get?)
  | share user req => exact run_bind_ok (shareConfig_ok h hflush hc.get?)
  | unshare user login => exact run_bind_ok (unshareConfig_ok h hflush hc.get?)

/-- The request on a store in which the sharing of the config has changed since: the edit is made, or it
would change nothing and the request may be refused. -/
theorem perform_after (h : req.load root configId db₀ = .ok (o, access)) {s : AbstractStore}
    (husers : s.users = db₀.users) (hc₀ : db₀.abstract.configs configId = some c₀)
    (hc : s.configs configId = some c) (howner : c.owner = c₀.owner) (newId : ℤ) :
    (∃ e, s.perform newId (req.call configId) = .error e ∧ (req.op db₀).apply c = c) ∨
      s.perform newId (req.call configId) = .ok (s.put configId (some ((req.op db₀).apply c))) := by
  have hlogin : ∀ login, s.userByLogin login = db₀.userByLogin login := by
    intro login
    unfold AbstractStore.userByLogin Database.userByLogin
    rw [husers]
  have hmanage : ∀ user row, db₀.configs.get? configId = some row →
      AbstractStore.access user (db₀.abstractConfig row) = some .OWNER →
      user.role = .ADMIN ∨ c.owner = user.id := by
    intro user row hrow haccess
    rw [Database.abstract_configs hrow] at hc₀
    cases hc₀
    rw [howner]
    exact AbstractStore.access_owner.mp haccess
  cases req with
  | update user data =>
    rcases prepareUpdate_cases root db₀ user configId data with ⟨e, -, hprep⟩ |
      ⟨row, access', hrow, haccess, howns, -, hpublish, -, -⟩
    · cases hprep.symm.trans h
    · cases hv : data.visibility with
      | none =>
        have hop : (update user data).op db₀ = .keep := by
          unfold op
          simp only [hv]
        rw [hop]
        cases hperform : s.perform newId (.update user configId data) with
        | error e => exact .inl ⟨e, hperform, rfl⟩
        | ok t =>
          refine .inr (hperform.trans (congrArg Except.ok ?_))
          rw [AbstractStore.perform_update_none hv hperform]
          exact (AbstractStore.put_self hc).symm
      | some v =>
        have hop : (update user data).op db₀ = .publish (v = .PUBLIC) := by
          unfold op
          simp only [hv]
        rw [hop]
        rw [howns (.inr (by rw [hv]; rfl))] at haccess
        exact .inr (AbstractStore.perform_update hv hc (hmanage user row hrow haccess)
          (fun hp => hpublish (by rw [hv, hp])))
  | share user req =>
    rcases prepareShare_cases root db₀ user configId req with ⟨e, -, hprep⟩ |
      ⟨row, grantee, o', edit, haccess, hgrantee, hself, -, hobject, -⟩
    · cases hprep.symm.trans h
    · have hop : (share user req).op db₀ = .grant grantee.id req.permission := by
        unfold op
        simp only [hgrantee]
      have hself' : grantee.id ≠ c.owner := by
        rw [Database.abstract_configs hobject.found] at hc₀
        cases hc₀
        rw [howner]
        exact hself
      rw [hop]
      exact .inr (AbstractStore.perform_share.mpr
        ⟨c, grantee, hc, hmanage user row hobject.found haccess, (hlogin _).trans hgrantee, hself', rfl⟩)
  | unshare user login =>
    rcases prepareUnshare_cases root db₀ user configId login with ⟨e, -, hprep⟩ |
      ⟨row, grantee, o', x, haccess, hgrantee, -, -, hobject, -⟩
    · cases hprep.symm.trans h
    · have hop : (unshare user login).op db₀ = .revoke grantee.id := by
        unfold op
        simp only [hgrantee]
      have hm := hmanage user row hobject.found haccess
      rw [hop]
      cases hg : c.grants grantee.id with
      | none =>
        exact .inl ⟨_, AbstractStore.perform_unshare_none hc hm ((hlogin _).trans hgrantee) hg,
          Shareable.revoke_of_none hg⟩
      | some p =>
        exact .inr (AbstractStore.perform_unshare hc hm ((hlogin _).trans hgrantee) (by rw [hg]; rfl) newId)

theorem run_after (h : req.load root configId db₀ = .ok (o, access)) (hdb : db.WellShared)
    (husers : db.users = db₀.users) (hc₀ : db₀.abstract.configs configId = some c₀)
    (hc : db.abstract.configs configId = some c) (howner : c.owner = c₀.owner) (env : Env) :
    (final (((req.call configId).run root env).run db)).WellShared ∧
      (final (((req.call configId).run root env).run db)).users = db.users ∧
      (final (((req.call configId).run root env).run db)).abstract.configs configId =
        some ((req.op db₀).apply c) := by
  have hafter := perform_after h (s := db.abstract) husers hc₀ hc howner (nextId env db)
  rcases simulates root env hdb (req.call configId) with ⟨e, habs, hrun⟩ | ⟨db', habs, hrun, hwell⟩
  · rw [hrun]
    rcases hafter with ⟨e', -, hsame⟩ | hok
    · refine ⟨hdb, rfl, ?_⟩
      rw [hsame]
      exact hc
    · rw [habs] at hok
      cases hok
  · rw [hrun]
    rcases hafter with ⟨e', herr, -⟩ | hok
    · rw [habs] at herr
      cases herr
    · rw [habs] at hok
      have hdb' : db'.abstract = db.abstract.put configId (some ((req.op db₀).apply c)) := Except.ok.inj hok
      refine ⟨hwell, ?_, ?_⟩
      · exact congrArg AbstractStore.users hdb'
      · show db'.abstract.configs configId = _
        rw [hdb']
        exact Function.update_self ..

/-! ## Both at once -/

theorem owner_apply (op : SharingOp ℤ SharePermission) (c : AbstractConfig) : (op.apply c).owner = c.owner := by
  cases op <;> rfl

variable {db₁ : Database} {req' : EditRequest} {o' : ConfigObject} {access' : Access} {env' : Env}

/-- Two requests that have loaded from one database and commit one after the other. -/
theorem commit_both (hdb : db.WellShared) (hload : req.load root configId db = .ok (o, access))
    (hload' : req'.load root configId db = .ok (o', access')) (hflush : o.flush env db = .ok db₁)
    (hflush' : o'.flush env' db₁ = .ok db') :
    ∃ c, db.abstract.configs configId = some c ∧ (req.op db).Enabled c ∧ (req'.op db).Enabled c ∧
      (∀ u p, req.op db = .revoke u → req'.op db = .grant u p → c.grants u = some p) ∧
      db'.sharing configId = some (c.owner, labelOf (SharingOp.raced c (req.op db) (req'.op db)).1,
        (SharingOp.raced c (req.op db) (req'.op db)).2) := by
  obtain ⟨row, edit, hprep, hen, happly⟩ := load_ok hload
  obtain ⟨row', edit', hprep', hen', happly'⟩ := load_ok hload'
  have hrows := hprep'.found
  rw [hprep.found] at hrows
  cases hrows
  have hid := Database.id_of_config hprep.found
  have hstable := stable_of_flush hprep hflush
  obtain ⟨hrow₁, -, hvis₁, hgrants₁⟩ := flush_merge hprep (.refl db configId) hprep.found hflush
  obtain ⟨hrow₂, -, hvis₂, hgrants₂⟩ := flush_merge hprep' hstable hrow₁ hflush'
  have hlabel : row.visibility = labelOf (db.abstractConfig row).exposure := by
    rw [← visibilityOf_eq_labelOf]
    exact (hdb configId row hprep.found).1
  have hlabel₁ : o.row.visibility = labelOf ((req.op db).apply (db.abstractConfig row)).exposure := by
    rw [← visibilityOf_eq_labelOf, happly]
    exact label_prepared hprep hdb
  have hlabel₂ : o'.row.visibility = labelOf ((req'.op db).apply (db.abstractConfig row)).exposure := by
    rw [← visibilityOf_eq_labelOf, happly']
    exact label_prepared hprep' hdb
  have hheld : (db.abstractConfig row).grants = db.grants configId := by
    rw [← hid]
    rfl
  have hnew : ((req.op db).apply (db.abstractConfig row)).grants = edit.apply (db.grants configId) := by
    rw [happly]
  have hnew' : ((req'.op db).apply (db.abstractConfig row)).grants = edit'.apply (db.grants configId) := by
    rw [happly']
  refine ⟨db.abstractConfig row, Database.abstract_configs hprep.found, hen, hen', ?_, ?_⟩
  · intro u p ha hb
    rw [ha] at hen hnew
    rw [hb] at hnew'
    by_contra hne
    have hu : (db.grants configId u).isSome := by
      rw [← hheld]
      exact hen
    have hrevoked : edit.apply (db.grants configId) u = none := by
      rw [← hnew]
      exact Shareable.grants_revoke_self ..
    have hgranted : edit'.apply (db.grants configId) u = some p := by
      rw [← hnew']
      exact Shareable.grants_grant_self ..
    -- the second commit needs the row that the first one has deleted
    have hleft := flush_passes hprep' hstable hrow₁ hflush' hu (by rw [hgranted]; rfl)
      (by rw [hgranted, ← hheld]; exact Ne.symm hne)
    rw [hgrants₁, hrevoked] at hleft
    unfold merge at hleft
    rw [if_neg (fun h => by rw [← h] at hu; cases hu)] at hleft
    cases hleft
  · have hgrants : db'.grants configId =
        (SharingOp.raced (db.abstractConfig row) (req.op db) (req'.op db)).2 := by
      funext u
      show _ = (req'.op db).writeGrants (db.abstractConfig row)
        ((req.op db).writeGrants (db.abstractConfig row) (db.abstractConfig row).grants) u
      rw [SharingOp.writeGrants_eq hen', SharingOp.writeGrants_eq hen, hgrants₂, hgrants₁, hheld, hnew, hnew']
    unfold Database.sharing
    rw [hrow₂, Option.map_some, hgrants, hvis₂, hvis₁, hlabel, hlabel₁, hlabel₂, merge_labelOf, merge_labelOf,
      ConfigObject.ownerId_rowAfter, ConfigObject.ownerId_rowAfter]
    rfl

end EditRequest

namespace Race
variable {root : LogLevel} {configId : ℤ} {reqs : Requests} {s t : Race} {db db₁ after : Database}
  {events : List RaceEvent} {i : Bool} {c : AbstractConfig}

/-- Either order of two requests that may commit makes both edits. -/
theorem serially_sharing (hdb : db.WellShared) (hc : db.abstract.configs configId = some c)
    (hload : ∀ i, ∃ o access, (reqs.request i).load root configId db = .ok (o, access)) (i : Bool) :
    (serially root configId reqs db i).sharing configId =
      some (c.owner, labelOf (((reqs.request !i).op db).apply (((reqs.request i).op db).apply c)).exposure,
        (((reqs.request !i).op db).apply (((reqs.request i).op db).apply c)).grants) := by
  obtain ⟨o, access, hi⟩ := hload i
  obtain ⟨o', access', hother⟩ := hload !i
  obtain ⟨hwell₁, husers₁, hc₁⟩ := EditRequest.run_after hi hdb rfl hc hc rfl (reqs.env i)
  obtain ⟨hwell₂, -, hc₂⟩ := EditRequest.run_after hother hwell₁ husers₁ hc hc₁
    (EditRequest.owner_apply _ c) (reqs.env !i)
  unfold serially
  rw [Database.sharing_eq hwell₂, hc₂, Option.map_some, visibilityOf_eq_labelOf, EditRequest.owner_apply,
    EditRequest.owner_apply]

/-- After two loads, the outcome is that of some order exactly when the merged sharing is. -/
theorem serializable_iff_serial (hdb : db.WellShared) (hc : db.abstract.configs configId = some c)
    (hload : ∀ i, ∃ o access, (reqs.request i).load root configId db = .ok (o, access))
    (hafter : after.sharing configId = some (c.owner,
      labelOf (SharingOp.raced c ((reqs.request i).op db) ((reqs.request !i).op db)).1,
      (SharingOp.raced c ((reqs.request i).op db) ((reqs.request !i).op db)).2)) :
    Serializable root configId reqs db after ↔
      SharingOp.Serial c ((reqs.request i).op db) ((reqs.request !i).op db) := by
  have hview : ∀ (x : Exposure × (ℤ → Option SharePermission)) (d : AbstractConfig),
      (c.owner, labelOf x.1, x.2) = (c.owner, labelOf d.exposure, d.grants) ↔ x = SharingOp.view d := by
    rintro ⟨e, G⟩ d
    rw [SharingOp.view, Prod.mk.injEq, Prod.mk.injEq, Prod.mk.injEq, labelOf_inj, and_iff_right rfl]
  have horder : ∀ j, after.sharing configId = (serially root configId reqs db j).sharing configId ↔
      SharingOp.raced c ((reqs.request i).op db) ((reqs.request !i).op db) =
        SharingOp.view (((reqs.request !j).op db).apply (((reqs.request j).op db).apply c)) := by
    intro j
    rw [hafter, serially_sharing hdb hc hload, Option.some.injEq, hview]
  unfold Serializable SharingOp.Serial
  constructor
  · rintro ⟨j, hj⟩
    rcases eq_or_eq_not i j with rfl | rfl
    · exact .inl ((horder j).mp hj)
    · have hj := (horder !i).mp hj
      rw [Bool.not_not] at hj
      exact .inr hj
  · rintro (h | h)
    · exact ⟨i, (horder i).mpr h⟩
    · refine ⟨!i, (horder !i).mpr ?_⟩
      rw [Bool.not_not]
      exact h

/-- A serializable outcome has the label that its grants call for. -/
theorem label_of_serializable (hdb : db.WellShared) (h : Serializable root configId reqs db after)
    {row : DeviceConfig} (hrow : after.configs.get? configId = some row) (hpublic : row.visibility ≠ .PUBLIC) :
    row.visibility = .SHARED ↔ after.sharesOf configId ≠ [] := by
  obtain ⟨i, hi⟩ := h
  have hwell : (serially root configId reqs db i).WellShared := by
    have hcall : ∀ (call : ConfigCall) env (db : Database), db.WellShared →
        (final ((call.run root env).run db)).WellShared :=
      fun call env db hdb => (Database.refines_step hdb (.call call env)).2
    exact hcall _ _ _ (hcall _ _ _ hdb)
  have hsharing : after.sharing configId = some (row.ownerId, row.visibility, after.grants configId) := by
    unfold Database.sharing
    rw [hrow]
    rfl
  rw [hsharing, Database.sharing_eq hwell] at hi
  obtain ⟨c, -, hc⟩ := Option.map_eq_some_iff.mp hi.symm
  obtain ⟨-, hlabel, hgrants⟩ : c.owner = row.ownerId ∧ visibilityOf c = row.visibility ∧
      c.grants = after.grants configId := by
    simpa only [Prod.mk.injEq] using hc
  obtain ⟨hpub, hshared, hprivate⟩ := visibilityOf_eq c
  have hflag : c.published = false := by
    rw [← Bool.not_eq_true]
    intro hp
    exact hpublic (hlabel.symm.trans (hpub hp))
  have hheld : c.HasGrants ↔ after.sharesOf configId ≠ [] := by
    have : (after.abstractConfig row).HasGrants ↔ after.sharesOf row.id ≠ [] := Database.hasGrants_iff
    rw [Database.id_of_config hrow] at this
    rw [← this]
    unfold Shareable.HasGrants Database.abstractConfig
    rw [hgrants, Database.id_of_config hrow]
  rw [← hheld, ← hlabel]
  constructor
  · intro h
    by_contra hnot
    rw [hprivate hflag hnot] at h
    cases h
  · exact hshared hflag

/-- **When two requests on one config are serializable.** When both succeed, the label and the grants are
those of one of the two orders unless both requests load before either commits and their edits conflict;
and then the config, if it is not public, is SHARED exactly when it has grants. -/
theorem serializable_iff_not_interferes (hreach : db.Reachable root)
    (hrun : Runs root configId reqs { db := db } events t) (hdone : t.Done) :
    (Serializable root configId reqs db t.db ↔ ¬ Interferes configId reqs db events) ∧
      (¬ Interferes configId reqs db events → ∀ row, t.db.configs.get? configId = some row →
        row.visibility ≠ .PUBLIC → (row.visibility = .SHARED ↔ t.db.sharesOf configId ≠ [])) := by
  have hdb := Database.wellShared_of_reachable hreach
  have hiff : Serializable root configId reqs db t.db ↔ ¬ Interferes configId reqs db events := by
    rcases run_schedule hrun hdone with
      ⟨i, db₁, o, access, o', access', rfl, hload, hflush, hload', hflush'⟩ |
      ⟨k, i, db₁, o, access, o', access', rfl, hload, hload', hflush, hflush'⟩
    · refine iff_of_true ⟨i, ?_⟩ ?_
      · unfold serially
        rw [EditRequest.run_of_load hload hflush]
        show _ = (final ((((reqs.request !i).call configId).run root (reqs.env !i)).run db₁)).sharing configId
        rw [EditRequest.run_of_load hload' hflush']
        rfl
      · rintro ⟨j, c, ⟨k, hk⟩, -⟩
        cases hk
    · obtain ⟨c, hc, hen, hen', hpass, hafter⟩ := EditRequest.commit_both hdb hload hload' hflush hflush'
      have hloads : ∀ j, ∃ o access, (reqs.request j).load root configId db = .ok (o, access) := by
        intro j
        rcases eq_or_eq_not i j with rfl | rfl
        · exact ⟨o, access, hload⟩
        · exact ⟨o', access', hload'⟩
      rw [serializable_iff_serial hdb hc hloads hafter, SharingOp.raced_serial_iff hen hen' hpass]
      refine not_congr ⟨fun h => ⟨i, c, ⟨k, rfl⟩, hc, h⟩, ?_⟩
      rintro ⟨j, d, ⟨l, hl⟩, hd, h⟩
      rw [hc] at hd
      cases hd
      obtain ⟨-, rfl⟩ : k = l ∧ i = j := by simpa using hl
      exact h
  exact ⟨hiff, fun hnot row hrow hpublic => label_of_serializable hdb (hiff.mpr hnot) hrow hpublic⟩

/-! ## Two schedules -/

/-- The database with one private config of the first user. -/
def sampleTank : Database :=
  final (((ConfigCall.create ⟨1, "ann", "", .DEV, true⟩ ⟨"tank", "tank", {}, .PRIVATE⟩).run .INFO sampleEnv).run
    sampleDatabase)

theorem sampleTank_reachable : sampleTank.Reachable .INFO :=
  ⟨sampleDatabase, _, ⟨rfl, rfl⟩, .single (.call _ sampleEnv)⟩

/-- The owner assigns a visibility and shares the config with the second user. -/
def sampleRequests (visibility : ConfigVisibility) : Requests where
  request
    | true => .update ⟨1, "ann", "", .DEV, true⟩ { visibility := some visibility }
    | false => .share ⟨1, "ann", "", .DEV, true⟩ ⟨"bob", .READ⟩
  env _ := sampleEnv

def sampleEvents : List RaceEvent := [.load true, .load false, .commit true, .commit false]

/-- What was private stays private: the two requests do not interfere. -/
theorem private_and_share_serializable :
    ∃ t, Runs .INFO 1 (sampleRequests .PRIVATE) { db := sampleTank } sampleEvents t ∧ t.Done ∧
      Serializable .INFO 1 (sampleRequests .PRIVATE) sampleTank t.db := by
  have hrun : ∃ t, Runs .INFO 1 (sampleRequests .PRIVATE) { db := sampleTank } sampleEvents t ∧ t.Done :=
    ⟨_, .cons rfl (.cons rfl (.cons rfl (.cons rfl (.nil _)))), fun i => by cases i <;> rfl⟩
  obtain ⟨t, hrun, hdone⟩ := hrun
  refine ⟨t, hrun, hdone, (serializable_iff_not_interferes sampleTank_reachable hrun hdone).1.mpr ?_⟩
  rintro ⟨i, c, ⟨k, hk⟩, hc, hconflict⟩
  obtain ⟨-, rfl⟩ : k = true ∧ i = true := by
    unfold sampleEvents at hk
    cases k <;> cases i <;> simp at hk ⊢
  have hflag : c.published = false := by
    cases hc
    rfl
  obtain ⟨hne, -⟩ := (SharingOp.conflict_flag_grants (a := .publish false) trivial).mp hconflict
  exact hne hflag

/-- **A lost publication.** The share commits the label SHARED over the PUBLIC that was committed after
it had loaded; in either order the config ends PUBLIC. -/
theorem publication_lost :
    ¬ ∀ (root : LogLevel) (configId : ℤ) (reqs : Requests) (db : Database) (events : List RaceEvent) (t : Race),
      db.Reachable root → Runs root configId reqs { db := db } events t → t.Done →
        Serializable root configId reqs db t.db := by
  intro h
  have hrun : ∃ t, Runs .INFO 1 (sampleRequests .PUBLIC) { db := sampleTank } sampleEvents t ∧ t.Done ∧
      (t.db.sharing 1).map (fun x => x.2.1) = some .SHARED :=
    ⟨_, .cons rfl (.cons rfl (.cons rfl (.cons rfl (.nil _)))), fun i => by cases i <;> rfl, rfl⟩
  obtain ⟨t, hrun, hdone, hlabel⟩ := hrun
  obtain ⟨i, hi⟩ := h .INFO 1 _ sampleTank sampleEvents t sampleTank_reachable hrun hdone
  have hserial : ((serially .INFO 1 (sampleRequests .PUBLIC) sampleTank i).sharing 1).map (fun x => x.2.1) =
      some .PUBLIC := by
    cases i <;> rfl
  rw [hi, hserial] at hlabel
  cases hlabel

end Race
end Tstlan
