import Tstlan.Configs.Refinement

/-! # The config store over whole runs

The call simulation, lifted to runs of any length; shares to different grantees in either order; and an
unshare after a first share. -/
namespace Tstlan
open Foundations
set_option autoImplicit false

/-! ## One call, read from either side -/

namespace Configs
variable {root : LogLevel} {env : Env} {db db' : Database} {call : ConfigCall}

theorem perform_of_run (hdb : db.WellShared) (h : (call.run root env).run db = .ok () db') :
    db.abstract.perform (nextId env db) call = .ok db'.abstract ∧ db'.WellShared := by
  rcases simulates root env hdb call with ⟨e, -, hrun⟩ | ⟨db₁, habs, hrun, hwell⟩
  · rw [hrun] at h
    cases h
  · rw [hrun] at h
    cases h
    exact ⟨habs, hwell⟩

theorem run_of_perform (root : LogLevel) (env : Env) (hdb : db.WellShared) {s : AbstractStore}
    (h : db.abstract.perform (nextId env db) call = .ok s) :
    ∃ db', (call.run root env).run db = .ok () db' ∧ db'.abstract = s ∧ db'.WellShared := by
  rcases simulates root env hdb call with ⟨e, habs, -⟩ | ⟨db', habs, hrun, hwell⟩
  · rw [h] at habs
    cases habs
  · rw [h] at habs
    exact ⟨db', hrun, (Except.ok.inj habs).symm, hwell⟩

end Configs

/-! ## Runs -/

/-- Reached by the service from a database without configs. -/
def Database.Reachable (root : LogLevel) (db : Database) : Prop :=
  Foundations.Reachable (fun start : Database => start.configs = Dict.empty ∧ start.shares = Dict.empty)
    (Database.Step root) db

namespace Database
variable {root : LogLevel} {db db' : Database}

theorem wellShared_congr (hdb : db.WellShared) (hconfigs : db'.configs = db.configs)
    (hshares : db'.shares = db.shares) : db'.WellShared := by
  have hgrants := grants_congr hshares
  intro id row hrow
  rw [hconfigs] at hrow
  have := hdb id row hrow
  unfold abstractConfig at this ⊢
  rwa [hgrants]

theorem wellShared_empty (hconfigs : db.configs = Dict.empty) : db.WellShared := by
  intro id row hrow
  rw [hconfigs] at hrow
  cases hrow

/-- One step on both sides. -/
theorem refines_step {e : ConfigEvent} (hdb : db.WellShared) (h : Step root db e db') :
    AbstractStore.Step db.abstract e db'.abstract ∧ db'.WellShared := by
  cases h with
  | call call env =>
    have hfresh : db.abstract.configs (Configs.nextId env db) = none := by
      show (db.configs.get? (env.ids.nextKey db.configs)).map _ = none
      rw [env.ids.get?_nextKey]
      rfl
    rcases Configs.simulates root env hdb call with ⟨e, habs, hrun⟩ | ⟨db', habs, hrun, hwell⟩
    · rw [hrun]
      exact ⟨.failed hfresh habs, hdb⟩
    · rw [hrun]
      exact ⟨.done hfresh habs, hwell⟩
  | elsewhere hconfigs hshares =>
    refine ⟨?_, wellShared_congr hdb hconfigs hshares⟩
    have habs : db'.abstract = { db.abstract with users := db'.users } := by
      refine AbstractStore.eq_of_configs rfl (fun id => ?_)
      show (db'.configs.get? id).map db'.abstractConfig = (db.configs.get? id).map db.abstractConfig
      unfold abstractConfig
      rw [hconfigs, grants_congr hshares]
    rw [habs]
    exact .elsewhere db'.users

theorem refines_run {events : List ConfigEvent} (h : Run (Step root) db events db') (hdb : db.WellShared) :
    Run AbstractStore.Step db.abstract events db'.abstract ∧ db'.WellShared := by
  induction h with
  | nil db => exact ⟨.nil _, hdb⟩
  | cons head _ ih =>
    obtain ⟨hstep, hwell⟩ := refines_step hdb head
    obtain ⟨hrun, hwell'⟩ := ih hwell
    exact ⟨.cons hstep hrun, hwell'⟩

theorem wellShared_of_reachable (h : db.Reachable root) : db.WellShared := by
  obtain ⟨start, events, ⟨hconfigs, -⟩, hrun⟩ := h
  exact (refines_run hrun (wellShared_empty hconfigs)).2

/-- Owner, label and grant map of a config. -/
def sharing (db : Database) (configId : ℤ) : Option (ℤ × ConfigVisibility × (ℤ → Option SharePermission)) :=
  (db.configs.get? configId).map (fun row => (row.ownerId, row.visibility, db.grants configId))

/-- The abstract store determines the sharing of every config, the label included. -/
theorem sharing_eq (hdb : db.WellShared) (configId : ℤ) :
    db.sharing configId =
      (db.abstract.configs configId).map (fun c => (c.owner, visibilityOf c, c.grants)) := by
  show _ = ((db.configs.get? configId).map db.abstractConfig).map _
  unfold sharing
  cases hrow : db.configs.get? configId with
  | none => rfl
  | some row =>
    rw [Option.map_some, Option.map_some, Option.map_some, ← (hdb configId row hrow).1]
    show some (row.ownerId, row.visibility, db.grants configId) = some (row.ownerId, _, db.grants row.id)
    rw [id_of_config hrow]

theorem sharing_congr (hdb : db.WellShared) (hdb' : db'.WellShared) (h : db'.abstract = db.abstract)
    (configId : ℤ) : db'.sharing configId = db.sharing configId := by
  rw [sharing_eq hdb', sharing_eq hdb, h]

end Database

/-! ## Shares commute -/

namespace AbstractStore

theorem access_owner {user : User} {c : AbstractConfig} :
    access user c = some .OWNER ↔ user.role = .ADMIN ∨ c.owner = user.id := by
  unfold access
  constructor
  · intro h
    by_contra hnot
    rw [if_neg hnot] at h
    cases hg : c.grants user.id with
    | none =>
      rw [hg] at h
      simp only at h
      split at h <;> cases h
    | some p =>
      rw [hg] at h
      cases p <;> cases h
  · intro h
    rw [if_pos h]

theorem managed_ok {s : AbstractStore} {user : User} {configId : ℤ} {c : AbstractConfig} :
    s.managed user configId = .ok c ↔
      s.configs configId = some c ∧ (user.role = .ADMIN ∨ c.owner = user.id) := by
  unfold managed visible
  cases hc : s.configs configId with
  | none => exact iff_of_false (fun h => nomatch h) (fun h => nomatch h.1)
  | some d =>
    cases ha : access user d with
    | none =>
      simp only [ha, bind, Except.bind]
      refine iff_of_false (fun h => nomatch h) (fun h => ?_)
      obtain ⟨hd, howner⟩ := h
      cases hd
      rw [access_owner.mpr howner] at ha
      cases ha
    | some a =>
      simp only [ha, bind, Except.bind]
      by_cases howner : a = .OWNER
      · rw [if_pos howner]
        rw [howner] at ha
        constructor
        · intro h
          cases h
          exact ⟨rfl, access_owner.mp ha⟩
        · rintro ⟨hd, -⟩
          rw [Option.some.inj hd]
          rfl
      · rw [if_neg howner]
        refine iff_of_false (fun h => nomatch h) (fun h => ?_)
        obtain ⟨hd, hmanage⟩ := h
        cases hd
        rw [access_owner.mpr hmanage] at ha
        exact howner (Option.some.inj ha).symm

theorem perform_share {s t : AbstractStore} {newId : ℤ} {user : User} {configId : ℤ} {req : ShareRequest} :
    s.perform newId (.share user configId req) = .ok t ↔
      ∃ c grantee, s.configs configId = some c ∧ (user.role = .ADMIN ∨ c.owner = user.id) ∧
        s.userByLogin req.login = some grantee ∧ grantee.id ≠ c.owner ∧
        t = s.put configId (some (c.grant grantee.id req.permission)) := by
  unfold perform
  cases hm : s.managed user configId with
  | error e =>
    simp only [hm, bind, Except.bind]
    refine iff_of_false (by rintro ⟨⟩) ?_
    rintro ⟨c, grantee, hc, hmanage, -⟩
    rw [managed_ok.mpr ⟨hc, hmanage⟩] at hm
    cases hm
  | ok c =>
    obtain ⟨hc, hmanage⟩ := managed_ok.mp hm
    simp only [hm, bind, Except.bind]
    cases hu : s.userByLogin req.login with
    | none =>
      refine iff_of_false (by rintro ⟨⟩) ?_
      rintro ⟨d, u, -, -, h, -⟩
      cases h
    | some grantee =>
      show (if grantee.id = c.owner then Except.error (ConfigError.cannotShareWithOwner req.login) else
        Except.ok (s.put configId (some (c.grant grantee.id req.permission)))) = _ ↔ _
      by_cases hself : grantee.id = c.owner
      · rw [if_pos hself]
        refine iff_of_false (by rintro ⟨⟩) ?_
        rintro ⟨d, u, hd, -, hu', hne, -⟩
        cases hu'
        rw [hc] at hd
        cases hd
        exact hne hself
      · rw [if_neg hself]
        constructor
        · intro h
          cases h
          exact ⟨c, grantee, hc, hmanage, rfl, hself, rfl⟩
        · rintro ⟨d, u, hd, -, hu', -, rfl⟩
          cases hu'
          rw [hc] at hd
          cases hd
          rfl

theorem share_comm {s s₁ s₁₂ : AbstractStore} {n m : ℤ} {user user' : User} {configId : ℤ}
    {req req' : ShareRequest} (h₁ : s.perform n (.share user configId req) = .ok s₁)
    (h₂ : s₁.perform m (.share user' configId req') = .ok s₁₂)
    (hne : ∀ g g', s.userByLogin req.login = some g → s.userByLogin req'.login = some g' → g.id ≠ g'.id) :
    ∃ s₂, (∀ n, s.perform n (.share user' configId req') = .ok s₂) ∧
      ∀ n, s₂.perform n (.share user configId req) = .ok s₁₂ := by
  obtain ⟨c, g, hc, hmanage, hg, hself, rfl⟩ := perform_share.mp h₁
  obtain ⟨d, g', hd, hmanage', hg', hself', rfl⟩ := perform_share.mp h₂
  have hput : ∀ x : Option AbstractConfig, (s.put configId x).configs configId = x :=
    fun x => Function.update_self ..
  rw [hput] at hd
  cases hd
  have hlogin : s.userByLogin req'.login = some g' := hg'
  refine ⟨s.put configId (some (c.grant g'.id req'.permission)), fun _ => ?_, fun _ => ?_⟩
  · exact perform_share.mpr ⟨c, g', hc, hmanage', hlogin, hself', rfl⟩
  · refine perform_share.mpr ⟨c.grant g'.id req'.permission, g, hput _, hmanage, hg, hself, ?_⟩
    rw [Shareable.grant_comm c (hne g g' hg hlogin)]
    unfold put
    rw [Function.update_idem, Function.update_idem]

theorem perform_unshare {s : AbstractStore} {c : AbstractConfig} {grantee : User} {user : User}
    {configId : ℤ} {login : String} (hc : s.configs configId = some c)
    (hmanage : user.role = .ADMIN ∨ c.owner = user.id) (hu : s.userByLogin login = some grantee)
    (hg : (c.grants grantee.id).isSome) (newId : ℤ) :
    s.perform newId (.unshare user configId login) = .ok (s.put configId (some (c.revoke grantee.id))) := by
  unfold perform
  simp only [managed_ok.mpr ⟨hc, hmanage⟩, bind, Except.bind, hu]
  exact if_pos hg

end AbstractStore

/-! ## An unshare undoes a first share -/

namespace Configs
variable {root : LogLevel} {env : Env} {db db₁ : Database} {user : User} {configId : ℤ}
  {row : DeviceConfig} {o : ConfigObject} {edit : ConfigObject.GrantEdit}

/-- When only the label of the object was assigned, the flush changes only the label and the time. -/
theorem rowAfter_label (hstored : o.stored = row) (hrow : o.row = { row with visibility := o.row.visibility })
    (now : Time) :
    ∃ t, o.rowAfter now row = { row with visibility := o.row.visibility, updatedAt := t } := by
  have hname : o.row.name = row.name := by rw [hrow]
  have hpayload : o.row.payload = row.payload := by rw [hrow]
  unfold ConfigObject.rowAfter
  split
  · next hclean =>
    have hvis : o.row.visibility = row.visibility := by rw [hclean.2.2, hstored]
    exact ⟨row.updatedAt, by rw [hvis]⟩
  · refine ⟨now, ?_⟩
    unfold ConfigObject.written
    rw [hstored, hname, hpayload, if_pos rfl, if_pos row.payload.same_refl]
    split
    · next hvis => rw [hvis]
    · rfl

/-- The first grant to a user is a new row. -/
theorem edit_eq_add {granteeId : ℤ} {p : SharePermission} (hvalid : edit.Valid db configId)
    (hfirst : db.grants configId granteeId = none)
    (happly : edit.apply (db.grants configId) = Function.update (db.grants configId) granteeId (some p)) :
    edit = .add granteeId p := by
  have hat := congrFun happly granteeId
  rw [Function.update_self] at hat
  cases edit with
  | keep =>
    rw [ConfigObject.GrantEdit.apply, hfirst] at hat
    cases hat
  | add g q =>
    by_cases h : granteeId = g
    · rw [ConfigObject.GrantEdit.apply, h, Function.update_self] at hat
      rw [h, Option.some.inj hat]
    · rw [ConfigObject.GrantEdit.apply, Function.update_of_ne h, hfirst] at hat
      cases hat
  | assign s q =>
    have hheld := Database.grants_isSome.mpr ⟨s, hvalid, rfl⟩
    by_cases h : granteeId = s.granteeId
    · rw [← h, hfirst] at hheld
      cases hheld
    · rw [ConfigObject.GrantEdit.apply, Function.update_of_ne h, hfirst] at hat
      cases hat
  | drop s =>
    by_cases h : granteeId = s.granteeId
    · rw [ConfigObject.GrantEdit.apply, h, Function.update_self] at hat
      cases hat
    · rw [ConfigObject.GrantEdit.apply, Function.update_of_ne h, hfirst] at hat
      cases hat

/-- What a first share stores: one new row, and the label of the config. -/
theorem first_share {req : ShareRequest}
    (hrun : ((ConfigCall.share user configId req).run root env).run db = .ok () db₁)
    (hfirst : ∀ u, db.userByLogin req.login = some u → db.grants configId u.id = none) :
    ∃ row grantee k v t, db.configs.get? configId = some row ∧
      (user.role = .ADMIN ∨ row.ownerId = user.id) ∧ db.userByLogin req.login = some grantee ∧
      grantee.id ≠ row.ownerId ∧ db.shares.get? k = none ∧
      (v = .PUBLIC ↔ row.visibility = .PUBLIC) ∧
      db₁.toTables = { db.toTables with
        configs := db.configs.set configId { row with visibility := v, updatedAt := t }
        shares := db.shares.set k ⟨k, configId, grantee.id, req.permission⟩ } := by
  rcases prepareShare_cases root db user configId req with ⟨e, -, hprep⟩ |
    ⟨row, grantee, o, edit, haccess, hgrantee, hself, hprep, hobject, hlabel, hpublic, happly, -⟩
  · rw [show ((ConfigCall.share user configId req).run root env).run db = .error e db from
      run_bind_error (shareConfig_error hprep)] at hrun
    cases hrun
  · obtain rfl := edit_eq_add hobject.valid (hfirst grantee hgrantee) happly
    obtain ⟨db', hflush, hc⟩ := flush_prepared hobject env
    rw [show ((ConfigCall.share user configId req).run root env).run db = .ok () db' from
      run_bind_ok (shareConfig_ok hprep hflush hc.get?)] at hrun
    cases hrun
    obtain ⟨db₀, hsplit, hdb₀⟩ := flush_split hobject hobject.found env
    obtain ⟨k, hk, hdb₁⟩ := ConfigObject.GrantEdit.flush_add_ok (hsplit.symm.trans hflush)
    have hshares : db₀.shares = db.shares := by rw [hdb₀]
    obtain ⟨t, hrow⟩ := rowAfter_label hobject.stored hlabel env.now
    refine ⟨row, grantee, k, o.row.visibility, t, hobject.found, AbstractStore.access_owner.mp haccess,
      hgrantee, hself, hshares ▸ hk, hpublic, ?_⟩
    rw [hdb₁, hdb₀, hrow]

/-- What an unshare stores: one row fewer, and the label of the config. -/
theorem unshare_tables (root : LogLevel) (env : Env) {login : String} {grantee : User} (hrow : db.configs.get? configId = some row)
    (hmanage : user.role = .ADMIN ∨ row.ownerId = user.id) (hgrantee : db.userByLogin login = some grantee)
    {r : ConfigShare} (hr : r ∈ db.sharesOf configId) (hrg : r.granteeId = grantee.id) :
    ∃ db₂ v t, ((ConfigCall.unshare user configId login).run root env).run db = .ok () db₂ ∧
      (v = .PUBLIC ↔ row.visibility = .PUBLIC) ∧
      db₂.toTables = { db.toTables with
        configs := db.configs.set configId { row with visibility := v, updatedAt := t }
        shares := db.shares.erase r.id } := by
  have hid := Database.id_of_config hrow
  have habs : db.abstract.configs configId = some (db.abstractConfig row) := by
    show (db.configs.get? configId).map _ = _
    rw [hrow]
    rfl
  have hheld : ((db.abstractConfig row).grants grantee.id).isSome := by
    show (db.grants row.id grantee.id).isSome
    rw [hid]
    exact Database.grants_isSome.mpr ⟨r, hr, hrg⟩
  have hok := AbstractStore.perform_unshare habs hmanage hgrantee hheld 0
  rcases prepareUnshare_cases root db user configId login with ⟨e, herr, -⟩ |
    ⟨row', grantee', o, s, -, hgrantee', hg, hprep, hobject, hlabel, hpublic, -⟩
  · rw [herr] at hok
    cases hok
  · rw [hgrantee] at hgrantee'
    cases hgrantee'
    have hfound := hobject.found
    rw [hrow] at hfound
    cases hfound
    obtain rfl : s = r := Database.eq_of_mem_sharesOf hobject.valid hr (hg.trans hrg.symm)
    obtain ⟨db₀, hsplit, hdb₀⟩ := flush_split hobject hobject.found env
    obtain ⟨db₂, hdrop, hdb₂⟩ := ConfigObject.GrantEdit.flush_drop env configId db₀ s
    obtain ⟨t, hafter⟩ := rowAfter_label hobject.stored hlabel env.now
    rw [hafter] at hdb₀
    refine ⟨db₂, o.row.visibility, t, ?_, hpublic, by rw [hdb₂, hdb₀]⟩
    have hfound₂ : db₂.configs.get? configId = some { row with visibility := o.row.visibility, updatedAt := t } := by
      rw [hdb₂, hdb₀]
      exact Dict.get?_set_self ..
    exact run_bind_ok (unshareConfig_ok hprep (hsplit.trans hdrop) hfound₂)

/-- After a first share, an unshare restores the share table and every config but for its time. -/
theorem unshare_undoes {req : ShareRequest} (hdb : db.WellShared)
    (hrun : ((ConfigCall.share user configId req).run root env).run db = .ok () db₁)
    (hfirst : ∀ u, db.userByLogin req.login = some u → db.grants configId u.id = none) (env' : Env) :
    ∃ db₂, ((ConfigCall.unshare user configId req.login).run root env').run db₁ = .ok () db₂ ∧
      db₂.shares = db.shares ∧ db₂.users = db.users ∧ ∀ id, ∃ t, db₂.configs.get? id =
        (db.configs.get? id).map (fun row => if id = configId then { row with updatedAt := t } else row) := by
  obtain ⟨row, grantee, k, v, t, hrow, hmanage, hgrantee, hself, hk, hv, hdb₁⟩ := first_share hrun hfirst
  have hconfigs₁ : db₁.configs = db.configs.set configId { row with visibility := v, updatedAt := t } := by
    rw [hdb₁]
  have hshares₁ : db₁.shares = db.shares.set k ⟨k, configId, grantee.id, req.permission⟩ := by rw [hdb₁]
  have husers₁ : db₁.users = db.users := by rw [hdb₁]
  have hr : ⟨k, configId, grantee.id, req.permission⟩ ∈ db₁.sharesOf configId :=
    Database.mem_sharesOf.mpr ⟨by rw [hshares₁, Dict.get?_set_self], rfl⟩
  have hrow₁ : db₁.configs.get? configId = some { row with visibility := v, updatedAt := t } := by
    rw [hconfigs₁, Dict.get?_set_self]
  have hgrantee₁ : db₁.userByLogin req.login = some grantee := by
    unfold Database.userByLogin
    rw [husers₁]
    exact hgrantee
  obtain ⟨db₂, v', t', hrun₂, hv', hdb₂⟩ :=
    unshare_tables root env' hrow₁ hmanage hgrantee₁ hr rfl
  have hshares₂ : db₂.shares = db.shares := by
    rw [hdb₂]
    show db₁.shares.erase k = db.shares
    rw [hshares₁, Dict.erase_set_of_fresh _ hk]
  have hconfigs₂ : db₂.configs = db.configs.set configId { row with visibility := v', updatedAt := t' } := by
    rw [hdb₂]
    show db₁.configs.set configId _ = _
    rw [hconfigs₁, Dict.set_set]
  have hlabel : v' = row.visibility := by
    have hwell₁ := (perform_of_run hdb hrun).2
    have hwell₂ := (perform_of_run hwell₁ hrun₂).2
    have hlabel₂ := (hwell₂ configId _ (by rw [hconfigs₂, Dict.get?_set_self])).1
    have hsame : db₂.abstractConfig { row with visibility := v', updatedAt := t' } = db.abstractConfig row := by
      unfold Database.abstractConfig
      rw [Database.grants_congr hshares₂]
      simp only [hv'.trans hv]
    rw [hsame, ← (hdb configId row hrow).1] at hlabel₂
    exact hlabel₂
  refine ⟨db₂, hrun₂, hshares₂, by rw [hdb₂]; exact husers₁, fun id => ⟨t', ?_⟩⟩
  rw [hconfigs₂, Dict.get?_set]
  by_cases hid : id = configId
  · rw [if_pos hid, hid, hrow, Option.map_some, if_pos rfl, hlabel]
  · rw [if_neg hid]
    cases db.configs.get? id with
    | none => rfl
    | some r => rw [Option.map_some, if_neg hid]

end Configs

/-! ## The store as a whole -/

/-- **The config store refines owners, flags and grant maps.** A run of calls from a database without
configs is matched, call by call and outcome by outcome, by a run of the abstract store. In the state
reached every config has the owner, the grants and the label of its abstract one, one share row for each
grantee and none for its owner. Two shares to different grantees give the same sharing in either order, and
an unshare after a first share leaves the share table as it was and of the configs only `updated_at`
changed. -/
theorem configs_refine_sharing (root : LogLevel) (start db : Database) (events : List ConfigEvent)
    (hconfigs : start.configs = Dict.empty) (h : Run (Database.Step root) start events db) :
    ∃ s : AbstractStore, Run AbstractStore.Step ⟨start.users, fun _ => none⟩ events s ∧
      (∀ id, db.sharing id = (s.configs id).map (fun c => (c.owner, visibilityOf c, c.grants))) ∧
      (∀ id g p, db.grants id g = some p ↔ ∃ r ∈ db.sharesOf id, r.granteeId = g ∧ r.permission = p) ∧
      (∀ id, ∀ r ∈ db.sharesOf id, ∀ r' ∈ db.sharesOf id, r.granteeId = r'.granteeId → r = r') ∧
      (∀ id row, db.configs.get? id = some row → ∀ r ∈ db.sharesOf id, r.granteeId ≠ row.ownerId) ∧
      (∀ user user' id req req' env env' db₁ db₁₂, req.login ≠ req'.login →
        ((ConfigCall.share user id req).run root env).run db = .ok () db₁ →
        ((ConfigCall.share user' id req').run root env').run db₁ = .ok () db₁₂ →
        ∃ db₂ db₂₁, ((ConfigCall.share user' id req').run root env').run db = .ok () db₂ ∧
          ((ConfigCall.share user id req).run root env).run db₂ = .ok () db₂₁ ∧
          ∀ c, db₂₁.sharing c = db₁₂.sharing c) ∧
      (∀ user id req env env' db₁, ((ConfigCall.share user id req).run root env).run db = .ok () db₁ →
        (∀ u, db.userByLogin req.login = some u → db.grants id u.id = none) →
        ∃ db₂, ((ConfigCall.unshare user id req.login).run root env').run db₁ = .ok () db₂ ∧
          db₂.shares = db.shares ∧ db₂.users = db.users ∧ ∀ c, ∃ t, db₂.configs.get? c =
            (db.configs.get? c).map (fun row => if c = id then { row with updatedAt := t } else row)) := by
  have hempty : start.abstract = ⟨start.users, fun _ => none⟩ := by
    refine AbstractStore.eq_of_configs rfl (fun id => ?_)
    show (start.configs.get? id).map _ = none
    rw [hconfigs]
    rfl
  obtain ⟨hrun, hwell⟩ := Database.refines_run h (Database.wellShared_empty hconfigs)
  rw [hempty] at hrun
  refine ⟨db.abstract, hrun, Database.sharing_eq hwell, fun _ _ _ => Database.grants_eq_some,
    fun _ r hr r' hr' hg => Database.eq_of_mem_sharesOf hr hr' hg, ?_, ?_,
    fun _ _ _ _ env' _ hshare hfirst => Configs.unshare_undoes hwell hshare hfirst env'⟩
  · intro id row hrow r hr hself
    have hheld := Database.grants_isSome.mpr ⟨r, hr, hself⟩
    rw [(hwell id row hrow).2] at hheld
    cases hheld
  · intro user user' id req req' env env' db₁ db₁₂ hne h₁ h₂
    obtain ⟨habs₁, hwell₁⟩ := Configs.perform_of_run hwell h₁
    obtain ⟨habs₁₂, hwell₁₂⟩ := Configs.perform_of_run hwell₁ h₂
    obtain ⟨s₂, hs₂, hs₂₁⟩ := AbstractStore.share_comm habs₁ habs₁₂ (fun g g' hg hg' hsame => by
      obtain ⟨hu, hlogin⟩ := Configs.userByLogin_some hg
      obtain ⟨hu', hlogin'⟩ := Configs.userByLogin_some hg'
      rw [hsame, hu'] at hu
      cases hu
      exact hne (hlogin.symm.trans hlogin'))
    obtain ⟨db₂, hrun₂, rfl, hwell₂⟩ := Configs.run_of_perform root env' hwell (hs₂ _)
    obtain ⟨db₂₁, hrun₂₁, habs₂₁, hwell₂₁⟩ :=
      Configs.run_of_perform root env hwell₂ (hs₂₁ _)
    exact ⟨db₂, db₂₁, hrun₂, hrun₂₁, Database.sharing_congr hwell₁₂ hwell₂₁ habs₂₁⟩

/-! ## A run -/

def sampleUsers : Dict ℤ User := Dict.ofList [(1, ⟨1, "ann", "", .DEV, true⟩), (2, ⟨2, "bob", "", .USER, true⟩)]

def sampleDatabase : Database := ⟨⟨sampleUsers, Dict.empty, Dict.empty, Dict.empty⟩, by decide⟩

def sampleEnv : Env := ⟨0, IdSource.largest⟩

/-- One user creates a config and shares it with the other. -/
theorem sampleCalls_refined :
    ∃ events db s, events.length = 2 ∧ Run (Database.Step .INFO) sampleDatabase events db ∧
      (db.sharing 1).map (fun x => x.2.1) = some .SHARED ∧
      Run AbstractStore.Step ⟨sampleUsers, fun _ => none⟩ events s := by
  have hrun : ∃ events db, events.length = 2 ∧ Run (Database.Step .INFO) sampleDatabase events db ∧
      (db.sharing 1).map (fun x => x.2.1) = some .SHARED :=
    ⟨_, _, rfl, .cons (.call (.create ⟨1, "ann", "", .DEV, true⟩ ⟨"tank", "tank", {}, .PRIVATE⟩) sampleEnv)
      (.cons (.call (.share ⟨1, "ann", "", .DEV, true⟩ 1 ⟨"bob", .WRITE⟩) sampleEnv) (.nil _)), rfl⟩
  obtain ⟨events, db, hlength, hrun, hlabel⟩ := hrun
  obtain ⟨s, hs, -⟩ := configs_refine_sharing .INFO sampleDatabase db events rfl hrun
  exact ⟨events, db, s, hlength, hrun, hlabel, hs⟩

end Tstlan
