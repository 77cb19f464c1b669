import Tstlan.Configs.Prepare

/-! # The config service refines the abstract store

Every call of the service succeeds or fails as the abstract call does and leaves the tables in a state
that represents the abstract outcome; the visibility label of a config is always the one its sharing
calls for. -/
namespace Tstlan
open Foundations
set_option autoImplicit false

theorem AbstractStore.eq_of_configs {s t : AbstractStore} (husers : s.users = t.users)
    (hconfigs : ∀ id, s.configs id = t.configs id) : s = t := by
  cases s
  cases t
  simp only at husers hconfigs
  rw [husers, funext hconfigs]

namespace Database

/-- The labels are those that the sharing calls for, and no owner holds a grant. -/
def WellShared (db : Database) : Prop :=
  ∀ id row, db.configs.get? id = some row →
    row.visibility = visibilityOf (db.abstractConfig row) ∧ db.grants id row.ownerId = none

/-- `db'` is `db` with one config's row replaced and its grants now `G`. -/
structure Committed (db : Database) (configId : ℤ) (row : DeviceConfig) (G : ℤ → Option SharePermission)
    (db' : Database) : Prop where
  users : db'.users = db.users
  sessions : db'.sessions = db.sessions
  configs : db'.configs = db.configs.set configId row
  id : row.id = configId
  grants : db'.grants configId = G
  others : ∀ c, c ≠ configId → db'.grants c = db.grants c

variable {db db' : Database} {configId : ℤ} {row : DeviceConfig} {G : ℤ → Option SharePermission}

theorem Committed.get? (h : Committed db configId row G db') : db'.configs.get? configId = some row := by
  rw [h.configs, Dict.get?_set_self]

theorem Committed.abstractConfig (h : Committed db configId row G db') :
    db'.abstractConfig row = ⟨row.ownerId, row.visibility = .PUBLIC, G⟩ := by
  unfold Database.abstractConfig
  rw [h.id, h.grants]

theorem Committed.abstractConfig_other (h : Committed db configId row G db') {r : DeviceConfig}
    (hne : r.id ≠ configId) : db'.abstractConfig r = db.abstractConfig r := by
  unfold Database.abstractConfig
  rw [h.others _ hne]

theorem Committed.abstract (h : Committed db configId row G db') :
    db'.abstract = db.abstract.put configId (some ⟨row.ownerId, row.visibility = .PUBLIC, G⟩) := by
  refine AbstractStore.eq_of_configs h.users (fun id => ?_)
  show (db'.configs.get? id).map db'.abstractConfig = Function.update db.abstract.configs configId _ id
  by_cases hid : id = configId
  · rw [hid, h.get?, Function.update_self, Option.map_some, h.abstractConfig]
  · rw [Function.update_of_ne hid, h.configs, Dict.get?_set_of_ne _ _ hid]
    show _ = (db.configs.get? id).map db.abstractConfig
    cases hrow : db.configs.get? id with
    | none => rfl
    | some r =>
      rw [Option.map_some, Option.map_some, h.abstractConfig_other (by rw [id_of_config hrow]; exact hid)]

theorem Committed.wellShared (h : Committed db configId row G db') (hdb : db.WellShared)
    (hlabel : row.visibility = visibilityOf ⟨row.ownerId, row.visibility = .PUBLIC, G⟩)
    (howner : G row.ownerId = none) : db'.WellShared := by
  intro id r hr
  rw [h.configs, Dict.get?_set] at hr
  split at hr
  · next hid =>
    cases hr
    rw [h.abstractConfig, hid, h.grants]
    exact ⟨hlabel, howner⟩
  · next hid =>
    rw [h.abstractConfig_other (by rw [id_of_config hr]; exact hid), h.others id hid]
    exact hdb id r hr

end Database

namespace Configs
variable {root : LogLevel} {env : Env} {db₀ db db' : Database} {user : User} {configId : ℤ} {row : DeviceConfig}
  {o : ConfigObject} {edit : ConfigObject.GrantEdit} {access : Access} {e : ConfigError}

/-! ## The commit of what was prepared -/

/-- The flush writes the row and then makes the edit, also in a database that has changed since. -/
theorem flush_split (h : Prepared db₀ configId row o edit) {cur : DeviceConfig}
    (hcur : db.configs.get? configId = some cur) (env : Env) :
    ∃ db₁ : Database, o.flush env db = edit.flush env configId db₁ ∧ db₁.toTables = { db.toTables with
      configs := db.configs.set configId (o.rowAfter env.now cur) } := by
  have hid : o.stored.id = configId := by rw [h.stored, Database.id_of_config h.found]
  obtain ⟨db₁, hflush, hdb₁⟩ := o.flushRow_ok env (hid.symm ▸ hcur)
  rw [hid] at hdb₁
  refine ⟨db₁, ?_, hdb₁⟩
  rw [ConfigObject.flush_eq env h.edited, hflush, hid]
  rfl

theorem Prepared.valid_congr (h : Prepared db configId row o edit) (husers : db'.users = db.users)
    (hshares : db'.shares = db.shares) : edit.Valid db' configId := by
  have hv := h.valid
  cases edit with
  | keep => trivial
  | add granteeId p =>
    refine ⟨by rw [husers]; exact hv.1, ?_⟩
    rw [Database.grants_congr hshares]
    exact hv.2
  | assign s p => exact Database.mem_sharesOf.mpr (hshares ▸ Database.mem_sharesOf.mp hv)
  | drop s => exact Database.mem_sharesOf.mpr (hshares ▸ Database.mem_sharesOf.mp hv)

theorem flush_prepared (h : Prepared db configId row o edit) (env : Env) :
    ∃ db', o.flush env db = .ok db' ∧
      db.Committed configId (o.rowAfter env.now row) (edit.apply (db.grants configId)) db' := by
  obtain ⟨db₁, hflush, hdb₁⟩ := flush_split h h.found env
  have hshares : db₁.shares = db.shares := by rw [hdb₁]
  have husers : db₁.users = db.users := by rw [hdb₁]
  have hconfigs : db₁.configs = db.configs.set configId (o.rowAfter env.now row) := by rw [hdb₁]
  have hgrants := Database.grants_congr hshares
  have hsome : (db₁.configs.get? configId).isSome := by
    rw [hconfigs, Dict.get?_set_self]
    rfl
  obtain ⟨db', hedit, hr⟩ := ConfigObject.GrantEdit.flush_valid env hsome (h.valid_congr husers hshares)
  refine ⟨db', hflush.trans hedit, ?_⟩
  exact
    { users := hr.users.trans husers
      sessions := hr.sessions.trans (by rw [hdb₁])
      configs := hr.configs.trans hconfigs
      id := (o.id_rowAfter env.now row).trans (Database.id_of_config h.found)
      grants := by rw [hr.grants, hgrants]
      others := fun c hc => by rw [hr.others c hc, hgrants] }

theorem visibility_rowAfter_self (h : o.stored = row) (now : Time) :
    (o.rowAfter now row).visibility = o.row.visibility := by
  rw [ConfigObject.visibility_rowAfter, h]
  split
  · next heq => exact heq.symm
  · rfl

theorem label_prepared (h : Prepared db configId row o edit) (hdb : db.WellShared) :
    o.row.visibility =
      visibilityOf ⟨row.ownerId, o.row.visibility = .PUBLIC, edit.apply (db.grants configId)⟩ := by
  obtain ⟨hpublic, hshared, hprivate⟩ :=
    visibilityOf_eq ⟨row.ownerId, o.row.visibility = .PUBLIC, edit.apply (db.grants configId)⟩
  rcases h.labelled with (hlabel | hlabel) | ⟨rfl, hsame⟩
  · exact (hpublic (decide_eq_true hlabel)).symm ▸ hlabel
  · have hiff := Database.isEmpty_edited h.edited h.valid
    have hnot : o.row.visibility ≠ .PUBLIC := by
      rw [hlabel]
      split <;> decide
    cases hempty : o.shares.isEmpty with
    | true =>
      rw [hprivate (decide_eq_false hnot) (fun hg => by rw [hiff.mpr hg] at hempty; cases hempty), hlabel,
        hempty]
      rfl
    | false =>
      rw [hshared (decide_eq_false hnot) (hiff.mp hempty), hlabel, hempty]
      rfl
  · rw [hsame]
    have := (hdb configId row h.found).1
    unfold Database.abstractConfig at this
    rwa [Database.id_of_config h.found] at this

/-- The commit of a prepared object, in terms of the abstract store. -/
theorem commit_prepared (h : Prepared db configId row o edit) (hdb : db.WellShared) (env : Env)
    (howner : edit.apply (db.grants configId) row.ownerId = none) :
    ∃ db', o.flush env db = .ok db' ∧ (db'.configs.get? configId).isSome ∧ db'.WellShared ∧
      db'.abstract = db.abstract.put configId
        (some ⟨row.ownerId, o.row.visibility = .PUBLIC, edit.apply (db.grants configId)⟩) := by
  obtain ⟨db', hflush, hc⟩ := flush_prepared h env
  have hvis := visibility_rowAfter_self h.stored env.now
  have howner' := o.ownerId_rowAfter env.now row
  refine ⟨db', hflush, by rw [hc.get?]; rfl, hc.wellShared hdb ?_ ?_, ?_⟩
  · rw [hvis, howner']
    exact label_prepared h hdb
  · rw [howner']
    exact howner
  · rw [hc.abstract, hvis, howner']

/-! ## Calls -/

theorem run_read_ok {α : Type} {x : Database → Except ConfigError α} {a : α} (h : x db = .ok a) :
    (read x).run db = .ok a db := by
  show (fromExcept (x db)).run db = _
  rw [h]
  rfl

theorem run_read_error {α : Type} {x : Database → Except ConfigError α} (h : x db = .error e) :
    (read x).run db = .error e db := by
  show (fromExcept (x db)).run db = _
  rw [h]
  rfl

theorem run_commit_ok (h : o.flush env db = .ok db') : (commit env o).run db = .ok () db' := by
  refine Database.run_transact_ok ?_
  show (o.flush env db).map _ = _
  rw [h]
  rfl

theorem run_loadDetail (h : db.configs.get? configId = some row) :
    (read (fun db => loadDetail db configId)).run db = .ok (db.load row) db := by
  refine run_read_ok ?_
  unfold loadDetail
  rw [h]
  rfl

theorem shareConfig_error {req : ShareRequest} (h : prepareShare root db user configId req = .error e) :
    (shareConfig root env user configId req).run db = .error e db :=
  run_bind_error (run_read_error h)

theorem shareConfig_ok {req : ShareRequest} (h : prepareShare root db user configId req = .ok (o, access))
    (hflush : o.flush env db = .ok db') (hrow : db'.configs.get? configId = some row) :
    (shareConfig root env user configId req).run db = .ok (db'.load row, access) db' := by
  unfold shareConfig
  rw [run_bind_ok (run_read_ok h)]
  dsimp only
  rw [run_bind_ok (run_commit_ok hflush)]
  simp (disch := decide) only [logEvent_bind]
  exact run_bind_ok (run_loadDetail hrow)

theorem unshareConfig_error {login : String}
    (h : prepareUnshare root db user configId login = .error e) :
    (unshareConfig root env user configId login).run db = .error e db :=
  run_bind_error (run_read_error h)

theorem unshareConfig_ok {login : String}
    (h : prepareUnshare root db user configId login = .ok (o, access))
    (hflush : o.flush env db = .ok db') (hrow : db'.configs.get? configId = some row) :
    (unshareConfig root env user configId login).run db = .ok (db'.load row, access) db' := by
  unfold unshareConfig
  rw [run_bind_ok (run_read_ok h)]
  dsimp only
  rw [run_bind_ok (run_commit_ok hflush)]
  simp (disch := decide) only [logEvent_bind]
  exact run_bind_ok (run_loadDetail hrow)

theorem updateConfig_error {data : ConfigUpdate}
    (h : prepareUpdate root db user configId data = .error e) :
    (updateConfig root env user configId data).run db = .error e db :=
  run_bind_error (run_read_error h)

theorem updateConfig_ok {data : ConfigUpdate}
    (h : prepareUpdate root db user configId data = .ok (o, access))
    (hflush : o.flush env db = .ok db') (hrow : db'.configs.get? configId = some row) :
    (updateConfig root env user configId data).run db =
      .ok (db'.load row, (effectiveAccess user (db'.load row)).getD access) db' := by
  unfold updateConfig
  rw [run_bind_ok (run_read_ok h)]
  dsimp only
  rw [run_bind_ok (run_commit_ok hflush)]
  refine (run_bind_ok (run_loadDetail hrow)).trans ?_
  simp (disch := decide) only [logEvent_bind]
  rfl

theorem deleteConfig_error (h : prepareDelete root db user configId = .error e) :
    (deleteConfig root user configId).run db = .error e db :=
  run_bind_error (run_read_error h)

theorem deleteConfig_ok (h : prepareDelete root db user configId = .ok (o, access))
    (hflush : o.flushDeleted db = .ok db') : (deleteConfig root user configId).run db = .ok () db' := by
  unfold deleteConfig
  refine (run_bind_ok (run_read_ok h)).trans ?_
  have hdelete : (o.flushDeleted db).map (fun db' => ((), db')) = .ok ((), db') := by
    rw [hflush]
    rfl
  refine (run_bind_ok (Database.run_transact_ok hdelete)).trans ?_
  rw [logEvent_pure (by decide)]
  rfl

theorem createConfig_error {data : ConfigCreate}
    (h : resolveCreateVisibility root user data.visibility = .error e) :
    (createConfig root env user data).run db = .error e db := by
  unfold createConfig
  rw [h]
  rfl

/-- The row that `create_config` adds. -/
def createdRow (env : Env) (user : User) (data : ConfigCreate) (id : ℤ) : DeviceConfig where
  id := id
  ownerId := user.id
  name := data.name
  deviceType := data.deviceType
  payload := data.payload
  visibility := if data.visibility = .PUBLIC then .PUBLIC else .PRIVATE
  createdAt := env.now
  updatedAt := env.now

theorem resolveCreateVisibility_cases (root : LogLevel) (user : User) (v : ConfigVisibility) :
    (v = .PUBLIC ∧ user.role = .USER ∧
      resolveCreateVisibility root user v = .error (.publishNotAllowed user.login)) ∨
    (¬ (v = .PUBLIC ∧ user.role = .USER) ∧
      resolveCreateVisibility root user v = .ok (if v = .PUBLIC then .PUBLIC else .PRIVATE)) := by
  unfold resolveCreateVisibility
  by_cases hv : v = .PUBLIC
  · by_cases hrole : user.role = .USER
    · refine .inl ⟨hv, hrole, ?_⟩
      rw [if_pos hv, if_neg (fun h => (canPublish_iff user).mp h hrole)]
      exact reject_eq (by decide) root _
    · refine .inr ⟨fun h => hrole h.2, ?_⟩
      rw [if_pos hv, if_pos hv, if_pos ((canPublish_iff user).mpr hrole)]
      rfl
  · refine .inr ⟨fun h => hv h.1, ?_⟩
    rw [if_neg hv, if_neg hv]
    rfl

/-- The key of the next config. -/
def nextId (env : Env) (db : Database) : ℤ := env.ids.nextKey db.configs

theorem insert_config (env : Env) (db : Database) (row : DeviceConfig) :
    Database.insert db.configs (nextId env db) { row with id := nextId env db }
        (fun configs => { db.toTables with configs := configs }) =
      Database.store { db.toTables with
        configs := db.configs.set (nextId env db) { row with id := nextId env db } } :=
  Database.insert_of_fresh (env.ids.get?_nextKey db.configs) _ _

theorem createConfig_ok {data : ConfigCreate}
    (h : resolveCreateVisibility root user data.visibility =
      .ok (if data.visibility = .PUBLIC then .PUBLIC else .PRIVATE))
    (hstore : Database.store { db.toTables with
      configs := db.configs.set (nextId env db) (createdRow env user data (nextId env db)) } = .ok db')
    (hrow : db'.configs.get? (nextId env db) = some row) :
    (createConfig root env user data).run db = .ok (db'.load row) db' := by
  unfold createConfig
  rw [h, fromExcept_ok_bind]
  have hadd : (addConfig env (createdRow env user data 0)).run db = .ok (nextId env db) db' :=
    Database.run_transact_ok (congrArg (Except.map (fun db' => (nextId env db, db')))
      ((insert_config env db (createdRow env user data 0)).trans hstore))
  refine (run_bind_ok hadd).trans ((run_bind_ok (run_loadDetail hrow)).trans ?_)
  simp (disch := decide) only [logEvent_bind]
  rfl

theorem createConfig_refused {data : ConfigCreate} {e : DatabaseError}
    (h : resolveCreateVisibility root user data.visibility =
      .ok (if data.visibility = .PUBLIC then .PUBLIC else .PRIVATE))
    (hstore : Database.store { db.toTables with
      configs := db.configs.set (nextId env db) (createdRow env user data (nextId env db)) } = .error e) :
    (createConfig root env user data).run db = .error (.database e) db := by
  unfold createConfig
  rw [h, fromExcept_ok_bind]
  have hadd : (addConfig env (createdRow env user data 0)).run db = .error (.database e) db :=
    Database.run_transact_error (congrArg (Except.map (fun db' => (nextId env db, db')))
      ((insert_config env db (createdRow env user data 0)).trans hstore))
  exact run_bind_error hadd

/-! ## One call -/

/-- The call fails on both sides and changes nothing, or succeeds on both sides. -/
def Simulates (root : LogLevel) (env : Env) (db : Database) (call : ConfigCall) : Prop :=
  (∃ e, db.abstract.perform (nextId env db) call = .error e ∧ (call.run root env).run db = .error e db) ∨
  ∃ db', db.abstract.perform (nextId env db) call = .ok db'.abstract ∧
    (call.run root env).run db = .ok () db' ∧ db'.WellShared

theorem simulates_share (root : LogLevel) (env : Env) (hdb : db.WellShared) (user : User) (configId : ℤ)
    (req : ShareRequest) : Simulates root env db (.share user configId req) := by
  rcases prepareShare_cases root db user configId req with ⟨e, habs, hprep⟩ |
    ⟨row, grantee, o, edit, -, -, hself, hprep, hobject, -, hpublic, happly, habs⟩
  · exact .inl ⟨e, habs _, run_bind_error (shareConfig_error hprep)⟩
  · have howner : edit.apply (db.grants configId) row.ownerId = none := by
      rw [happly, Function.update_of_ne (Ne.symm hself)]
      exact (hdb configId row hobject.found).2
    obtain ⟨db', hflush, hsome, hwell, habs'⟩ := commit_prepared hobject hdb env howner
    obtain ⟨row', hrow'⟩ := Option.isSome_iff_exists.mp hsome
    refine .inr ⟨db', ?_, run_bind_ok (shareConfig_ok hprep hflush hrow'), hwell⟩
    rw [habs, habs', happly]
    unfold Database.abstractConfig Shareable.grant
    simp only [hpublic, Database.id_of_config hobject.found]

theorem simulates_unshare (root : LogLevel) (env : Env) (hdb : db.WellShared) (user : User)
    (configId : ℤ) (login : String) : Simulates root env db (.unshare user configId login) := by
  rcases prepareUnshare_cases root db user configId login with ⟨e, habs, hprep⟩ |
    ⟨row, grantee, o, s, -, -, hg, hprep, hobject, -, hpublic, habs⟩
  · exact .inl ⟨e, habs _, run_bind_error (unshareConfig_error hprep)⟩
  · have howner : (ConfigObject.GrantEdit.drop s).apply (db.grants configId) row.ownerId = none := by
      have hnone := (hdb configId row hobject.found).2
      by_cases h : row.ownerId = s.granteeId
      · rw [h]
        exact Function.update_self ..
      · exact (Function.update_of_ne h ..).trans hnone
    obtain ⟨db', hflush, hsome, hwell, habs'⟩ := commit_prepared hobject hdb env howner
    obtain ⟨row', hrow'⟩ := Option.isSome_iff_exists.mp hsome
    refine .inr ⟨db', ?_, run_bind_ok (unshareConfig_ok hprep hflush hrow'), hwell⟩
    rw [habs, habs']
    unfold Database.abstractConfig Shareable.revoke ConfigObject.GrantEdit.apply
    simp only [hpublic, hg, Database.id_of_config hobject.found]

theorem simulates_update (root : LogLevel) (env : Env) (hdb : db.WellShared) (user : User)
    (configId : ℤ) (data : ConfigUpdate) : Simulates root env db (.update user configId data) := by
  rcases prepareUpdate_cases root db user configId data with ⟨e, habs, hprep⟩ |
    ⟨row, access, hrow, -, -, -, -, hprep, habs⟩
  · exact .inl ⟨e, habs _, run_bind_error (updateConfig_error hprep)⟩
  · obtain ⟨db', hflush, hsome, hwell, habs'⟩ :=
      commit_prepared (prepared_update hrow data) hdb env (hdb configId row hrow).2
    obtain ⟨row', hrow'⟩ := Option.isSome_iff_exists.mp hsome
    refine .inr ⟨db', ?_, run_bind_ok (updateConfig_ok hprep hflush hrow'), hwell⟩
    have hid := Database.id_of_config hrow
    rw [habs, habs', row_updatedObject]
    cases hv : data.visibility with
    | none =>
      have hself : db.abstract.configs configId = some (db.abstractConfig row) := by
        show (db.configs.get? configId).map _ = _
        rw [hrow]
        rfl
      have hput : db.abstract.put configId (some (db.abstractConfig row)) = db.abstract := by
        unfold AbstractStore.put
        rw [← hself, Function.update_eq_self]
      unfold Database.abstractConfig at hput
      rw [hid] at hput
      exact congrArg Except.ok hput.symm
    | some v =>
      unfold Database.abstractConfig Shareable.publish ConfigObject.GrantEdit.apply
      simp only [updatedVisibility_public, hid]

/-- The rows that the deletion of a config takes away are the grants on it. -/
theorem flushDeleted_ok (hrow : db.configs.get? configId = some row) :
    ∃ db' p, (db.load row).flushDeleted db = .ok db' ∧
      db'.toTables = { db.toTables with
        configs := db.configs.erase configId, shares := db.shares.filter p } ∧
      ∀ j s, db.shares.get? j = some s → (p j s = true ↔ s.configId ≠ configId) := by
  have hid := Database.id_of_config hrow
  have hstored : (db.load row).stored.id = configId := hid
  unfold ConfigObject.flushDeleted
  rw [hstored]
  refine ⟨⟨_, db.constraints.delete_config (fun j s h => (of_decide_eq_true h).2)⟩, _,
    Database.store_of_constraints _, rfl, fun j s hs => ?_⟩
  rw [decide_eq_true_eq]
  refine ⟨fun h => h.2, fun hne => ⟨fun hloaded => hne ?_, hne⟩⟩
  obtain ⟨share, hshare, hkey⟩ := List.mem_filterMap.mp hloaded
  obtain ⟨r, hr, rfl⟩ := List.mem_map.mp hshare
  obtain ⟨hget, hc⟩ := Database.mem_sharesOf.mp hr
  have hj : r.id = j := Option.some.inj hkey
  rw [hj, hs] at hget
  cases hget
  exact hc.trans hid

theorem simulates_delete (root : LogLevel) (env : Env) (hdb : db.WellShared) (user : User)
    (configId : ℤ) : Simulates root env db (.delete user configId) := by
  rcases prepareDelete_cases root db user configId with ⟨e, habs, hprep⟩ | ⟨row, hrow, -, hprep, habs⟩
  · exact .inl ⟨e, habs _, deleteConfig_error hprep⟩
  · obtain ⟨db', p, hflush, hdb', hp⟩ := flushDeleted_ok hrow
    have husers : db'.users = db.users := by rw [hdb']
    have hconfigs : db'.configs = db.configs.erase configId := by rw [hdb']
    have hgrants : ∀ id, id ≠ configId → db'.grants id = db.grants id :=
      fun id hne => Database.grants_filter (by rw [hdb']) hp hne
    have hother : ∀ id r, id ≠ configId → db.configs.get? id = some r →
        db'.abstractConfig r = db.abstractConfig r := by
      intro id r hne hr
      unfold Database.abstractConfig
      rw [Database.id_of_config hr, hgrants id hne]
    refine .inr ⟨db', ?_, deleteConfig_ok hprep hflush, ?_⟩
    · rw [habs]
      refine congrArg Except.ok (AbstractStore.eq_of_configs husers.symm (fun id => ?_))
      show Function.update db.abstract.configs configId none id = (db'.configs.get? id).map db'.abstractConfig
      rw [hconfigs, Dict.get?_erase]
      by_cases hid : id = configId
      · rw [if_pos hid, hid, Function.update_self]
        rfl
      · rw [if_neg hid, Function.update_of_ne hid]
        show (db.configs.get? id).map _ = _
        cases hr : db.configs.get? id with
        | none => rfl
        | some r => rw [Option.map_some, Option.map_some, hother id r hid hr]
    · intro id r hr
      rw [hconfigs, Dict.get?_erase] at hr
      split at hr
      · cases hr
      · next hid =>
        rw [hother id r hid hr, hgrants id hid]
        exact hdb id r hr

theorem grants_fresh {k : ℤ} (h : db.configs.get? k = none) : db.grants k = fun _ => none := by
  funext g
  refine Database.grants_eq_none.mpr (fun s hs _ => ?_)
  obtain ⟨hget, hc⟩ := Database.mem_sharesOf.mp hs
  have := db.constraints.shareConfig _ s hget
  rw [hc, h] at this
  cases this

theorem perform_create (s : AbstractStore) (newId : ℤ) (user : User) (data : ConfigCreate) :
    s.perform newId (.create user data) =
      if data.visibility = .PUBLIC ∧ user.role = .USER then .error (.publishNotAllowed user.login)
      else if (s.users.get? user.id).isSome then
        .ok (s.put newId (some ⟨user.id, data.visibility = .PUBLIC, fun _ => none⟩))
      else .error (.database .integrityError) := by
  show (AbstractStore.mayPublish user (some data.visibility)).bind (fun _ => _) = _
  unfold AbstractStore.mayPublish
  by_cases h : data.visibility = .PUBLIC ∧ user.role = .USER
  · rw [if_pos ⟨congrArg some h.1, h.2⟩, if_pos h]
    rfl
  · rw [if_neg (fun h' => h ⟨Option.some.inj h'.1, h'.2⟩), if_neg h]
    rfl

theorem simulates_create (root : LogLevel) (env : Env) (hdb : db.WellShared) (user : User)
    (data : ConfigCreate) : Simulates root env db (.create user data) := by
  have hfresh : db.configs.get? (nextId env db) = none := env.ids.get?_nextKey db.configs
  unfold Simulates
  rw [perform_create]
  rcases resolveCreateVisibility_cases root user data.visibility with ⟨hv, hrole, hres⟩ | ⟨hallowed, hres⟩
  · rw [if_pos ⟨hv, hrole⟩]
    exact .inl ⟨_, rfl, run_bind_error (createConfig_error hres)⟩
  · rw [if_neg hallowed]
    by_cases howner : (db.users.get? user.id).isSome
    · let created := createdRow env user data (nextId env db)
      have hcons : { db.toTables with configs := db.configs.set (nextId env db) created : Tables }.Constraints :=
        db.constraints.set_config rfl howner
      let db' : Database := ⟨_, hcons⟩
      have hgrants : db'.grants = db.grants := Database.grants_congr rfl
      have hc : db.Committed (nextId env db) created (fun _ => none) db' :=
        { users := rfl
          sessions := rfl
          configs := rfl
          id := rfl
          grants := by rw [hgrants, grants_fresh hfresh]
          others := fun _ _ => by rw [hgrants] }
      have hpublic : (created.visibility = .PUBLIC) ↔ (data.visibility = .PUBLIC) := by
        show (if data.visibility = .PUBLIC then ConfigVisibility.PUBLIC else .PRIVATE) = .PUBLIC ↔ _
        split <;> simp_all
      rw [if_pos (show (db.abstract.users.get? user.id).isSome = true from howner)]
      refine .inr ⟨db', ?_, run_bind_ok (createConfig_ok hres (Database.store_of_constraints hcons) hc.get?),
        hc.wellShared hdb ?_ rfl⟩
      · rw [hc.abstract]
        simp only [hpublic]
        rfl
      · obtain ⟨hpub, -, hpriv⟩ := visibilityOf_eq ⟨created.ownerId, created.visibility = .PUBLIC, fun _ => none⟩
        by_cases hv : data.visibility = .PUBLIC
        · rw [hpub (decide_eq_true (hpublic.mpr hv))]
          exact hpublic.mpr hv
        · rw [hpriv (decide_eq_false (fun h => hv (hpublic.mp h))) (fun ⟨_, h⟩ => nomatch h)]
          exact if_neg hv
    · rw [if_neg (show ¬ (db.abstract.users.get? user.id).isSome = true from howner)]
      refine .inl ⟨_, rfl, run_bind_error (createConfig_refused hres (dif_neg (fun hcons => howner ?_)))⟩
      have := hcons.owner (nextId env db) _ (Dict.get?_set_self _ _ _)
      exact this

theorem simulates (root : LogLevel) (env : Env) (hdb : db.WellShared) (call : ConfigCall) :
    Simulates root env db call := by
  cases call with
  | create user data => exact simulates_create root env hdb user data
  | update user configId data => exact simulates_update root env hdb user configId data
  | delete user configId => exact simulates_delete root env hdb user configId
  | share user configId req => exact simulates_share root env hdb user configId req
  | unshare user configId login => exact simulates_unshare root env hdb user configId login

end Configs
end Tstlan
