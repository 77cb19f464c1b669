import Tstlan.Configs.Refinement
import Tstlan.Configs.Routes
import Tstlan.Configs.Sharing

/-! # Who changes a config

For each call of the service, what its caller must be for the call to change a config's name, label,
grants or existence, its payload, or to publish it; and that an endpoint changes what its call does. -/
namespace Tstlan
open Foundations
set_option autoImplicit false

def ConfigCall.user : ConfigCall → User
  | .create user _ => user
  | .update user _ _ => user
  | .delete user _ => user
  | .share user _ _ => user
  | .unshare user _ _ => user

namespace Database

/-- What managing a config changes: whether it exists, its name, its label and its grants. -/
def managed (db : Database) (configId : ℤ) :
    Option (String × ConfigVisibility) × (ℤ → Option SharePermission) :=
  ((db.configs.get? configId).map (fun row => (row.name, row.visibility)), db.grants configId)

/-- The user owns the config, or owns it once it has been created. -/
def Owns (db db' : Database) (user : User) (configId : ℤ) : Prop :=
  match db.configs.get? configId with
  | some row => row.ownerId = user.id
  | none => ∃ row, db'.configs.get? configId = some row ∧ row.ownerId = user.id

/-- What has become of the config from `db` to `db'` is what this user may do to it. -/
structure Mediated (db db' : Database) (user : User) (configId : ℤ) : Prop where
  manage : db'.managed configId ≠ db.managed configId → user.role = .ADMIN ∨ Owns db db' user configId
  payload : ∀ row row', db.configs.get? configId = some row → db'.configs.get? configId = some row' →
    row'.payload ≠ row.payload →
      user.role = .ADMIN ∨ row.ownerId = user.id ∨ db.grants configId user.id = some .WRITE
  publish : ∀ row', db'.configs.get? configId = some row' → row'.visibility = .PUBLIC →
    (∀ row, db.configs.get? configId = some row → row.visibility ≠ .PUBLIC) → user.role ≠ .USER

variable {db db' : Database} {user : User} {configId id : ℤ} {row row' : DeviceConfig}
  {G : ℤ → Option SharePermission}

/-- A config that has not changed. -/
theorem Mediated.of_same (hconfig : db'.configs.get? id = db.configs.get? id)
    (hgrants : db'.grants id = db.grants id) : Mediated db db' user id where
  manage h := absurd (by unfold managed; rw [hconfig, hgrants]) h
  payload r r' hr hr' hne := by
    rw [hconfig, hr] at hr'
    cases hr'
    exact absurd rfl hne
  publish r' hr' hpublic hnot := by
    rw [hconfig] at hr'
    exact absurd hpublic (hnot r' hr')

theorem Mediated.refl (db : Database) (user : User) (id : ℤ) : Mediated db db user id := .of_same rfl rfl

/-- The user may do to every config what has become of it, and the users and sessions are as they were. -/
structure Permitted (db db' : Database) (user : User) : Prop where
  users : db'.users = db.users
  sessions : db'.sessions = db.sessions
  mediated : ∀ id, Mediated db db' user id

theorem Permitted.refl (db : Database) (user : User) : Permitted db db user :=
  ⟨rfl, rfl, Mediated.refl db user⟩

/-- The commit of one config. -/
theorem Permitted.of_committed (hrow : db.configs.get? configId = some row)
    (hc : Committed db configId row' G db')
    (hmanage : row'.name ≠ row.name ∨ row'.visibility ≠ row.visibility ∨ G ≠ db.grants configId →
      user.role = .ADMIN ∨ row.ownerId = user.id)
    (hpayload : row'.payload ≠ row.payload →
      user.role = .ADMIN ∨ row.ownerId = user.id ∨ db.grants configId user.id = some .WRITE)
    (hpublish : row'.visibility = .PUBLIC → row.visibility ≠ .PUBLIC → user.role ≠ .USER) :
    Permitted db db' user := by
  refine ⟨hc.users, hc.sessions, fun id => ?_⟩
  by_cases hid : id = configId
  · subst hid
    refine ⟨fun hne => ?_, fun r r' hr hr' hne => ?_, fun r' hr' hpublic hnot => ?_⟩
    · have howns : Owns db db' user id ↔ row.ownerId = user.id := by
        unfold Owns
        rw [hrow]
      rw [howns]
      refine hmanage ?_
      by_contra hsame
      rw [not_or, not_or, not_not, not_not, not_not] at hsame
      refine hne ?_
      unfold managed
      rw [hc.get?, hrow, hc.grants, Option.map_some, Option.map_some, hsame.1, hsame.2.1, hsame.2.2]
    · rw [hrow] at hr
      rw [hc.get?] at hr'
      cases hr
      cases hr'
      exact hpayload hne
    · rw [hc.get?] at hr'
      cases hr'
      exact hpublish hpublic (hnot row hrow)
  · refine .of_same ?_ (hc.others id hid)
    rw [hc.configs, Dict.get?_set_of_ne _ _ hid]

end Database

namespace AbstractStore

theorem access_write {user : User} {c : AbstractConfig} (h : access user c = some .WRITE) :
    c.grants user.id = some .WRITE := by
  unfold access at h
  split at h
  · cases h
  · cases hg : c.grants user.id with
    | none =>
      rw [hg] at h
      simp only at h
      split at h <;> cases h
    | some p =>
      cases p with
      | READ =>
        rw [hg] at h
        cases h
      | WRITE => rfl

end AbstractStore

namespace Configs
open Database (Mediated Owns Permitted)
variable {root : LogLevel} {db : Database} (env : Env)

theorem owner_of_access {user : User} {row : DeviceConfig}
    (h : AbstractStore.access user (db.abstractConfig row) = some .OWNER) :
    user.role = .ADMIN ∨ row.ownerId = user.id :=
  AbstractStore.access_owner.mp h

theorem permitted_update (root : LogLevel) (db : Database) (user : User) (configId : ℤ) (data : ConfigUpdate) :
    Permitted db (final (((ConfigCall.update user configId data).run root env).run db)) user := by
  rcases prepareUpdate_cases root db user configId data with ⟨e, -, hprep⟩ |
    ⟨row, access, hrow, haccess, howns, hwrites, hpublish, hprep, -⟩
  · rw [show ((ConfigCall.update user configId data).run root env).run db = .error e db from
      run_bind_error (updateConfig_error hprep)]
    exact .refl db user
  · have hobject := prepared_update hrow data
    obtain ⟨db', hflush, hc⟩ := flush_prepared hobject env
    rw [show ((ConfigCall.update user configId data).run root env).run db = .ok () db' from
      run_bind_ok (updateConfig_ok hprep hflush hc.get?)]
    have hrow' := row_updatedObject db row data
    have hvis : ((updatedObject db row data).rowAfter env.now row).visibility =
        updatedVisibility db row data.visibility := by
      rw [visibility_rowAfter_self hobject.stored, hrow']
    refine .of_committed hrow hc (fun hchange => ?_) (fun hchange => ?_) (fun hpublic hnot => ?_)
    · have hgiven : data.name.isSome ∨ data.visibility.isSome := by
        rcases hchange with hname | hlabel | hgrants
        · rw [ConfigObject.name_rowAfter, hobject.stored, hrow'] at hname
          cases hn : data.name with
          | none =>
            rw [hn] at hname
            exact absurd (if_pos rfl) hname
          | some name => exact .inl rfl
        · rw [hvis] at hlabel
          cases hv : data.visibility with
          | none =>
            rw [hv] at hlabel
            exact absurd rfl hlabel
          | some v => exact .inr rfl
        · exact absurd rfl hgrants
      rw [howns hgiven] at haccess
      exact owner_of_access haccess
    · have hgiven : data.payload.isSome := by
        rw [ConfigObject.payload_rowAfter, hobject.stored, hrow'] at hchange
        cases hp : data.payload with
        | none =>
          rw [hp] at hchange
          exact absurd (if_pos row.payload.same_refl) hchange
        | some payload => rfl
      cases access with
      | OWNER => exact (owner_of_access haccess).imp_right .inl
      | WRITE =>
        have hheld := AbstractStore.access_write haccess
        rw [show (db.abstractConfig row).grants = db.grants row.id from rfl, Database.id_of_config hrow] at hheld
        exact .inr (.inr hheld)
      | READ => exact absurd rfl (hwrites hgiven)
    · rw [hvis] at hpublic
      cases hv : data.visibility with
      | none =>
        rw [hv] at hpublic
        exact absurd hpublic hnot
      | some v =>
        rw [hv, updatedVisibility_public] at hpublic
        exact hpublish (by rw [hv, hpublic])

/-- A share or an unshare: only the label and the grants change, for one who manages the config. -/
theorem permitted_label {user : User} {configId : ℤ} {row : DeviceConfig} {o : ConfigObject}
    {edit : ConfigObject.GrantEdit} {db' : Database} {now : Time} (hobject : Prepared db configId row o edit)
    (hpublic : o.row.visibility = .PUBLIC ↔ row.visibility = .PUBLIC)
    (hmanage : user.role = .ADMIN ∨ row.ownerId = user.id) {G : ℤ → Option SharePermission}
    (hc : db.Committed configId (o.rowAfter now row) G db') : Permitted db db' user := by
  refine .of_committed hobject.found hc (fun _ => hmanage) (fun _ => hmanage.imp_right .inl)
    (fun hpub hnot => absurd (hpublic.mp ?_) hnot)
  rw [← visibility_rowAfter_self hobject.stored now]
  exact hpub

theorem permitted_share (root : LogLevel) (db : Database) (user : User) (configId : ℤ) (req : ShareRequest) :
    Permitted db (final (((ConfigCall.share user configId req).run root env).run db)) user := by
  rcases prepareShare_cases root db user configId req with ⟨e, -, hprep⟩ |
    ⟨row, grantee, o, edit, haccess, -, -, hprep, hobject, -, hpublic, -, -⟩
  · rw [show ((ConfigCall.share user configId req).run root env).run db = .error e db from
      run_bind_error (shareConfig_error hprep)]
    exact .refl db user
  · obtain ⟨db', hflush, hc⟩ := flush_prepared hobject env
    rw [show ((ConfigCall.share user configId req).run root env).run db = .ok () db' from
      run_bind_ok (shareConfig_ok hprep hflush hc.get?)]
    exact permitted_label hobject hpublic (owner_of_access haccess) hc

theorem permitted_unshare (root : LogLevel) (db : Database) (user : User) (configId : ℤ) (login : String) :
    Permitted db (final (((ConfigCall.unshare user configId login).run root env).run db)) user := by
  rcases prepareUnshare_cases root db user configId login with ⟨e, -, hprep⟩ |
    ⟨row, grantee, o, s, haccess, -, -, hprep, hobject, -, hpublic, -⟩
  · rw [show ((ConfigCall.unshare user configId login).run root env).run db = .error e db from
      run_bind_error (unshareConfig_error hprep)]
    exact .refl db user
  · obtain ⟨db', hflush, hc⟩ := flush_prepared hobject env
    rw [show ((ConfigCall.unshare user configId login).run root env).run db = .ok () db' from
      run_bind_ok (unshareConfig_ok hprep hflush hc.get?)]
    exact permitted_label hobject hpublic (owner_of_access haccess) hc

theorem permitted_delete (root : LogLevel) (db : Database) (user : User) (configId : ℤ) :
    Permitted db (final (((ConfigCall.delete user configId).run root env).run db)) user := by
  rcases prepareDelete_cases root db user configId with ⟨e, -, hprep⟩ | ⟨row, hrow, haccess, hprep, -⟩
  · rw [show ((ConfigCall.delete user configId).run root env).run db = .error e db from
      deleteConfig_error hprep]
    exact .refl db user
  · obtain ⟨db', p, hflush, hdb', hp⟩ := flushDeleted_ok hrow
    rw [show ((ConfigCall.delete user configId).run root env).run db = .ok () db' from
      deleteConfig_ok hprep hflush]
    have hconfigs : db'.configs = db.configs.erase configId := by rw [hdb']
    show Permitted db db' user
    refine ⟨by rw [hdb'], by rw [hdb'], fun id => ?_⟩
    by_cases hid : id = configId
    · subst hid
      have hgone : db'.configs.get? id = none := by
        rw [hconfigs, Dict.get?_erase, if_pos rfl]
      refine ⟨fun _ => ?_, fun _ r' _ hr' => ?_, fun r' hr' => ?_⟩
      · unfold Owns
        rw [hrow]
        exact owner_of_access haccess
      · rw [hgone] at hr'
        cases hr'
      · rw [hgone] at hr'
        cases hr'
    · refine .of_same ?_ (Database.grants_filter (by rw [hdb']) hp hid)
      rw [hconfigs, Dict.get?_erase, if_neg hid]

theorem permitted_create (root : LogLevel) (db : Database) (user : User) (data : ConfigCreate) :
    Permitted db (final (((ConfigCall.create user data).run root env).run db)) user := by
  have hfresh : db.configs.get? (nextId env db) = none := env.ids.get?_nextKey db.configs
  rcases resolveCreateVisibility_cases root user data.visibility with ⟨-, -, hres⟩ | ⟨hallowed, hres⟩
  · rw [show ((ConfigCall.create user data).run root env).run db = .error _ db from
      run_bind_error (createConfig_error hres)]
    exact .refl db user
  · cases hstore : Database.store { db.toTables with
      configs := db.configs.set (nextId env db) (createdRow env user data (nextId env db)) } with
    | error e =>
      rw [show ((ConfigCall.create user data).run root env).run db = .error (.database e) db from
        run_bind_error (createConfig_refused hres hstore)]
      exact .refl db user
    | ok db' =>
      have htables := Database.store_eq_ok hstore
      have hconfigs : db'.configs = db.configs.set (nextId env db) (createdRow env user data (nextId env db)) := by
        rw [htables]
      have hgrants : db'.grants = db.grants := Database.grants_congr (by rw [htables])
      have hcreated : db'.configs.get? (nextId env db) = some (createdRow env user data (nextId env db)) := by
        rw [hconfigs, Dict.get?_set_self]
      rw [show ((ConfigCall.create user data).run root env).run db = .ok () db' from
        run_bind_ok (createConfig_ok hres hstore hcreated)]
      show Permitted db db' user
      refine ⟨by rw [htables], by rw [htables], fun id => ?_⟩
      by_cases hid : id = nextId env db
      · subst hid
        refine ⟨fun _ => .inr ?_, fun r _ hr => ?_, fun r' hr' hpublic _ hrole => ?_⟩
        · unfold Owns
          rw [hfresh]
          exact ⟨_, hcreated, rfl⟩
        · rw [hfresh] at hr
          cases hr
        · rw [hcreated] at hr'
          cases hr'
          refine hallowed ⟨?_, hrole⟩
          by_contra hv
          rw [show (createdRow env user data (nextId env db)).visibility = _ from if_neg hv] at hpublic
          cases hpublic
      · refine .of_same ?_ (by rw [hgrants])
        rw [hconfigs, Dict.get?_set_of_ne _ _ hid]

/-- A call changes only what its user may change. -/
theorem permitted_call (root : LogLevel) (env : Env) (db : Database) (call : ConfigCall) :
    Permitted db (final ((call.run root env).run db)) call.user := by
  cases call with
  | create user data => exact permitted_create env root db user data
  | update user configId data => exact permitted_update env root db user configId data
  | delete user configId => exact permitted_delete env root db user configId
  | share user configId req => exact permitted_share env root db user configId req
  | unshare user configId login => exact permitted_unshare env root db user configId login

end Configs

/-! ## Endpoints -/

namespace ConfigRoutes
open Configs
variable {root : LogLevel} {env : Env} {user : User} {db : Database}

theorem silent_read {α : Type} (x : Database → Except ConfigError α) : Silent (read x) := by
  intro db
  show final ((fromExcept (x db) : ConfigM α).run db) = db
  exact Silent.fromExcept _ db

theorem silent_detail (config : ConfigObject) (access : Access) : Silent (detail config access) := .fromExcept _

theorem silent_listEndpoint : Silent (listEndpoint root user) :=
  (silent_read _).bind (fun _ => .fromExcept _)

theorem silent_getEndpoint (configId : ℤ) : Silent (getEndpoint root user configId) :=
  (silent_read _).bind (fun c => silent_detail c.1 c.2)

/-- After its call an endpoint only reads. -/
theorem final_createEndpoint (payload : ConfigCreate) :
    final ((createEndpoint root env user payload).run db) =
      final (((ConfigCall.create user payload).run root env).run db) := by
  refine (final_bind (fun config => ?_) db).trans (final_bind (fun _ => .pure _) db).symm
  exact (silent_read _).bind (fun c => (silent_log _ _).bind (fun _ => silent_detail config c.2))

theorem final_updateEndpoint (configId : ℤ) (payload : ConfigUpdate) :
    final ((updateEndpoint root env user configId payload).run db) =
      final (((ConfigCall.update user configId payload).run root env).run db) := by
  refine (final_bind (fun c => ?_) db).trans (final_bind (fun _ => .pure _) db).symm
  exact (silent_log _ _).bind (fun _ => silent_detail c.1 c.2)

theorem final_deleteEndpoint (configId : ℤ) :
    final ((deleteEndpoint root user configId).run db) =
      final (((ConfigCall.delete user configId).run root env).run db) :=
  final_bind (fun _ => silent_log _ _) db

theorem final_shareEndpoint (configId : ℤ) (payload : ShareRequest) :
    final ((shareEndpoint root env user configId payload).run db) =
      final (((ConfigCall.share user configId payload).run root env).run db) := by
  refine (final_bind (fun c => ?_) db).trans (final_bind (fun _ => .pure _) db).symm
  exact (silent_log _ _).bind (fun _ => silent_detail c.1 c.2)

theorem final_unshareEndpoint (configId : ℤ) (login : String) :
    final ((unshareEndpoint root env user configId login).run db) =
      final (((ConfigCall.unshare user configId login).run root env).run db) := by
  refine (final_bind (fun c => ?_) db).trans (final_bind (fun _ => .pure _) db).symm
  exact (silent_log _ _).bind (fun _ => silent_detail c.1 c.2)

end ConfigRoutes
end Tstlan
