import Tstlan.Configs.Routes
import Tstlan.Configs.Sharing
import Tstlan.Configs.Update
import Tstlan.Foundations.Loops
import Tstlan.Web.Api
import Tstlan.Web.Enforcement

/-! # The page of a config (`components/config-editor.tsx`, `components/share-panel.tsx`)

The page keeps the config as it was last answered and the users as they were listed, and offers what it has
computed from them. While nobody else works on the config, the server accepts whatever the page offers and can send,
and the page shows what is stored. -/
namespace Tstlan.Web
open Foundations
set_option autoImplicit false

/-! ## The texts of `lib/config-errors.ts` -/

def describeSaveError (status : Option ℕ) : String :=
  match status with
  | some 403 => "недостаточно прав"
  | some 404 => "конфиг не найден"
  | some 422 => "проверьте поля формы"
  | _ => "не удалось сохранить"

def describeShareError (status : Option ℕ) : String :=
  match status with
  | some 404 => "пользователь не найден"
  | some 422 => "нельзя выдать доступ владельцу"
  | some 403 => "недостаточно прав"
  | _ => "не удалось изменить доступ"

/-! ## What is sent -/

/-- The integer that the backend reads of a Number. JSON has no infinity, and a larger Number is sent as the shortest
numeral for it, which is another integer or none. -/
def sentNumber : Js.Number → Option ℤ
  | .integer n _ => if n.natAbs ≤ 2 ^ 53 then some n else none
  | .infinity _ => none

def sentOption : Option Js.Number → Option (Option ℤ)
  | none => some none
  | some x => (sentNumber x).map some

def sentMap (m : ModbusMap) : Option Tstlan.ModbusMap := do
  let discreteInputsBytes ← sentNumber m.discreteInputsBytes
  let coilsBytes ← sentNumber m.coilsBytes
  let holdingRegisters ← sentNumber m.holdingRegisters
  let inputRegisters ← sentNumber m.inputRegisters
  return { discreteInputsBytes, coilsBytes, holdingRegisters, inputRegisters }

/-- The payload that the backend reads. -/
def sentPayload (p : ConfigPayload) : Option Tstlan.ConfigPayload := do
  let port ← sentOption p.connection.port
  let gpibAddr ← sentOption p.connection.gpibAddr
  let pollPeriodMs ← sentNumber p.connection.pollPeriodMs
  let modbus ← match p.connection.modbus with
    | none => some none
    | some m => (sentMap m).map some
  return { connection := { transport := p.connection.transport, ip := p.connection.ip, port, gpibAddr,
                           comName := p.connection.comName, ipRequest := p.connection.ipRequest, pollPeriodMs, modbus,
                           params := p.connection.params }
           vars := p.vars }

/-! ## The page -/

/-- `canPublish` of `lib/configs.ts`. -/
def canPublish (role : Role) : Bool := role = .DEV ∨ role = .ADMIN

def availableGrantees (users : List UserSummary) (ownerLogin : String) (shares : List ShareInfo) : List UserSummary :=
  users.filter (fun user => user.login ∉ ownerLogin :: shares.map ShareInfo.login)

/-- The page once the config is loaded; `error` is that of the form, `shareError` that of the panel. -/
structure ConfigEditor where
  config : Tstlan.ConfigDetail
  users : List UserSummary
  error : Option String := none
  shareError : Option String := none
  left : Bool := false

/-- `payload` is what the backend reads of the payload of the draft. -/
inductive EditorClick
  | save (draft : ConfigFormDraft) (payload : Tstlan.ConfigPayload)
  | grant (login : String) (permission : SharePermission)
  | revoke (login : String)
  | remove

namespace ConfigEditor

def candidates (page : ConfigEditor) : List UserSummary :=
  availableGrantees page.users page.config.ownerLogin page.config.shares

/-- The body of `submit`: only owners send a name, and only those who publish send a visibility. -/
def body (page : ConfigEditor) (role : Role) (draft : ConfigFormDraft) (payload : Tstlan.ConfigPayload) :
    Tstlan.ConfigUpdate :=
  if page.config.access = .OWNER then
    { name := some draft.name
      visibility := if canPublish role then some draft.visibility else none
      payload := some payload }
  else { payload := some payload }

/-- The control is on the page: the form has no errors and a button, the panel and its lists are there for owners.
An empty login is the one of the placeholder of the menu. -/
def Offers (page : ConfigEditor) : EditorClick → Prop
  | .save draft _ => page.config.access ≠ .READ ∧ hasErrors (validateConfigForm draft) = false
  | .grant login _ =>
    page.config.access = .OWNER ∧ login ≠ "" ∧
      (login ∈ page.config.shares.map ShareInfo.login ∨ login ∈ page.candidates.map UserSummary.login)
  | .revoke login => page.config.access = .OWNER ∧ login ∈ page.config.shares.map ShareInfo.login
  | .remove => page.config.access = .OWNER

/-- The panel once the call that takes a share back was not routed. The browser refuses to follow a redirect, which
leads to the address of the application. -/
def lost (page : ConfigEditor) (login : String) : ConfigEditor :=
  let status := ((ApiCall.unshareConfig page.config.id login : ApiCall Unit).delivered.map
    (fun path => (unrouted path).status)).getD 404
  { page with shareError := some (describeShareError (if status = 307 then none else some status)) }

variable (root : LogLevel) (env : Env) (user : User)

/-- The page and the database after a click and its answer. The login of a grantee stands in the path of its call. -/
def click (page : ConfigEditor) (db : Database) : EditorClick → ConfigEditor × Database
  | .save draft payload =>
    match (ConfigRoutes.updateEndpoint root env user page.config.id (page.body user.role draft payload)).run db with
    | .ok config db => ({ page with config := config, error := none }, db)
    | .error e db => ({ page with error := some (describeSaveError e.status) }, db)
  | .grant login permission =>
    match (ConfigRoutes.shareEndpoint root env user page.config.id ⟨login, permission⟩).run db with
    | .ok config db => ({ page with config := config, shareError := none }, db)
    | .error e db => ({ page with shareError := some (describeShareError e.status) }, db)
  | .revoke login =>
    match (ApiCall.unshareConfig page.config.id login : ApiCall Unit).arrives with
    | some (.unshare _ grantee) =>
      match (ConfigRoutes.unshareEndpoint root env user page.config.id grantee).run db with
      | .ok config db => ({ page with config := config, shareError := none }, db)
      | .error e db => ({ page with shareError := some (describeShareError e.status) }, db)
    | some (.deleteConfig _) =>
      match (ConfigRoutes.deleteEndpoint root user page.config.id).run db with
      -- the page reads JSON in the empty body of a 204
      | .ok _ db => ({ page with shareError := some (describeShareError none) }, db)
      | .error e db => ({ page with shareError := some (describeShareError e.status) }, db)
    | _ => (page.lost login, db)
  | .remove =>
    match (ConfigRoutes.deleteEndpoint root user page.config.id).run db with
    | .ok _ db => ({ page with error := none, left := true }, db)
    | .error e db => ({ page with error := some (describeSaveError e.status) }, db)

end ConfigEditor

/-- The numbers of a form are sent as they are, and the login of a grantee can stand in a path. -/
def EditorClick.Sendable : EditorClick → Prop
  | .save draft payload => sentPayload (draftToPayload draft) = some payload
  | .revoke login => Url.Portable login.toList
  | _ => True

/-! ## What a detail says -/

section
variable {db : Database} {row : DeviceConfig} {access : Access} {configId : ℤ}

theorem owner_of_row (hrow : db.configs.get? configId = some row) : ∃ owner, db.users.get? row.ownerId = some owner :=
  Option.isSome_iff_exists.mp (db.constraints.owner configId row hrow)

theorem grantee_of_share {s : ConfigShare} (hs : s ∈ db.sharesOf configId) :
    ∃ grantee, db.users.get? s.granteeId = some grantee :=
  Option.isSome_iff_exists.mp (db.constraints.grantee s.id s (Database.mem_sharesOf.mp hs).1)

/-- The login of a user that is there. -/
def loginOfId (db : Database) (userId : ℤ) : String := ((db.users.get? userId).map User.login).getD ""

def shareInfos (db : Database) (configId : ℤ) : List ShareInfo :=
  (db.sharesOf configId).map (fun s => ⟨loginOfId db s.granteeId, s.permission⟩)

theorem mapM_fromShare {shares : List ConfigShare} (h : ∀ s ∈ shares, ∃ grantee, db.users.get? s.granteeId = some grantee) :
    (shares.map db.shareObject).mapM ShareInfo.fromShare =
      .ok (shares.map (fun s => ⟨loginOfId db s.granteeId, s.permission⟩)) := by
  rw [List.mapM_map]
  refine mapM_of_forall (fun s hs => ?_)
  obtain ⟨grantee, hgrantee⟩ := h s hs
  show ShareInfo.fromShare (db.shareObject s) = _
  unfold ShareInfo.fromShare Database.shareObject loginOfId
  rw [hgrantee]
  rfl

/-- The detail of a row, as it is shown to a user with this access. -/
def detailOf (db : Database) (row : DeviceConfig) (access : Access) : Tstlan.ConfigDetail where
  id := row.id
  name := row.name
  deviceType := row.deviceType
  visibility := row.visibility
  ownerLogin := loginOfId db row.ownerId
  access := access
  createdAt := row.createdAt
  updatedAt := row.updatedAt
  payload := row.payload
  shares := if access = .OWNER then shareInfos db row.id else []

theorem fromConfig_load (hrow : db.configs.get? configId = some row) (access : Access) :
    ConfigDetail.fromConfig (db.load row) access = .ok (detailOf db row access) := by
  obtain ⟨owner, howner⟩ := owner_of_row hrow
  have hsummary : ConfigSummary.fromConfig (db.load row) access = .ok (detailOf db row access).toConfigSummary := by
    unfold ConfigSummary.fromConfig Database.load detailOf loginOfId
    rw [howner]
    rfl
  have hshares : (db.load row).shares.mapM ShareInfo.fromShare = .ok (shareInfos db row.id) :=
    mapM_fromShare (fun s hs => grantee_of_share hs)
  unfold ConfigDetail.fromConfig
  rw [hsummary, hshares]
  by_cases haccess : access = .OWNER
  · rw [if_pos haccess]
    simp only [detailOf, if_pos haccess]
    rfl
  · rw [if_neg haccess]
    simp only [detailOf, if_neg haccess]
    rfl

theorem detail_run (hrow : db.configs.get? configId = some row) (access : Access) :
    (ConfigRoutes.detail (db.load row) access).run db = .ok (detailOf db row access) db := by
  unfold ConfigRoutes.detail
  rw [fromConfig_load hrow]
  rfl

/-- The grants that are listed are those that there are. -/
theorem mem_shareInfos {info : ShareInfo} : info ∈ shareInfos db configId ↔
    ∃ grantee : User, db.users.get? grantee.id = some grantee ∧ info.login = grantee.login ∧
      db.grants configId grantee.id = some info.permission := by
  rw [shareInfos, List.mem_map]
  constructor
  · rintro ⟨s, hs, rfl⟩
    obtain ⟨grantee, hgrantee⟩ := grantee_of_share hs
    have hid : grantee.id = s.granteeId := db.constraints.userId _ _ hgrantee
    refine ⟨grantee, hid ▸ hgrantee, ?_, Database.grants_eq_some.mpr ⟨s, hs, hid.symm, rfl⟩⟩
    show loginOfId db s.granteeId = _
    rw [loginOfId, hgrantee]
    rfl
  · rintro ⟨grantee, hgrantee, hlogin, hgrants⟩
    obtain ⟨s, hs, hid, hpermission⟩ := Database.grants_eq_some.mp hgrants
    refine ⟨s, hs, ?_⟩
    rw [loginOfId, hid, hgrantee, hpermission]
    cases info
    rw [ShareInfo.mk.injEq]
    exact ⟨hlogin.symm, rfl⟩

end

/-! ## A page that shows what is stored -/

/-- The users that the server lists. -/
def activeUsers (db : Database) : List UserSummary :=
  ((db.users.values.filter User.isActive).mergeSort (fun a b => a.login ≤ b.login)).map
    (fun user => ⟨user.login, user.role⟩)

theorem listUsers_run (root : LogLevel) (db : Database) :
    ∃ users, (Auth.listUsers root).run db = .ok users db ∧
      users.map (fun user => (⟨user.login, user.role⟩ : UserSummary)) = activeUsers db := by
  refine ⟨_, ?_, rfl⟩
  unfold Auth.listUsers
  simp (disch := decide) only [logEvent_bind]
  rfl

theorem mem_activeUsers {db : Database} {summary : UserSummary} : summary ∈ activeUsers db ↔
    ∃ u : User, db.users.get? u.id = some u ∧ u.isActive = true ∧ summary = ⟨u.login, u.role⟩ := by
  rw [activeUsers, List.mem_map]
  constructor
  · rintro ⟨u, hu, rfl⟩
    obtain ⟨hvalue, hactive⟩ := List.mem_filter.mp (List.mem_mergeSort.mp hu)
    obtain ⟨k, hk⟩ := Dict.mem_values.mp hvalue
    exact ⟨u, (db.constraints.userId k u hk).symm ▸ hk, hactive, rfl⟩
  · rintro ⟨u, hu, hactive, rfl⟩
    exact ⟨u, List.mem_mergeSort.mpr (List.mem_filter.mpr ⟨Dict.mem_values.mpr ⟨_, hu⟩, hactive⟩), rfl⟩

/-- The page shows the config as it is stored and the users that there are, and no error. -/
structure Synced (db : Database) (user : User) (page : ConfigEditor) : Prop where
  config : ∃ row access, db.configs.get? page.config.id = some row ∧
    AbstractStore.access user (db.abstractConfig row) = some access ∧ page.config = detailOf db row access
  users : page.users = activeUsers db
  error : page.error = none
  shareError : page.shareError = none

/-- It is what `GET /configs/{id}` answers. -/
theorem Synced.getEndpoint {db : Database} {user : User} {page : ConfigEditor} (h : Synced db user page)
    (root : LogLevel) :
    (ConfigRoutes.getEndpoint root user page.config.id).run db = .ok page.config db := by
  obtain ⟨row, access, hrow, haccess, hconfig⟩ := h.config
  have hget : Configs.getConfig root db user page.config.id = .ok (db.load row, access) := by
    unfold Configs.getConfig
    simp only [hrow, Configs.effectiveAccess_load, haccess]
    rfl
  unfold ConfigRoutes.getEndpoint
  rw [run_bind_ok (Configs.run_read_ok hget), hconfig]
  exact detail_run hrow access

/-- The config has kept its columns, apart from its label and its time stamp, and whether it is published. -/
def SameConfig (row row' : DeviceConfig) : Prop :=
  ∃ visibility updatedAt, row' = { row with visibility := visibility, updatedAt := updatedAt } ∧
    (visibility = .PUBLIC ↔ row.visibility = .PUBLIC)

/-- What a click says that it does. -/
def Meant (db db' : Database) (user : User) (page : ConfigEditor) : EditorClick → Prop
  | .save draft payload =>
    ∃ row row', db.configs.get? page.config.id = some row ∧
      db.Committed page.config.id row' (db.grants page.config.id) db' ∧ row'.ownerId = row.ownerId ∧
      row'.deviceType = row.deviceType ∧ row'.payload.same payload ∧
      row'.name = (if page.config.access = .OWNER then draft.name else row.name) ∧
      (row'.visibility = .PUBLIC ↔
        if page.config.access = .OWNER ∧ canPublish user.role then draft.visibility = .PUBLIC
        else row.visibility = .PUBLIC)
  | .grant login permission =>
    ∃ row row' grantee, db.configs.get? page.config.id = some row ∧ db.userByLogin login = some grantee ∧
      db.Committed page.config.id row'
        (Function.update (db.grants page.config.id) grantee.id (some permission)) db' ∧ SameConfig row row'
  | .revoke login =>
    ∃ row row' grantee, db.configs.get? page.config.id = some row ∧ db.userByLogin login = some grantee ∧
      db.Committed page.config.id row' (Function.update (db.grants page.config.id) grantee.id none) db' ∧
      SameConfig row row'
  | .remove =>
    ∃ p, db'.toTables = { db.toTables with
        configs := db.configs.erase page.config.id, shares := db.shares.filter p } ∧
      ∀ j s, db.shares.get? j = some s → (p j s = true ↔ s.configId ≠ page.config.id)

/-! ## One click -/

section
variable {root : LogLevel} {env : Env} {db db' : Database} {user : User} {page : ConfigEditor} {row row' : DeviceConfig}
  {access : Access} {configId : ℤ} {G : ℤ → Option SharePermission}

theorem abstract_configs (hrow : db.configs.get? configId = some row) :
    db.abstract.configs configId = some (db.abstractConfig row) := by
  show (db.configs.get? configId).map _ = _
  rw [hrow]
  rfl

/-- The user who manages the config manages it afterwards. -/
theorem owner_committed (howner : row'.ownerId = row.ownerId)
    (haccess : AbstractStore.access user (db.abstractConfig row) = some .OWNER) :
    AbstractStore.access user (db'.abstractConfig row') = some .OWNER := by
  rw [AbstractStore.access_owner] at haccess ⊢
  exact haccess.imp_right (fun h => howner.trans h)

/-- A user who may write may write afterwards, with the grants as they were. -/
theorem access_committed (hc : db.Committed configId row' (db.grants configId) db')
    (hrow : db.configs.get? configId = some row) (howner : row'.ownerId = row.ownerId)
    (haccess : AbstractStore.access user (db.abstractConfig row) = some access) (hread : access ≠ .READ) :
    AbstractStore.access user (db'.abstractConfig row') = some access := by
  have hid := Database.id_of_config hrow
  have hgrants : (db'.abstractConfig row').grants = (db.abstractConfig row).grants := by
    rw [hc.abstractConfig]
    show db.grants configId = db.grants row.id
    rw [hid]
  have hown : (db'.abstractConfig row').owner = (db.abstractConfig row).owner := howner
  unfold AbstractStore.access at haccess ⊢
  rw [hown, hgrants]
  by_cases hmanage : user.role = .ADMIN ∨ (db.abstractConfig row).owner = user.id
  · rw [if_pos hmanage] at haccess ⊢
    exact haccess
  · rw [if_neg hmanage] at haccess ⊢
    cases hgrant : (db.abstractConfig row).grants user.id with
    | none =>
      simp only [hgrant] at haccess
      split at haccess
      · exact absurd (Option.some.inj haccess).symm hread
      · cases haccess
    | some p =>
      simp only [hgrant] at haccess
      cases p <;> exact haccess

/-- The page is in step again with the answer to a click that has been committed. -/
theorem Synced.committed (h : Synced db user page) (hc : db.Committed page.config.id row' G db')
    (haccess : AbstractStore.access user (db'.abstractConfig row') = some access) :
    Synced db' user { page with config := detailOf db' row' access } where
  config := by
    refine ⟨row', access, ?_, haccess, rfl⟩
    show db'.configs.get? row'.id = _
    rw [hc.id]
    exact hc.get?
  users := by
    show page.users = _
    rw [h.users, activeUsers, activeUsers, hc.users]
  error := h.error
  shareError := h.shareError

theorem sameConfig_rowAfter {o : ConfigObject} (hstored : o.stored = row)
    (hlabel : o.row = { row with visibility := o.row.visibility })
    (hpublic : o.row.visibility = .PUBLIC ↔ row.visibility = .PUBLIC) (now : Time) :
    SameConfig row (o.rowAfter now row) := by
  obtain ⟨t, ht⟩ := Configs.rowAfter_label hstored hlabel now
  exact ⟨_, t, ht, hpublic⟩

/-- The page shows an owner the config of a row. -/
theorem Synced.row_of_owner (h : Synced db user page) (howner : page.config.access = .OWNER) :
    ∃ row, db.configs.get? page.config.id = some row ∧
      AbstractStore.access user (db.abstractConfig row) = some .OWNER ∧ page.config = detailOf db row .OWNER := by
  obtain ⟨row, access, hrow, haccess, hconfig⟩ := h.config
  have he : access = .OWNER := by rw [← howner, hconfig, detailOf]
  subst he
  exact ⟨row, hrow, haccess, hconfig⟩

theorem shares_of_owner (hconfig : page.config = detailOf db row .OWNER) :
    page.config.shares = shareInfos db page.config.id := by
  rw [hconfig, detailOf, if_pos rfl]

/-- Who is listed is a user with this login who holds a grant. -/
theorem listed_grantee (hconfig : page.config = detailOf db row .OWNER) {login : String}
    (hlisted : login ∈ page.config.shares.map ShareInfo.login) :
    ∃ grantee permission, db.userByLogin login = some grantee ∧
      db.grants page.config.id grantee.id = some permission := by
  rw [shares_of_owner hconfig] at hlisted
  obtain ⟨info, hinfo, rfl⟩ := List.mem_map.mp hlisted
  obtain ⟨grantee, huser, hlogin, hgrants⟩ := mem_shareInfos.mp hinfo
  exact ⟨grantee, info.permission, hlogin ▸ Configs.userByLogin_eq huser, hgrants⟩

/-- Who is offered is a user with this login who is not the owner. -/
theorem Synced.grantee (h : Synced db user page) (hwell : db.WellShared) {login : String}
    {permission : SharePermission} (hoffer : page.Offers (.grant login permission))
    (hrow : db.configs.get? page.config.id = some row) (hconfig : page.config = detailOf db row .OWNER) :
    ∃ grantee, db.userByLogin login = some grantee ∧ grantee.id ≠ row.ownerId := by
  obtain ⟨-, -, hlisted | hmenu⟩ := hoffer
  · obtain ⟨grantee, held, hgrantee, hgrants⟩ := listed_grantee hconfig hlisted
    refine ⟨grantee, hgrantee, fun hself => ?_⟩
    rw [hself, (hwell _ row hrow).2] at hgrants
    cases hgrants
  · obtain ⟨summary, hsummary, rfl⟩ := List.mem_map.mp hmenu
    obtain ⟨hin, hnot⟩ := List.mem_filter.mp hsummary
    rw [h.users] at hin
    obtain ⟨grantee, hgrantee, -, rfl⟩ := mem_activeUsers.mp hin
    refine ⟨grantee, Configs.userByLogin_eq hgrantee, fun hself => ?_⟩
    have hlogin : page.config.ownerLogin = grantee.login := by
      rw [hconfig, detailOf, loginOfId, ← hself, hgrantee]
      rfl
    simp [hlogin] at hnot

theorem click_grant (h : Synced db user page) (hwell : db.WellShared) (root : LogLevel) (env : Env) {login : String}
    {permission : SharePermission} (hoffer : page.Offers (.grant login permission)) :
    ∃ db' row', page.click root env user db (.grant login permission) =
        ({ page with config := detailOf db' row' .OWNER }, db') ∧
      Meant db db' user page (.grant login permission) ∧ db'.WellShared ∧
      Synced db' user { page with config := detailOf db' row' .OWNER } := by
  obtain ⟨row, hrow, haccess, hconfig⟩ := h.row_of_owner hoffer.1
  obtain ⟨grantee, hgrantee, hself⟩ := h.grantee hwell hoffer hrow hconfig
  have hmanage := AbstractStore.access_owner.mp haccess
  rcases Configs.prepareShare_cases root db user page.config.id ⟨login, permission⟩ with ⟨e, habs, -⟩ |
    ⟨row₁, grantee₁, o, edit, -, hgrantee₁, -, hprep, hobject, hlabel, hpublic, happly, -⟩
  · have hperform : ∃ t, db.abstract.perform 0 (.share user page.config.id ⟨login, permission⟩) = .ok t :=
      ⟨_, AbstractStore.perform_share.mpr
        ⟨db.abstractConfig row, grantee, abstract_configs hrow, hmanage, hgrantee, hself, rfl⟩⟩
    obtain ⟨t, hperform⟩ := hperform
    rw [habs] at hperform
    cases hperform
  · have he : row₁ = row := Option.some.inj (hobject.found.symm.trans hrow)
    subst he
    rw [hgrantee] at hgrantee₁
    cases hgrantee₁
    obtain ⟨db', hflush, hc⟩ := Configs.flush_prepared hobject env
    have hshare := Configs.shareConfig_ok hprep hflush hc.get?
    have hcall : ((ConfigCall.share user page.config.id ⟨login, permission⟩).run root env).run db = .ok () db' :=
      run_bind_ok hshare
    have hrun : (ConfigRoutes.shareEndpoint root env user page.config.id ⟨login, permission⟩).run db =
        .ok (detailOf db' (o.rowAfter env.now row₁) .OWNER) db' := by
      unfold ConfigRoutes.shareEndpoint
      rw [run_bind_ok hshare]
      simp (disch := decide) only [logCall_bind]
      exact detail_run hc.get? .OWNER
    refine ⟨db', _, ?_, ⟨row₁, _, grantee, hrow, hgrantee, happly ▸ hc, ?_⟩,
      (Configs.perform_of_run hwell hcall).2, h.committed hc (owner_committed (o.ownerId_rowAfter _ _) haccess)⟩
    · simp only [ConfigEditor.click, hrun, ← h.shareError]
    · exact sameConfig_rowAfter hobject.stored hlabel hpublic env.now

theorem click_revoke (h : Synced db user page) (hwell : db.WellShared) (root : LogLevel) (env : Env) {login : String}
    (hoffer : page.Offers (.revoke login)) (hsend : (EditorClick.revoke login).Sendable) :
    ∃ db' row', page.click root env user db (.revoke login) =
        ({ page with config := detailOf db' row' .OWNER }, db') ∧
      Meant db db' user page (.revoke login) ∧ db'.WellShared ∧
      Synced db' user { page with config := detailOf db' row' .OWNER } := by
  obtain ⟨row, hrow, haccess, hconfig⟩ := h.row_of_owner hoffer.1
  obtain ⟨grantee, held, hgrantee, hgrants⟩ := listed_grantee hconfig hoffer.2
  have harrives : (ApiCall.unshareConfig page.config.id login : ApiCall Unit).arrives =
      some (.unshare (toString page.config.id) login) :=
    (ApiCall.arrives_iff _).mpr (List.forall_mem_singleton.mpr hsend)
  rcases Configs.prepareUnshare_cases root db user page.config.id login with ⟨e, habs, -⟩ |
    ⟨row₁, grantee₁, o, s, -, hgrantee₁, hg, hprep, hobject, hlabel, hpublic, -⟩
  · have hheld : ((db.abstractConfig row).grants grantee.id).isSome = true := by
      show (db.grants row.id grantee.id).isSome = true
      rw [Database.id_of_config hrow, hgrants]
      rfl
    have hperform := AbstractStore.perform_unshare (abstract_configs hrow) (AbstractStore.access_owner.mp haccess)
      hgrantee hheld 0
    rw [habs] at hperform
    cases hperform
  · have he : row₁ = row := Option.some.inj (hobject.found.symm.trans hrow)
    subst he
    rw [hgrantee] at hgrantee₁
    cases hgrantee₁
    obtain ⟨db', hflush, hc⟩ := Configs.flush_prepared hobject env
    have happly : (ConfigObject.GrantEdit.drop s).apply (db.grants page.config.id) =
        Function.update (db.grants page.config.id) grantee.id none := by
      rw [← hg]
      rfl
    have hunshare := Configs.unshareConfig_ok hprep hflush hc.get?
    have hcall : ((ConfigCall.unshare user page.config.id login).run root env).run db = .ok () db' :=
      run_bind_ok hunshare
    have hrun : (ConfigRoutes.unshareEndpoint root env user page.config.id login).run db =
        .ok (detailOf db' (o.rowAfter env.now row₁) .OWNER) db' := by
      unfold ConfigRoutes.unshareEndpoint
      rw [run_bind_ok hunshare]
      simp (disch := decide) only [logCall_bind]
      exact detail_run hc.get? .OWNER
    refine ⟨db', _, ?_, ⟨row₁, _, grantee, hrow, hgrantee, happly ▸ hc, ?_⟩,
      (Configs.perform_of_run hwell hcall).2, h.committed hc (owner_committed (o.ownerId_rowAfter _ _) haccess)⟩
    · simp only [ConfigEditor.click, harrives, hrun, ← h.shareError]
    · exact sameConfig_rowAfter hobject.stored hlabel hpublic env.now

theorem canPublish_iff {role : Role} : canPublish role = true ↔ role ≠ .USER := by
  cases role <;> decide

/-- An update that no check refuses. -/
theorem perform_update {s : AbstractStore} {c : AbstractConfig} {data : Tstlan.ConfigUpdate}
    (hvisible : s.visible user configId = .ok (c, access))
    (hmanage : data.name.isSome ∨ data.visibility.isSome → access = .OWNER) (hwrite : access ≠ .READ)
    (hpublish : data.visibility = some .PUBLIC → user.role ≠ .USER) (newId : ℤ) :
    ∃ t, s.perform newId (.update user configId data) = .ok t := by
  unfold AbstractStore.perform AbstractStore.mayPublish
  simp only [hvisible, bind, Except.bind]
  rw [if_neg (fun h => h.2 (hmanage h.1)), if_neg (fun h => hwrite h.2), if_neg (fun h => hpublish h.1 h.2)]
  cases data.visibility with
  | none => exact ⟨_, rfl⟩
  | some v => exact ⟨_, rfl⟩

section
variable (page) (role : Role) (draft : ConfigFormDraft) (payload : Tstlan.ConfigPayload)

theorem body_name : (page.body role draft payload).name = if page.config.access = .OWNER then some draft.name else none := by
  unfold ConfigEditor.body
  split <;> rfl

theorem body_payload : (page.body role draft payload).payload = some payload := by
  unfold ConfigEditor.body
  split <;> rfl

theorem body_visibility : (page.body role draft payload).visibility =
    if page.config.access = .OWNER ∧ canPublish role then some draft.visibility else none := by
  unfold ConfigEditor.body
  by_cases howner : page.config.access = .OWNER
  · simp [howner]
  · simp [howner]

end

/-- The body asks for nothing that the user may not change. -/
theorem body_allowed (page : ConfigEditor) (user : User) (draft : ConfigFormDraft) (payload : Tstlan.ConfigPayload) :
    ((page.body user.role draft payload).name.isSome ∨ (page.body user.role draft payload).visibility.isSome →
      page.config.access = .OWNER) ∧
    ((page.body user.role draft payload).visibility = some .PUBLIC → user.role ≠ .USER) := by
  rw [body_name, body_visibility]
  by_cases howner : page.config.access = .OWNER
  · by_cases hpublish : canPublish user.role = true
    · exact ⟨fun _ => howner, fun _ => canPublish_iff.mp hpublish⟩
    · simp [howner, hpublish]
  · simp [howner]

theorem click_save (h : Synced db user page) (hwell : db.WellShared) (root : LogLevel) (env : Env) {draft : ConfigFormDraft}
    {payload : Tstlan.ConfigPayload} (hoffer : page.Offers (.save draft payload)) :
    ∃ db' row' access, page.click root env user db (.save draft payload) =
        ({ page with config := detailOf db' row' access }, db') ∧
      Meant db db' user page (.save draft payload) ∧ db'.WellShared ∧
      Synced db' user { page with config := detailOf db' row' access } := by
  obtain ⟨row, access, hrow, haccess, hconfig⟩ := h.config
  have hshown : page.config.access = access := by rw [hconfig, detailOf]
  have hwrite : access ≠ .READ := hshown ▸ hoffer.1
  obtain ⟨hmanage, hpublish⟩ := body_allowed page user draft payload
  have hvisible : db.abstract.visible user page.config.id = .ok (db.abstractConfig row, access) := by
    unfold AbstractStore.visible
    simp only [abstract_configs hrow, haccess]
  rcases Configs.prepareUpdate_cases root db user page.config.id (page.body user.role draft payload) with ⟨e, habs, -⟩ |
    ⟨row₁, access₁, hrow₁, haccess₁, -, -, -, hprep, -⟩
  · obtain ⟨t, hperform⟩ := perform_update hvisible (hshown ▸ hmanage) hwrite hpublish 0
    rw [habs] at hperform
    cases hperform
  · rw [hrow] at hrow₁
    cases hrow₁
    rw [haccess] at haccess₁
    cases haccess₁
    have hobject := Configs.prepared_update hrow (page.body user.role draft payload)
    obtain ⟨db', hflush, hc⟩ := Configs.flush_prepared hobject env
    have hupdated := Configs.updatedRow_rowAfter db (page.body user.role draft payload) env.now row
    have haccess' := access_committed hc hrow hupdated.ownerId haccess hwrite
    have hupdate := Configs.updateConfig_ok hprep hflush hc.get?
    have hcall : ((ConfigCall.update user page.config.id (page.body user.role draft payload)).run root env).run db =
        .ok () db' := run_bind_ok hupdate
    have hrun : (ConfigRoutes.updateEndpoint root env user page.config.id (page.body user.role draft payload)).run db =
        .ok (detailOf db' ((Configs.updatedObject db row (page.body user.role draft payload)).rowAfter env.now row) access)
          db' := by
      unfold ConfigRoutes.updateEndpoint
      rw [run_bind_ok hupdate, Configs.effectiveAccess_load, haccess']
      simp (disch := decide) only [logCall_bind]
      exact detail_run hc.get? access
    refine ⟨db', _, access, ?_, ⟨row, _, hrow, hc, hupdated.ownerId, hupdated.deviceType, ?_, ?_, ?_⟩,
      (Configs.perform_of_run hwell hcall).2, h.committed hc haccess'⟩
    · simp only [ConfigEditor.click, hrun, ← h.error]
    · have hpayload := hupdated.payload
      rw [body_payload] at hpayload
      exact hpayload
    · rw [hupdated.name, body_name]
      split <;> rfl
    · have hvisibility : ((Configs.updatedObject db row (page.body user.role draft payload)).rowAfter env.now row).visibility =
          Configs.updatedVisibility db row (page.body user.role draft payload).visibility := hupdated.visibility
      rw [hvisibility, body_visibility]
      split
      · exact Configs.updatedVisibility_public
      · exact .rfl

/-- The request that deletes the config is not refused. -/
theorem deleteEndpoint_offered (h : Synced db user page) (hwell : db.WellShared) (root : LogLevel) (env : Env)
    (hoffer : page.Offers .remove) :
    ∃ db', (ConfigRoutes.deleteEndpoint root user page.config.id).run db = .ok () db' ∧
      Meant db db' user page .remove ∧ db'.WellShared := by
  obtain ⟨row, hrow, haccess, hconfig⟩ := h.row_of_owner hoffer
  rcases Configs.prepareDelete_cases root db user page.config.id with ⟨e, habs, -⟩ | ⟨row₁, hrow₁, -, hprep, -⟩
  · have hmanaged := AbstractStore.managed_ok.mpr ⟨abstract_configs hrow, AbstractStore.access_owner.mp haccess⟩
    have hperform := habs 0
    unfold AbstractStore.perform at hperform
    simp only [hmanaged, bind, Except.bind] at hperform
    cases hperform
  · rw [hrow] at hrow₁
    cases hrow₁
    obtain ⟨db', p, hflush, hdb', hp⟩ := Configs.flushDeleted_ok hrow
    have hdelete := Configs.deleteConfig_ok hprep hflush
    have hcall : ((ConfigCall.delete user page.config.id).run root env).run db = .ok () db' := hdelete
    have hrun : (ConfigRoutes.deleteEndpoint root user page.config.id).run db = .ok () db' := by
      unfold ConfigRoutes.deleteEndpoint
      rw [run_bind_ok hdelete, logCall_of_clean (by decide)]
      rfl
    exact ⟨db', hrun, ⟨p, hdb', hp⟩, (Configs.perform_of_run hwell hcall).2⟩

theorem click_remove (h : Synced db user page) (hwell : db.WellShared) (root : LogLevel) (env : Env) (hoffer : page.Offers .remove) :
    ∃ db', page.click root env user db .remove = ({ page with error := none, left := true }, db') ∧
      Meant db db' user page .remove ∧ db'.WellShared := by
  obtain ⟨db', hrun, hmeant, hwell'⟩ := deleteEndpoint_offered h hwell root env hoffer
  refine ⟨db', ?_, hmeant, hwell'⟩
  simp only [ConfigEditor.click, hrun]

/-- The path of the share of a user called `..` leads to the config itself. -/
theorem click_revoke_parent (h : Synced db user page) (hwell : db.WellShared) (root : LogLevel) (env : Env)
    (hoffer : page.Offers (.revoke "..")) :
    Meant db (page.click root env user db (.revoke "..")).2 user page .remove ∧
      (page.click root env user db (.revoke "..")).1 = { page with shareError := some (describeShareError none) } := by
  obtain ⟨db', hrun, hmeant, -⟩ := deleteEndpoint_offered h hwell root env hoffer.1
  have hclick : page.click root env user db (.revoke "..") =
      ({ page with shareError := some (describeShareError none) }, db') := by
    simp only [ConfigEditor.click, ApiCall.arrives_unshare_parent, hrun]
  rw [hclick]
  exact ⟨hmeant, rfl⟩

end

/-! ## Runs -/

/-- A click with the clock and the keys it is served with, or what others do elsewhere. -/
inductive EditorEvent
  | click (env : Env) (c : EditorClick)
  | elsewhere

/-- One event; what happens elsewhere leaves the users, this config and its grants alone. -/
inductive EditorStep (root : LogLevel) (user : User) : ConfigEditor × Database → EditorEvent → ConfigEditor × Database → Prop
  | click {page : ConfigEditor} {db : Database} {env : Env} {c : EditorClick} (hopen : page.left = false)
      (hoffer : page.Offers c) (hsend : c.Sendable) :
      EditorStep root user (page, db) (.click env c) (page.click root env user db c)
  | elsewhere {page : ConfigEditor} {db db' : Database} (hwell : db'.WellShared) (husers : db'.users = db.users)
      (hrow : db'.configs.get? page.config.id = db.configs.get? page.config.id)
      (hshares : db'.sharesOf page.config.id = db.sharesOf page.config.id) :
      EditorStep root user (page, db) .elsewhere (page, db')

section
variable {root : LogLevel} {user : User} {page : ConfigEditor} {db db' : Database}

theorem Synced.elsewhere (h : Synced db user page) (husers : db'.users = db.users)
    (hrow : db'.configs.get? page.config.id = db.configs.get? page.config.id)
    (hshares : db'.sharesOf page.config.id = db.sharesOf page.config.id) : Synced db' user page where
  config := by
    obtain ⟨row, access, hget, haccess, hconfig⟩ := h.config
    have hid := Database.id_of_config hget
    have hlogin : ∀ userId, loginOfId db' userId = loginOfId db userId := by
      intro userId
      rw [loginOfId, loginOfId, husers]
    refine ⟨row, access, hrow.trans hget, ?_, ?_⟩
    · unfold Database.abstractConfig Database.grants at haccess ⊢
      rw [hid] at haccess ⊢
      rw [hshares]
      exact haccess
    · rw [hconfig]
      unfold detailOf shareInfos
      simp only [hid, hshares, hlogin]
  users := by
    rw [h.users, activeUsers, activeUsers, husers]
  error := h.error
  shareError := h.shareError

/-- An offered click is accepted and does what it says, and the page is in step with the answer. -/
theorem click_offered (h : Synced db user page) (hwell : db.WellShared) (root : LogLevel) (env : Env) {c : EditorClick}
    (hoffer : page.Offers c) (hsend : c.Sendable) :
    let next := page.click root env user db c
    (Meant db next.2 user page c ∧ next.1.error = none ∧ next.1.shareError = none) ∧
      next.2.WellShared ∧ (next.1.left = false → Synced next.2 user next.1) := by
  intro next
  cases c with
  | save draft payload =>
    obtain ⟨db', row', access, hclick, hmeant, hwell', hsynced⟩ := click_save h hwell root env hoffer
    rw [show next = _ from hclick]
    exact ⟨⟨hmeant, h.error, h.shareError⟩, hwell', fun _ => hsynced⟩
  | grant login permission =>
    obtain ⟨db', row', hclick, hmeant, hwell', hsynced⟩ := click_grant h hwell root env hoffer
    rw [show next = _ from hclick]
    exact ⟨⟨hmeant, h.error, h.shareError⟩, hwell', fun _ => hsynced⟩
  | revoke login =>
    obtain ⟨db', row', hclick, hmeant, hwell', hsynced⟩ := click_revoke h hwell root env hoffer hsend
    rw [show next = _ from hclick]
    exact ⟨⟨hmeant, h.error, h.shareError⟩, hwell', fun _ => hsynced⟩
  | remove =>
    obtain ⟨db', hclick, hmeant, hwell'⟩ := click_remove h hwell root env hoffer
    rw [show next = _ from hclick]
    exact ⟨⟨hmeant, rfl, h.shareError⟩, hwell', fun hopen => absurd hopen (by simp)⟩

theorem synced_step {s t : ConfigEditor × Database} {event : EditorEvent}
    (hs : s.2.WellShared ∧ (s.1.left = false → Synced s.2 user s.1)) (hstep : EditorStep root user s event t) :
    t.2.WellShared ∧ (t.1.left = false → Synced t.2 user t.1) := by
  cases hstep with
  | click hopen hoffer hsend => exact (click_offered (hs.2 hopen) hs.1 root _ hoffer hsend).2
  | elsewhere hwell husers hrow hshares =>
    exact ⟨hwell, fun hopen => (hs.2 hopen).elsewhere husers hrow hshares⟩

theorem user_eq {u v : User} (hu : db.users.get? u.id = some u) (hv : db.users.get? v.id = some v)
    (hlogin : u.login = v.login) : u = v := by
  have hid := db.constraints.login u.id v.id u v hu hv hlogin
  rw [hid, hv] at hu
  exact (Option.some.inj hu).symm

/-- The menu has the active users who neither own the config nor hold a grant on it. -/
theorem candidates_iff (h : Synced db user page) (howner : page.config.access = .OWNER) {row : DeviceConfig}
    (hrow : db.configs.get? page.config.id = some row) {u : User} (hu : db.users.get? u.id = some u)
    (hactive : u.isActive = true) :
    u.login ∈ page.candidates.map UserSummary.login ↔ u.id ≠ row.ownerId ∧ db.grants page.config.id u.id = none := by
  obtain ⟨row₁, hrow₁, -, hconfig⟩ := h.row_of_owner howner
  rw [hrow] at hrow₁
  cases hrow₁
  obtain ⟨owner, hget⟩ := owner_of_row hrow
  have hownerId : owner.id = row.ownerId := db.constraints.userId _ _ hget
  have hlogin : page.config.ownerLogin = owner.login := by
    rw [hconfig, detailOf, loginOfId, hget]
    rfl
  have hown : u.login = page.config.ownerLogin ↔ u.id = row.ownerId := by
    rw [hlogin, ← hownerId]
    exact ⟨fun he => congrArg User.id (user_eq hu (hownerId ▸ hget) he), fun he => by
      rw [hownerId] at he
      rw [he, hget] at hu
      rw [Option.some.inj hu]⟩
  have hheld : u.login ∈ page.config.shares.map ShareInfo.login ↔ db.grants page.config.id u.id ≠ none := by
    rw [shares_of_owner hconfig, List.mem_map]
    constructor
    · rintro ⟨info, hinfo, he⟩
      obtain ⟨grantee, hgrantee, hinfoLogin, hgrants⟩ := mem_shareInfos.mp hinfo
      rw [user_eq hu hgrantee (he.symm.trans hinfoLogin), hgrants]
      exact Option.some_ne_none _
    · intro hsome
      obtain ⟨p, hp⟩ := Option.ne_none_iff_exists'.mp hsome
      exact ⟨⟨u.login, p⟩, mem_shareInfos.mpr ⟨u, hu, rfl, hp⟩, rfl⟩
  have hmem : u.login ∈ page.candidates.map UserSummary.login ↔
      u.login ∉ page.config.ownerLogin :: page.config.shares.map ShareInfo.login := by
    rw [List.mem_map]
    constructor
    · rintro ⟨summary, hsummary, he⟩
      rw [← he]
      exact of_decide_eq_true (List.mem_filter.mp hsummary).2
    · intro hnot
      refine ⟨⟨u.login, u.role⟩, List.mem_filter.mpr ⟨?_, decide_eq_true hnot⟩, rfl⟩
      rw [h.users]
      exact mem_activeUsers.mpr ⟨u, hu, hactive, rfl⟩
  rw [hmem, List.mem_cons, not_or, hown, hheld, not_not]

/-- The first user opens the config that they have created. -/
def editorPage : ConfigEditor where
  config := detailOf Configs.storedTank ⟨1, 1, "Tank", "tank", {}, .PRIVATE, 0, 0⟩ .OWNER
  users := activeUsers Configs.storedTank

/-- They let the other user write. -/
def editorAfter : ConfigEditor × Database :=
  editorPage.click .INFO sampleEnv ⟨1, "ann", "", .DEV, true⟩ Configs.storedTank (.grant "bob" .WRITE)

end

end Tstlan.Web
