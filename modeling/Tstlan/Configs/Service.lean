import Tstlan.Configs.Schemas
import Tstlan.LoggingSetup

/-! # The config service (`tstlan/configs/service.py`)

What a function reads comes from the database at its start, so the part of it before the commit is a
function of that database; `prepareUpdate`, `prepareShare` and `prepareUnshare` are those parts of
`update_config`, `share_config` and `unshare_config`. -/
namespace Tstlan
open Foundations
set_option autoImplicit false

inductive ConfigError
  | configNotFound (id : ℤ)
  | configAccessDenied (id : ℤ)
  | publishNotAllowed (login : String)
  | granteeNotFound (login : String)
  | cannotShareWithOwner (login : String)
  | database (e : DatabaseError)
  | python (e : PyError)
  deriving DecidableEq

abbrev ConfigM := EStateM ConfigError Database

namespace Configs

def sharePermission (user : User) (config : ConfigObject) : Option SharePermission :=
  (config.shares.find? (fun share => share.granteeId = user.id)).map ShareObject.permission

/-- The user's access to a config. -/
def effectiveAccess (user : User) (config : ConfigObject) : Option Access :=
  if user.role = .ADMIN ∨ config.row.ownerId = user.id then some .OWNER
  else
    match sharePermission user config with
    | some .WRITE => some .WRITE
    | some .READ => some .READ
    | none => if config.row.visibility = .PUBLIC then some .READ else none

def canPublish (user : User) : Bool := user.role ∈ [Role.DEV, Role.ADMIN]

/-- PRIVATE and SHARED say whether there are grants; PUBLIC is left alone. -/
def normalizeVisibility (config : ConfigObject) : ConfigObject :=
  if config.row.visibility = .PUBLIC then config
  else config.setVisibility (if config.shares.isEmpty then .PRIVATE else .SHARED)

variable (root : LogLevel)

/-- A warning and an exception. -/
def reject {α : Type} (fields : List String) (e : ConfigError) : Except ConfigError α := do
  (logEvent root .WARNING fields).mapError .python
  throw e

def resolveCreateVisibility (user : User) (visibility : ConfigVisibility) :
    Except ConfigError ConfigVisibility :=
  if visibility = .PUBLIC then
    if canPublish user then return .PUBLIC
    else reject root ["login", "user_id", "role"] (.publishNotAllowed user.login)
  else return .PRIVATE

/-! ## Reading -/

variable (db : Database)

/-- Read again after a commit. -/
def loadDetail (configId : ℤ) : Except ConfigError ConfigObject :=
  match db.configs.get? configId with
  | none => throw (.database .noResultFound)
  | some row => return db.load row

/-- `outerjoin(ConfigShare, ..)`: a config once for each of the user's grants on it, or once with none. -/
def outerJoin (user : User) (row : DeviceConfig) : List (DeviceConfig × Option ConfigShare) :=
  let matching := db.shares.values.filter (fun s => s.configId = row.id ∧ s.granteeId = user.id)
  if matching.isEmpty then [(row, none)] else matching.map (fun s => (row, some s))

/-- The `where` of the listing. -/
def listed (user : User) (r : DeviceConfig × Option ConfigShare) : Bool :=
  r.1.ownerId = user.id ∨ r.1.visibility = .PUBLIC ∨ r.2.isSome

def selectConfigs (user : User) : List DeviceConfig :=
  if user.role ≠ .ADMIN then
    -- `.distinct()` over the columns of the config
    (((db.configs.values.flatMap (outerJoin db user)).filter (listed user)).map Prod.fst).dedup
  else db.configs.values

/-- `.unique()`: a row only when its key has not been seen. -/
def uniqueRows (seen : List ℤ) : List DeviceConfig → List DeviceConfig
  | [] => []
  | row :: rows =>
    if row.id ∈ seen then uniqueRows seen rows else row :: uniqueRows (row.id :: seen) rows

def listConfigs (user : User) : Except ConfigError (List (ConfigObject × Access)) := do
  let rows := (selectConfigs db user).mergeSort (fun a b => b.updatedAt ≤ a.updatedAt)
  let configs := (uniqueRows [] rows).map db.load
  let result := configs.filterMap
    (fun config => (effectiveAccess user config).map (fun access => (config, access)))
  (logEvent root .DEBUG ["login", "user_id", "role", "count"]).mapError .python
  return result

def getConfig (user : User) (configId : ℤ) : Except ConfigError (ConfigObject × Access) :=
  match db.configs.get? configId with
  | none => reject root ["config_id"] (.configNotFound configId)
  | some row =>
    let config := db.load row
    match effectiveAccess user config with
    | none => reject root ["config_id", "login", "user_id"] (.configAccessDenied configId)
    | some access => return (config, access)

/-! ## What a mutation does before its commit -/

def assignVisibility (user : User) (config : ConfigObject) :
    Option ConfigVisibility → Except ConfigError ConfigObject
  | none => return config
  | some .PUBLIC =>
    if canPublish user then return config.setVisibility .PUBLIC
    else reject root ["config_id", "login", "user_id", "role"] (.publishNotAllowed user.login)
  | some _ => return normalizeVisibility (config.setVisibility .PRIVATE)

def assignName (config : ConfigObject) : Option String → ConfigObject
  | none => config
  | some name => config.setName name

def assignPayload (config : ConfigObject) : Option ConfigPayload → ConfigObject
  | none => config
  | some payload => config.setPayload payload

def prepareUpdate (user : User) (configId : ℤ) (data : ConfigUpdate) :
    Except ConfigError (ConfigObject × Access) := do
  let (config, access) ← getConfig root db user configId
  let wantsManage := data.name.isSome || data.visibility.isSome
  if wantsManage ∧ access ≠ .OWNER then
    reject root ["config_id", "login", "user_id", "reason"] (.configAccessDenied configId)
  else if data.payload.isSome ∧ access ∉ [Access.OWNER, Access.WRITE] then
    reject root ["config_id", "login", "user_id", "reason"] (.configAccessDenied configId)
  else
    let config ← assignVisibility root user config data.visibility
    return (assignPayload (assignName config data.name) data.payload, access)

def prepareShare (user : User) (configId : ℤ) (req : ShareRequest) :
    Except ConfigError (ConfigObject × Access) := do
  let (config, access) ← getConfig root db user configId
  if access ≠ .OWNER then
    reject root ["config_id", "login", "user_id", "reason"] (.configAccessDenied configId)
  else
    match db.userByLogin req.login with
    | none =>
      reject root ["config_id", "login", "grantee", "reason"] (.granteeNotFound req.login)
    | some grantee =>
      if grantee.id = config.row.ownerId then
        reject root ["config_id", "login", "grantee", "reason"] (.cannotShareWithOwner req.login)
      else
        let config :=
          if config.shares.any (fun share => share.granteeId = grantee.id) then
            config.setPermission grantee.id req.permission
          else config.appendShare grantee.id req.permission
        return (normalizeVisibility config, access)

def prepareUnshare (user : User) (configId : ℤ) (login : String) :
    Except ConfigError (ConfigObject × Access) := do
  let (config, access) ← getConfig root db user configId
  if access ≠ .OWNER then
    reject root ["config_id", "login", "user_id"] (.configAccessDenied configId)
  else
    match config.shares.find? (fun share => share.grantee.map User.login = some login) with
    | none =>
      reject root ["config_id", "login", "grantee", "reason"] (.granteeNotFound login)
    | some share => return (normalizeVisibility (config.removeShare share), access)

def prepareDelete (user : User) (configId : ℤ) : Except ConfigError (ConfigObject × Access) := do
  let (config, access) ← getConfig root db user configId
  if access ≠ .OWNER then
    reject root ["config_id", "login", "user_id"] (.configAccessDenied configId)
  else return (config, access)

/-! ## The mutations -/

variable (env : Env)

def transact {α : Type} (run : Database → Except DatabaseError (α × Database)) : ConfigM α :=
  Database.transact .database run

def commit (config : ConfigObject) : ConfigM Unit :=
  transact (fun db => (config.flush env db).map (fun db' => ((), db')))

/-- `db.add` and the commit: the new row gets its key from the database. -/
def addConfig (row : DeviceConfig) : ConfigM ℤ :=
  transact (fun db =>
    let id := env.ids.nextKey db.configs
    (Database.insert db.configs id { row with id := id }
      (fun configs => { db.toTables with configs := configs })).map (fun db' => (id, db')))

def read {α : Type} (x : Database → Except ConfigError α) : ConfigM α := do
  let db ← get
  fromExcept (x db)

def createConfig (user : User) (data : ConfigCreate) : ConfigM ConfigObject := do
  let visibility ← fromExcept (resolveCreateVisibility root user data.visibility)
  let configId ← addConfig env
    { id := 0, ownerId := user.id, name := data.name, deviceType := data.deviceType,
      payload := data.payload, visibility := visibility, createdAt := env.now, updatedAt := env.now }
  let config ← read (fun db => loadDetail db configId)
  log .python (logEvent root .INFO ["config_id", "login", "user_id", "visibility"])
  return config

def updateConfig (user : User) (configId : ℤ) (data : ConfigUpdate) :
    ConfigM (ConfigObject × Access) := do
  let (config, access) ← read (fun db => prepareUpdate root db user configId data)
  commit env config
  let config ← read (fun db => loadDetail db configId)
  log .python (logEvent root .INFO ["config_id", "login", "user_id", "access"])
  return (config, (effectiveAccess user config).getD access)

def deleteConfig (user : User) (configId : ℤ) : ConfigM Unit := do
  let (config, _) ← read (fun db => prepareDelete root db user configId)
  transact (fun db => (config.flushDeleted db).map (fun db' => ((), db')))
  log .python (logEvent root .INFO ["config_id", "login", "user_id"])

def shareConfig (user : User) (configId : ℤ) (req : ShareRequest) :
    ConfigM (ConfigObject × Access) := do
  let (config, access) ← read (fun db => prepareShare root db user configId req)
  commit env config
  log .python (logEvent root .INFO ["config_id", "login", "user_id", "grantee", "permission"])
  let config ← read (fun db => loadDetail db configId)
  return (config, access)

def unshareConfig (user : User) (configId : ℤ) (login : String) :
    ConfigM (ConfigObject × Access) := do
  let (config, access) ← read (fun db => prepareUnshare root db user configId login)
  commit env config
  log .python (logEvent root .INFO ["config_id", "login", "user_id", "grantee"])
  let config ← read (fun db => loadDetail db configId)
  return (config, access)

end Configs
end Tstlan
