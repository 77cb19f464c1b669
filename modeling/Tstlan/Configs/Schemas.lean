import Tstlan.Configs.UnitOfWork

/-! The bodies and views of the config endpoints (`tstlan/configs/schemas.py`). -/
namespace Tstlan
set_option autoImplicit false

inductive Access
  | OWNER | WRITE | READ
  deriving DecidableEq, Repr

structure ConfigCreate where
  name : String
  deviceType : String
  payload : ConfigPayload := {}
  visibility : ConfigVisibility := .PRIVATE
  deriving DecidableEq

structure ConfigUpdate where
  name : Option String := none
  payload : Option ConfigPayload := none
  visibility : Option ConfigVisibility := none
  deriving DecidableEq

structure ShareRequest where
  login : String
  permission : SharePermission := .READ
  deriving DecidableEq

structure ShareInfo where
  login : String
  permission : SharePermission
  deriving DecidableEq

structure ConfigSummary where
  id : ℤ
  name : String
  deviceType : String
  visibility : ConfigVisibility
  ownerLogin : String
  access : Access
  createdAt : Time
  updatedAt : Time
  deriving DecidableEq

structure ConfigDetail extends ConfigSummary where
  payload : ConfigPayload
  shares : List ShareInfo
  deriving DecidableEq

/-- `.login` of a relationship; there is no user behind it only in a database that breaks its foreign
keys. -/
def loginOf (user : Option User) : Except Foundations.PyError String :=
  match user with
  | some user => .ok user.login
  | none => .error .attributeError

def ShareInfo.fromShare (share : ShareObject) : Except Foundations.PyError ShareInfo := do
  let login ← loginOf share.grantee
  return ⟨login, share.permission⟩

def ConfigSummary.fromConfig (config : ConfigObject) (access : Access) :
    Except Foundations.PyError ConfigSummary := do
  let ownerLogin ← loginOf config.owner
  return ⟨config.row.id, config.row.name, config.row.deviceType, config.row.visibility, ownerLogin, access,
    config.row.createdAt, config.row.updatedAt⟩

/-- The grants are shown only to those who manage the config. -/
def ConfigDetail.fromConfig (config : ConfigObject) (access : Access) :
    Except Foundations.PyError ConfigDetail := do
  let shares ← if access = .OWNER then config.shares.mapM ShareInfo.fromShare else pure []
  let summary ← ConfigSummary.fromConfig config access
  return { summary with payload := config.row.payload, shares := shares }

end Tstlan
