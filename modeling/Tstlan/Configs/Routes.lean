import Tstlan.Configs.Service

/-! The config endpoints (`tstlan/configs/routes.py`), for the caller that `current_user` returned. -/
namespace Tstlan
open Foundations
set_option autoImplicit false

/-- The registered handlers; `none` is an exception without one. -/
def ConfigError.status : ConfigError → Option ℕ
  | .configNotFound _ => some 404
  | .granteeNotFound _ => some 404
  | .configAccessDenied _ => some 403
  | .publishNotAllowed _ => some 403
  | .cannotShareWithOwner _ => some 422
  | .database _ => none
  | .python _ => none

/-- `str(exc)`. -/
def ConfigError.text : ConfigError → String
  | .configNotFound id => toString id
  | .granteeNotFound login => login
  | .configAccessDenied id => toString id
  | .publishNotAllowed login => login
  | .cannotShareWithOwner login => login
  | .database _ => ""
  | .python _ => ""

namespace ConfigRoutes
open Configs
variable (root : LogLevel) (env : Env) (user : User)

def detail (config : ConfigObject) (access : Access) : ConfigM ConfigDetail :=
  fromExcept ((ConfigDetail.fromConfig config access).mapError .python)

def listEndpoint : ConfigM (List ConfigSummary) := do
  let configs ← read (fun db => listConfigs root db user)
  fromExcept ((configs.mapM (fun c => ConfigSummary.fromConfig c.1 c.2)).mapError .python)

def createEndpoint (payload : ConfigCreate) : ConfigM ConfigDetail := do
  let config ← createConfig root env user payload
  let (_, access) ← read (fun db => getConfig root db user config.row.id)
  log .python (logCall root .INFO ["config_id", "login"])
  detail config access

def getEndpoint (configId : ℤ) : ConfigM ConfigDetail := do
  let (config, access) ← read (fun db => getConfig root db user configId)
  detail config access

def updateEndpoint (configId : ℤ) (payload : ConfigUpdate) : ConfigM ConfigDetail := do
  let (config, access) ← updateConfig root env user configId payload
  log .python (logCall root .INFO ["config_id", "login"])
  detail config access

def deleteEndpoint (configId : ℤ) : ConfigM Unit := do
  deleteConfig root user configId
  log .python (logCall root .INFO ["config_id", "login"])

def shareEndpoint (configId : ℤ) (payload : ShareRequest) : ConfigM ConfigDetail := do
  let (config, access) ← shareConfig root env user configId payload
  log .python (logCall root .INFO ["config_id", "login", "grantee", "permission"])
  detail config access

def unshareEndpoint (configId : ℤ) (login : String) : ConfigM ConfigDetail := do
  let (config, access) ← unshareConfig root env user configId login
  log .python (logCall root .INFO ["config_id", "login", "grantee"])
  detail config access

end ConfigRoutes
end Tstlan
