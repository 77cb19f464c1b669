import Tstlan.Auth.Models
import Tstlan.Devices.Service

/-! # The device endpoints (`tstlan/devices/routes.py`)

Each endpoint takes the caller that `current_user` returned. An exception of the service becomes a
response through the registered handlers; any other exception is unhandled. -/
namespace Tstlan
open Foundations
set_option autoImplicit false

structure VariableInfo where
  name : String
  ctype : NetVarCType
  mode : NetVarMode
  deriving DecidableEq

def VariableInfo.fromVar (var : NetVar) : VariableInfo := ⟨var.name, var.ctype, var.mode⟩

structure DeviceSummary where
  id : String
  name : String
  type : String
  enabled : Bool
  status : DeviceStatus
  variableCount : ℕ
  deriving DecidableEq

def DeviceSummary.fromDevice (device : Device) : DeviceSummary :=
  ⟨device.id, device.name, device.type, device.enabled, device.status, device.vars.length⟩

structure DeviceDetail where
  id : String
  name : String
  type : String
  enabled : Bool
  status : DeviceStatus
  vars : List VariableInfo
  deriving DecidableEq

def DeviceDetail.fromDevice (device : Device) : DeviceDetail :=
  ⟨device.id, device.name, device.type, device.enabled, device.status,
    device.vars.map VariableInfo.fromVar⟩

structure VariableValue where
  name : String
  ctype : NetVarCType
  value : Number
  deriving DecidableEq

def VariableValue.fromVar (var : NetVar) : VariableValue := ⟨var.name, var.ctype, var.value⟩

/-- What an endpoint raises: an HTTP exception of its own or an exception of the service. -/
inductive DeviceRouteError
  | http (status : ℕ) (detail : String)
  | service (e : DeviceError)
  deriving DecidableEq

/-- The registered handlers; `none` is an exception without one. -/
def DeviceRouteError.status : DeviceRouteError → Option ℕ
  | .http status _ => some status
  | .service (.deviceNotFound _) => some 404
  | .service (.variableNotFound _) => some 404
  | .service (.variableAccess _) => some 403
  | .service (.valueValidation _) => some 422
  | .service (.python _) => none

/-- `str(exc)`. -/
def DeviceError.text (repr : Binary.Double → String) : DeviceError → String
  | .deviceNotFound deviceId => deviceId
  | .variableNotFound name => name
  | .variableAccess name => name
  | .valueValidation e => e.text repr
  | .python _ => ""

namespace DeviceRoutes
variable {σ : Type} (root : LogLevel) (service : DeviceService)

def python (e : PyError) : DeviceRouteError := .service (.python e)

def requireWriter (user : User) : EStateM DeviceRouteError σ User :=
  if user.role ∉ [Role.DEV, Role.ADMIN] then do
    log python (logCall root .WARNING ["login"])
    throw (.http 403 "write requires dev or admin role")
  else return user

variable [UnidriverIo σ]

def listDevices : EStateM DeviceRouteError σ (List DeviceSummary) := do
  let devices ← EStateM.adaptExcept .service (service.listDevices root)
  return devices.map DeviceSummary.fromDevice

def getDevice (deviceId : String) : EStateM DeviceRouteError σ DeviceDetail := do
  let device ← EStateM.adaptExcept .service (service.getDevice root deviceId)
  return DeviceDetail.fromDevice device

def readValues (deviceId : String) : EStateM DeviceRouteError σ (List VariableValue) := do
  let values ← EStateM.adaptExcept .service (service.readValues root deviceId)
  return values.map VariableValue.fromVar

def readValue (deviceId name : String) : EStateM DeviceRouteError σ VariableValue := do
  let value ← EStateM.adaptExcept .service (service.readValue root deviceId name)
  return VariableValue.fromVar value

def writeValue (user : User) (deviceId name : String) (value : Number) :
    EStateM DeviceRouteError σ VariableValue := do
  let _writer ← requireWriter root user
  let updated ← EStateM.adaptExcept .service (service.writeValue root deviceId name value)
  log python (logCall root .INFO ["device_id", "name", "login"])
  return VariableValue.fromVar updated

/-- The events of the stream until it is stopped after `n` of them. The response has started when the first one is
made, so that a failed read cuts the stream off and changes nothing else of the answer. -/
def valueEventStream (deviceId : String) : ℕ → EStateM DeviceRouteError σ (List (List VariableValue))
  | 0 => return []
  | n + 1 => fun s =>
    match (readValues root service deviceId).run s with
    | .ok snapshot s => (return snapshot :: (← valueEventStream deviceId n) : EStateM _ σ _).run s
    | .error _ s => .ok [] s

def streamValues (deviceId : String) (n : ℕ) :
    EStateM DeviceRouteError σ (List (List VariableValue)) := do
  let _device ← EStateM.adaptExcept .service (service.getDevice root deviceId)
  log python (logCall root .INFO ["device_id"])
  valueEventStream root service deviceId n

end DeviceRoutes
end Tstlan
