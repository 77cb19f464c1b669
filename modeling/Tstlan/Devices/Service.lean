import Tstlan.LoggingSetup
import Tstlan.Devices.Models
import Tstlan.Devices.Scheme

/-! # The device service (`tstlan/devices/runtime.py`, `tstlan/devices/service.py`)

A runtime is a device with its accessors by name; of two variables with one name the later one keeps the
name, as in the source's dictionary. The service finds a device by its id and reads and writes its
variables. `root` is the level of the server's log, on which the log calls depend. -/
namespace Tstlan
open Foundations
set_option autoImplicit false

structure DeviceRuntime where
  device : Device
  scheme : Dict String NetVarAccessor
  deriving DecidableEq

def attachDevice (device : Device) (handle : ℤ) : DeviceRuntime :=
  ⟨device, Dict.ofList ((buildScheme handle device.vars).map (fun acc => (acc.var.name, acc)))⟩

section
variable {σ : Type} [UnidriverIo σ]

/-- Write the current values of the variables to the device (the initial state). -/
def publishValues (scheme : Dict String NetVarAccessor) : List NetVar → EStateM PyError σ Unit
  | [] => return ()
  | var :: vars => do
    match scheme.get? var.name with
    | none => throw .keyError
    | some acc => acc.set var.value
    publishValues scheme vars

def bindDevice (device : Device) (handle : ℤ) : EStateM PyError σ DeviceRuntime := do
  let runtime := attachDevice device handle
  publishValues runtime.scheme device.vars
  return runtime

end

structure DeviceService where
  devices : Dict String DeviceRuntime
  deriving DecidableEq

namespace DeviceService

/-- The constructor: of two devices with one id the later one keeps the id. -/
def ofRuntimes (runtimes : List DeviceRuntime) : DeviceService :=
  ⟨Dict.ofList (runtimes.map (fun runtime => (runtime.device.id, runtime)))⟩

section
variable {σ : Type} [UnidriverIo σ]

variable (root : LogLevel) (service : DeviceService)

def runtimeOf (deviceId : String) : EStateM DeviceError σ DeviceRuntime :=
  match service.devices.get? deviceId with
  | some runtime => return runtime
  | none => do
    log .python (logEvent root .WARNING ["device_id"])
    throw (.deviceNotFound deviceId)

def variableOf (runtime : DeviceRuntime) (name : String) : EStateM DeviceError σ NetVar :=
  match runtime.device.vars.find? (fun var => var.name = name) with
  | some var => return var
  | none => do
    log .python (logEvent root .WARNING ["device_id", "variable"])
    throw (.variableNotFound name)

def snapshot (runtime : DeviceRuntime) (var : NetVar) : EStateM DeviceError σ NetVar :=
  match runtime.scheme.get? var.name with
  | none => throw (.python .keyError)
  | some acc => do
    let value ← EStateM.adaptExcept .python acc.get
    return { var with value := value }

def listDevices : EStateM DeviceError σ (List Device) := do
  log .python (logEvent root .DEBUG ["count"])
  return service.devices.values.map DeviceRuntime.device

def getDevice (deviceId : String) : EStateM DeviceError σ Device := do
  let runtime ← runtimeOf root service deviceId
  return runtime.device

def snapshots (runtime : DeviceRuntime) : List NetVar → EStateM DeviceError σ (List NetVar)
  | [] => return []
  | var :: vars => do
    let value ← snapshot runtime var
    let values ← snapshots runtime vars
    return value :: values

def readValues (deviceId : String) : EStateM DeviceError σ (List NetVar) := do
  let runtime ← runtimeOf root service deviceId
  let values ← snapshots runtime (runtime.device.vars.filter (fun var => var.mode ≠ .W))
  log .python (logEvent root .DEBUG ["device_id", "count"])
  return values

def readValue (deviceId name : String) : EStateM DeviceError σ NetVar := do
  let runtime ← runtimeOf root service deviceId
  let var ← variableOf root runtime name
  if var.mode = .W then
    log .python (logEvent root .WARNING ["device_id", "variable", "reason"])
    throw (.variableAccess name)
  let value ← snapshot runtime var
  log .python (logEvent root .DEBUG ["device_id", "variable"])
  return value

def writeValue (deviceId name : String) (value : Number) : EStateM DeviceError σ NetVar := do
  let runtime ← runtimeOf root service deviceId
  let var ← variableOf root runtime name
  if var.mode = .R then
    log .python (logEvent root .WARNING ["device_id", "variable", "reason"])
    throw (.variableAccess name)
  let coerced ← fromExcept (coerceValue var.ctype value)
  match runtime.scheme.get? name with
  | none => throw (.python .keyError)
  | some acc => EStateM.adaptExcept .python (acc.set coerced)
  log .python (logEvent root .INFO ["device_id", "variable", "ctype"])
  return { var with value := coerced }

end
end DeviceService
end Tstlan
