import Tstlan.Devices.Net.Client
import Tstlan.Devices.Values
import Tstlan.Foundations.Scan

/-! # The simulated device behind its server (`devsim/server.py`, `tstlan/devices/simulation/engine.py`)

The lock makes a tick of the engine and a request of a client one action each. `DeviceServer` is the device as
one client sees it: before each of its requests is served, the others perform the next part of a schedule. -/
namespace Tstlan
open Foundations
set_option autoImplicit false

/-- `devsim.server.HANDLE`. -/
def devsimHandle : ℤ := 1

/-! ## Actions -/

section
variable {σ : Type} [UnidriverIo σ]

/-- The engine looks at what the backend may have written. -/
def readControls (scheme : Dict String NetVarAccessor) : List NetVar → EStateM PyError σ Unit
  | [] => return ()
  | var :: vars => do
    match scheme.get? var.name with
    | none => throw .keyError
    | some acc => let _value ← acc.get
    readControls scheme vars

/-- `fitted` is what `fit_value` makes of the samples of the signals at this tick. -/
def publishSignals (scheme : Dict String NetVarAccessor) (fitted : Dict String Number) :
    List NetVar → EStateM PyError σ Unit
  | [] => return ()
  | var :: vars => do
    match fitted.get? var.name with
    | none => publishSignals scheme fitted vars
    | some value =>
      match scheme.get? var.name with
      | none => throw .keyError
      | some acc => acc.set value
      publishSignals scheme fitted vars

def tick (device : Device) (fitted : Dict String Number) : EStateM PyError σ Unit := do
  if device.enabled then
    let scheme := (attachDevice device devsimHandle).scheme
    readControls scheme (device.vars.filter (fun var => var.mode ≠ .R))
    publishSignals scheme fitted device.vars

end

/-- What the server does under its lock. -/
inductive Action
  | tick (fitted : Dict String Number)
  | request (message : Message)

/-- The buffers after the action, also when it raised. -/
def Action.perform (device : Device) : Action → InMemoryUnidriverIo → InMemoryUnidriverIo
  | .tick fitted, io => final ((Tstlan.tick device fitted : EStateM PyError InMemoryUnidriverIo Unit).run io)
  | .request message, io =>
    final ((DevsimProtocol.apply message : EStateM PyError InMemoryUnidriverIo Message).run io)

/-! ## The server -/

structure DeviceServer where
  device : Device
  io : InMemoryUnidriverIo
  /-- What the others do before each of the client's next requests. -/
  schedule : List (List Action)
  /-- The buffers between two actions, up to now. -/
  states : List InMemoryUnidriverIo

namespace DeviceServer

def start (device : Device) (io : InMemoryUnidriverIo) (schedule : List (List Action)) : DeviceServer :=
  ⟨device, io, schedule, [io]⟩

/-- One action or request is done. -/
def moveTo (server : DeviceServer) (io : InMemoryUnidriverIo) : DeviceServer :=
  { server with io := io, states := server.states ++ [io] }

def others (server : DeviceServer) : DeviceServer :=
  match server.schedule with
  | [] => server
  | batch :: rest =>
    batch.foldl (fun server a => server.moveTo (a.perform server.device server.io)) { server with schedule := rest }

/-- A request of the client takes the lock after the others. -/
def request {α : Type} (x : EStateM PyError InMemoryUnidriverIo α) : EStateM PyError DeviceServer α := fun server =>
  match x.run server.others.io with
  | .ok a io => .ok a (server.others.moveTo io)
  | .error e io => .error e (server.others.moveTo io)

instance : UnidriverIo DeviceServer where
  readBytes handle index size := request (UnidriverIo.readBytes handle index size)
  writeBytes handle index value := request (UnidriverIo.writeBytes handle index value)
  readBit handle byteIndex bitIndex := request (UnidriverIo.readBit handle byteIndex bitIndex)
  writeBit handle byteIndex bitIndex value := request (UnidriverIo.writeBit handle byteIndex bitIndex value)

end DeviceServer

/-- The device as the backend has attached it. -/
def deviceBench (device : Device) : Bench := ⟨[(device, devsimHandle)], List.nodup_singleton _⟩

end Tstlan
