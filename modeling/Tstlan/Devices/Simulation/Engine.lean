import Tstlan.Devices.Service
import Tstlan.Devices.Simulation.Signals

/-! # The simulation engine (`tstlan/devices/simulation/builder.py`, `tstlan/devices/simulation/engine.py`)

The state is the device seam together with the objects that the signals read and change: the values of the `NetVar`
objects, which `Follow` reads, and the states of the random sources. Every variable of a device is an object of its
own. -/
namespace Tstlan.Simulation
open Foundations
open Binary (Double)
set_option autoImplicit false

structure SimulatedDevice where
  device : Device
  signals : Dict String (Signal Source)
  handle : ℤ := 0

/-- The variables of the device with their objects. -/
def SimulatedDevice.registers (simulated : SimulatedDevice) : List (NetVar × Register) :=
  simulated.device.vars.zipIdx.map (fun p => (p.1, ⟨simulated.handle, p.2⟩))

structure Objects (R : Type) where
  values : Register → Number
  cells : ℕ → Cell R

/-- `variable.value = value` -/
def Objects.assign {R : Type} (objects : Objects R) (register : Register) (value : Number) : Objects R :=
  { objects with values := Function.update objects.values register value }

structure World (σ R : Type) where
  io : σ
  objects : Objects R

section
variable {ε σ R α : Type}

def onIo (x : EStateM ε σ α) : EStateM ε (World σ R) α := fun world =>
  match x.run world.io with
  | .ok a io => .ok a { world with io := io }
  | .error e io => .error e { world with io := io }

def onObjects (x : EStateM ε (Objects R) α) : EStateM ε (World σ R) α := fun world =>
  match x.run world.objects with
  | .ok a objects => .ok a { world with objects := objects }
  | .error e objects => .error e { world with objects := objects }

/-- A sample reads the values and changes the cells. -/
def onCells (x : (Register → Number) → EStateM ε (ℕ → Cell R) α) : EStateM ε (Objects R) α := fun objects =>
  match (x objects.values).run objects.cells with
  | .ok a cells => .ok a { objects with cells := cells }
  | .error e cells => .error e { objects with cells := cells }

def assign (register : Register) (value : Number) : EStateM ε (Objects R) Unit :=
  modify (fun objects => objects.assign register value)

end

structure SimulationEngine where
  devices : List SimulatedDevice
  schemes : Dict ℤ (Dict String NetVarAccessor)

section
variable {σ R : Type} [UnidriverIo σ]

/-- The schemes of the devices, bound in turn; each device publishes the current values of its variables. -/
def bindAll (schemes : Dict ℤ (Dict String NetVarAccessor)) :
    List SimulatedDevice → EStateM PyError (World σ R) (Dict ℤ (Dict String NetVarAccessor))
  | [] => return schemes
  | simulated :: rest => do
    if (schemes.get? simulated.handle).isSome then throw .valueError
    let scheme := (attachDevice simulated.device simulated.handle).scheme
    let world ← get
    onIo (publishValues scheme
      (simulated.registers.map (fun p => { p.1 with value := world.objects.values p.2 })))
    bindAll (schemes.set simulated.handle scheme) rest

/-- The constructor. -/
def SimulationEngine.build (devices : List SimulatedDevice) : EStateM PyError (World σ R) SimulationEngine := do
  let schemes ← bindAll .empty devices
  return ⟨devices, schemes⟩

/-- The first pass of a tick over a device: what the backend may have written. -/
def load (scheme : Dict String NetVarAccessor) : List (NetVar × Register) → EStateM PyError (World σ R) Unit
  | [] => return ()
  | (var, register) :: rest => do
    if var.mode ≠ .R then
      match scheme.get? var.name with
      | none => throw .keyError
      | some acc =>
        let value ← onIo acc.get
        onObjects (assign register value)
    load scheme rest

variable (P : Platform R) (t : Double)

/-- The second pass: the signals, in the order of the variables. -/
def publish (scheme : Dict String NetVarAccessor) (signals : Dict String (Signal Source)) :
    List (NetVar × Register) → EStateM PyError (World σ R) Unit
  | [] => return ()
  | (var, register) :: rest => do
    match signals.get? var.name with
    | none => publish scheme signals rest
    | some signal =>
      let sample ← onObjects (onCells (fun values => sampleAt P t values signal))
      let value ← fromExcept (fitValue P var.ctype sample)
      onObjects (assign register value)
      match scheme.get? var.name with
      | none => throw .keyError
      | some acc => onIo (acc.set value)
      publish scheme signals rest

def SimulationEngine.tickAll (engine : SimulationEngine) : List SimulatedDevice → EStateM PyError (World σ R) Unit
  | [] => return ()
  | simulated :: rest => do
    if simulated.device.enabled then
      match engine.schemes.get? simulated.handle with
      | none => throw .keyError
      | some scheme =>
        load scheme simulated.registers
        publish P t scheme simulated.signals simulated.registers
    engine.tickAll rest

def SimulationEngine.tick (engine : SimulationEngine) : EStateM PyError (World σ R) Unit :=
  engine.tickAll P t engine.devices

end
end Tstlan.Simulation
