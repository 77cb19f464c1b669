import Tstlan.Devices.Simulation.Unstopped

/-! # The built-in devices (`tstlan/devices/simulation/builder.py` and `catalog.py`, `_build_devices` of `tstlan/app.py`)

Without external devices the application simulates three of its own. Whatever their clients write, the simulation goes
on: the set point that a sensor follows may be any single. -/
namespace Tstlan.Simulation
open Foundations
open Binary (Double)
set_option autoImplicit false

/-! ## `SimulatedDeviceBuilder` -/

structure SimulatedDeviceBuilder where
  id : String
  name : String
  type : String := "Эмулятор"
  enabled : Bool := true
  vars : List NetVar := []
  signals : Dict String (Signal Source) := .empty

namespace SimulatedDeviceBuilder

/-- `_add` -/
def add (builder : SimulatedDeviceBuilder) (var : NetVar) : SimulatedDeviceBuilder :=
  { builder with vars := builder.vars ++ [var] }

def sensor (builder : SimulatedDeviceBuilder) (name : String) (ctype : NetVarCType) (signal : Signal Source) :
    SimulatedDeviceBuilder :=
  { builder.add { name := name, ctype := ctype, mode := .R } with signals := builder.signals.set name signal }

def control (builder : SimulatedDeviceBuilder) (name : String) (ctype : NetVarCType) (initial : Number := .int 0) :
    SimulatedDeviceBuilder :=
  builder.add { name := name, ctype := ctype, mode := .RW, value := initial }

def command (builder : SimulatedDeviceBuilder) (name : String) (ctype : NetVarCType) : SimulatedDeviceBuilder :=
  builder.add { name := name, ctype := ctype, mode := .W }

/-- The object of the variable, named by the handle that the device is going to have. -/
def var (builder : SimulatedDeviceBuilder) (handle : ℤ) (name : String) : Except PyError Register :=
  match builder.vars.findIdx? (fun v => v.name = name) with
  | some i => .ok ⟨handle, i⟩
  | none => .error .keyError

def build (builder : SimulatedDeviceBuilder) (handle : ℤ) : SimulatedDevice where
  device := ⟨builder.id, builder.name, builder.type, builder.enabled, if builder.enabled then .OK else .OFFLINE,
    builder.vars⟩
  signals := builder.signals
  handle := handle

end SimulatedDeviceBuilder

/-! ## `default_simulated_devices` -/

def literal (x : Double) : PyValue := .number (.float x)

section
variable {R : Type} (P : Platform R)

def multimeter (handle : ℤ) : EStateM PyError (Heap R) SimulatedDevice := do
  let builder : SimulatedDeviceBuilder := { id := "multimeter", name := "Тестовый мультиметр" }
  -- `Sine(amplitude=0.5, period=12.0, offset=220.0) + Noise(0.05, seed=1)`
  let noise ← newObject P .null (number 1)
  let builder := builder.sensor "voltage" .F32 (.sum [
    .source (.sine (literal 0x3FE0000000000000) (literal 0x4028000000000000) (literal 0x406B800000000000) zero),
    .source (.noise noise (literal 0x3FA999999999999A))])
  -- `Sine(amplitude=0.2, period=7.0, offset=1.5, phase=1.0) + Noise(0.02, seed=2)`
  let noise ← newObject P .null (number 2)
  let builder := builder.sensor "current" .F32 (.sum [
    .source (.sine (literal 0x3FC999999999999A) (literal 0x401C000000000000) (literal 0x3FF8000000000000)
      (literal 0x3FF0000000000000)),
    .source (.noise noise (literal 0x3F947AE147AE147B))])
  -- `Ramp(rate=1.0)`
  let builder := builder.sensor "samples" .U32 (.source (.ramp (literal 0x3FF0000000000000) zero))
  let builder := builder.control "range" .U8 (.int 1)
  let builder := builder.command "reset" .U8
  return builder.build handle

def calibrator (handle : ℤ) : EStateM PyError (Heap R) SimulatedDevice := do
  let builder : SimulatedDeviceBuilder := { id := "calibrator", name := "Калибратор" }
  -- `initial=10.0`
  let builder := builder.control "setpoint" .F32 (.float 0x4024000000000000)
  -- `Follow(builder.var("setpoint")) + Noise(0.01, seed=3)`
  let target ← fromExcept (builder.var handle "setpoint")
  let noise ← newObject P .null (number 3)
  let builder := builder.sensor "output" .F32 (.sum [
    .source (.follow target), .source (.noise noise (literal 0x3F847AE147AE147B))])
  let builder := builder.control "output_on" .U8 (.int 1)
  let builder := builder.command "reset" .U8
  return builder.build handle

def thermostat (handle : ℤ) : EStateM PyError (Heap R) SimulatedDevice := do
  let builder : SimulatedDeviceBuilder := { id := "thermostat", name := "Термостат" }
  -- `RandomWalk(start=25.0, step=0.1, low=20.0, high=30.0, seed=5)`
  let walk ← newObject P (literal 0x4039000000000000) (number 5)
  let builder := builder.sensor "temperature" .F32 (.source
    (.randomWalk walk (literal 0x3FB999999999999A) (literal 0x4034000000000000) (literal 0x403E000000000000)))
  -- `Square(period=20.0, low=0.0, high=1.0)`
  let builder := builder.sensor "heater" .U8 (.source (.square (literal 0x4034000000000000) zero one half))
  -- `initial=25.0`
  let builder := builder.control "setpoint" .F32 (.float 0x4039000000000000)
  return builder.build handle

def defaultSimulatedDevices : EStateM PyError (Heap R) (List SimulatedDevice) := do
  let multimeter ← multimeter P 1
  let calibrator ← calibrator P 2
  let thermostat ← thermostat P 3
  return [multimeter, calibrator, thermostat]

/-! ## `_build_devices` -/

/-- The values that the variables are made with. -/
def initialValues (devices : List SimulatedDevice) (register : Register) : Number :=
  ((devices.find? (fun d => d.handle = register.handle)).bind
    (fun d => d.device.vars[register.index]?.map NetVar.value)).getD (.int 0)

/-- The runtimes of the service, which publish the initial values. -/
def bindRuntimes : List SimulatedDevice → EStateM PyError (World InMemoryUnidriverIo R) Unit
  | [] => return ()
  | item :: rest => do
    let _runtime ← onIo (bindDevice item.device item.handle)
    bindRuntimes rest

/-- The branch without external devices, when no random source has been made yet. -/
def buildDevices (cells : ℕ → Cell R) : Except PyError (List SimulatedDevice × SimulationEngine × Plant R) :=
  match (defaultSimulatedDevices P).run ⟨0, cells⟩ with
  | .error e _ => .error e
  | .ok catalog heap =>
    match (do bindRuntimes catalog; SimulationEngine.build catalog).run
        ⟨⟨.empty⟩, ⟨initialValues catalog, heap.cells⟩⟩ with
    | .error e _ => .error e
    | .ok engine w => .ok (catalog, engine, { io := w.io, objects := w.objects })

end

/-! ## What the built-in devices are -/

/-- The devices, which do not depend on the platform. -/
def catalog : List SimulatedDevice :=
  match (defaultSimulatedDevices quiet).run freshHeap with
  | .ok devices _ => devices
  | .error _ _ => []

/-- No clock reads more seconds: `2.0 ** 1000`. -/
def clockLimit : ℕ := 2023 * 2 ^ 52

theorem clockLimit_lt : clockLimit < Binary.infinity := by decide +kernel

theorem catalog_handles : (catalog.map SimulatedDevice.handle).Nodup := by decide +kernel

theorem catalog_names : ∀ d ∈ catalog, (d.device.vars.map NetVar.name).Nodup := by decide +kernel

/-- The bounds of all samples are those that the C types can take. -/
theorem catalog_steady : ∀ d ∈ catalog, d.steady clockLimit (typeOf catalog) = true := by decide +kernel

theorem catalog_walks : ∀ d ∈ catalog, ∀ e ∈ d.signals.entries, ∀ object ∈ e.2.sources.filterMap Source.walk?,
    object = 3 := by decide +kernel

theorem catalog_values : ∀ d ∈ catalog, ∀ entry ∈ d.registers, initialValues catalog entry.2 = entry.1.value := by
  decide +kernel

theorem catalog_packs : ∀ d ∈ catalog, ∀ var ∈ d.device.vars, ∀ acc ∈ (d.scheme.get? var.name).toList,
    (acc.packs var.value).isOk = true := by decide +kernel

section
variable {R : Type} (P : Platform R) (cells : ℕ → Cell R)

/-- The random sources, in the order in which they are made. -/
def catalogCells : ℕ → Cell R :=
  Function.update (Function.update (Function.update (Function.update cells
    0 ⟨.null, P.seed (number 1)⟩) 1 ⟨.null, P.seed (number 2)⟩) 2 ⟨.null, P.seed (number 3)⟩)
    3 ⟨literal 0x4039000000000000, P.seed (number 5)⟩

theorem defaultSimulatedDevices_run :
    (defaultSimulatedDevices P).run ⟨0, cells⟩ = .ok catalog ⟨4, catalogCells P cells⟩ := rfl

variable {P cells}

theorem accepts_initial {d : SimulatedDevice} (hd : d ∈ catalog) {var : NetVar} (hvar : var ∈ d.device.vars)
    {acc : NetVarAccessor} (hacc : d.scheme.get? var.name = some acc) : acc.var.ctype.Accepts var.value := by
  have hpacks := catalog_packs d hd var hvar acc (by rw [hacc]; exact List.mem_singleton_self _)
  apply NetVarAccessor.packs_ok_iff.mp
  cases hresult : acc.packs var.value with
  | ok u => rfl
  | error e =>
    rw [hresult] at hpacks
    cases hpacks

theorem bindRuntimes_run {devices : List SimulatedDevice}
    (h : ∀ d ∈ devices, ∀ var ∈ d.device.vars, ∀ acc, d.scheme.get? var.name = some acc →
      acc.var.ctype.Accepts var.value) (w : World InMemoryUnidriverIo R) :
    ∃ io, (bindRuntimes devices).run w = .ok () { w with io := io } := by
  induction devices generalizing w with
  | nil => exact ⟨w.io, rfl⟩
  | cons d rest ih =>
    obtain ⟨hd, hrest⟩ := List.forall_mem_cons.mp h
    have hcovers : ∀ var ∈ d.device.vars, ∃ acc, d.scheme.get? var.name = some acc ∧ acc.Wf := by
      intro var hvar
      obtain ⟨acc, hacc⟩ := scheme_get?_of_mem d.handle hvar
      exact ⟨acc, hacc, (wf_of_scheme hacc).1⟩
    obtain ⟨io₁, hpublish⟩ := (publishValues_ok_iff hcovers w.io).mpr hd
    have hbind : (bindDevice d.device d.handle : EStateM PyError InMemoryUnidriverIo DeviceRuntime).run w.io =
        .ok (attachDevice d.device d.handle) io₁ := run_bind_ok hpublish
    obtain ⟨io, hmore⟩ := ih hrest { w with io := io₁ }
    exact ⟨io, (run_bind_ok (onIo_run_ok hbind)).trans hmore⟩

theorem publishable_catalog (c : ℕ → Cell R) : Publishable catalog (⟨initialValues catalog, c⟩ : Objects R) := by
  intro d hd entry hentry acc hacc
  obtain ⟨i, hi, -⟩ := mem_registers.mp hentry
  show acc.var.ctype.Accepts (initialValues catalog entry.2)
  rw [catalog_values d hd entry hentry]
  exact accepts_initial hd (List.mem_of_getElem? hi) hacc

theorem walks_catalog {d : SimulatedDevice} (hd : d ∈ catalog) {name : String} {signal : Signal Source}
    (hsignal : d.signals.get? name = some signal) : Walks (catalogCells P cells) signal.sources := by
  intro object hobject
  have hthree := catalog_walks d hd _ (Dict.mem_entries.mpr hsignal) object hobject
  rw [hthree, catalogCells, Function.update_self]
  exact ⟨_, rfl⟩

/-- The service is made before the engine, over the same objects. -/
theorem buildDevices_run {devices : List SimulatedDevice} {heap : Heap R}
    (hdevices : (defaultSimulatedDevices P).run ⟨0, cells⟩ = .ok devices heap) {w₁ w : World InMemoryUnidriverIo R}
    {engine : SimulationEngine}
    (hbind : (bindRuntimes devices).run ⟨⟨.empty⟩, ⟨initialValues devices, heap.cells⟩⟩ = .ok () w₁)
    (hengine : (SimulationEngine.build devices).run w₁ = .ok engine w) :
    buildDevices P cells = .ok (devices, engine, { io := w.io, objects := w.objects }) := by
  have hstart : (do bindRuntimes devices; SimulationEngine.build devices).run
      ⟨⟨.empty⟩, ⟨initialValues devices, heap.cells⟩⟩ = .ok engine w := (run_bind_ok hbind).trans hengine
  unfold buildDevices
  rw [hdevices]
  dsimp only
  rw [hstart]

/-- **The simulation of the application goes on.** However its ticks and the write requests fall among each other, at
whatever times the clock reads and whatever numbers the requests carry, no tick raises an exception. -/
theorem simulation_goesOn (P : Platform R) (hP : Bounded P) (cells : ℕ → Cell R) (root : LogLevel) (events : List PlantEvent)
    (htimes : ∀ t, .start t ∈ events → t.magnitude ≤ clockLimit) :
    ∃ devices engine plant, ∃ handles : (devices.map SimulatedDevice.handle).Nodup,
      buildDevices P cells = .ok (devices, engine, plant) ∧
        (plant.run P engine root (benchOf devices handles) events).stopped = false := by
  obtain ⟨io, hbind⟩ := bindRuntimes_run (fun d hd var hvar acc hacc => accepts_initial hd hvar hacc)
    (⟨⟨.empty⟩, initialValues catalog, catalogCells P cells⟩ : World InMemoryUnidriverIo R)
  obtain ⟨engine, w, hengine⟩ := build_runs (w := ⟨io, initialValues catalog, catalogCells P cells⟩) catalog_handles
    (publishable_catalog _)
  have hbuilt := buildDevices_run (defaultSimulatedDevices_run P cells) hbind hengine
  refine ⟨catalog, engine, { io := w.io, objects := w.objects }, catalog_handles, hbuilt, ?_⟩
  exact (Plant.goesOn_run hP clockLimit_lt hengine catalog_names catalog_steady
    (fun d hd name signal hsignal => walks_catalog hd hsignal) events htimes).running

end

/-! ## A set point that no single exceeds -/

/-- The sine at the angles that the built-in devices ask for at 0 and at 3 seconds, and one random number. -/
def twoInstants : Platform Unit where
  sin x :=
    if x = 0x3FF0000000000000 then 0x3FEAED548F090CEE
    else if x = 0x3FF921FB54442D18 then 0x3FF0000000000000
    else if x = 0x400D8AD76CCCB8F0 then 0xBFE0C23D19D83FB9
    else 0
  parse _ := none
  seed _ := ()
  entropy _ := ()
  random _ := (0x3FE0000000000000, ())

/-- The largest single. -/
def largestSetpoint : WriteRequest := ⟨⟨1, "dev", "", .DEV, true⟩, "calibrator", "setpoint", .float 0x47EFFFFFE0000000⟩

/-- All actions of a tick, and its end. -/
def wholeTick : List PlantEvent := List.replicate ((agenda catalog).length + 1) .act

/-- The command comes after the first action of the tick at 0 s; the tick goes on to its end, and another one at 3 s
follows. -/
def largestSetpointRun : List PlantEvent :=
  [.start 0, .act, .request largestSetpoint] ++ wholeTick ++ [.start 0x4008000000000000] ++ wholeTick

theorem largestSetpoint_goesOn : ∃ devices engine plant, ∃ handles : (devices.map SimulatedDevice.handle).Nodup,
    buildDevices twoInstants (fun _ => ⟨.null, ()⟩) = .ok (devices, engine, plant) ∧
      (plant.run twoInstants engine .INFO (benchOf devices handles) largestSetpointRun).stopped = false := by
  have hbounded : Bounded twoInstants := by
    refine ⟨fun x _ => ?_, fun _ => show Binary.Double.magnitude 0x3FE0000000000000 ≤ Binary.Double.one by decide⟩
    show Binary.Double.magnitude (if _ then _ else _) ≤ _
    split_ifs <;> decide
  refine simulation_goesOn twoInstants hbounded _ .INFO _ (fun t ht => ?_)
  have hcases : t = 0 ∨ t = 0x4008000000000000 := by simpa [largestSetpointRun, wholeTick] using ht
  rcases hcases with rfl | rfl <;> decide

end Tstlan.Simulation
