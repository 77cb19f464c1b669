import Tstlan.Devices.Devsim
import Tstlan.Devices.Simulation.Engine
import Tstlan.Tools.Ini2yaml

/-! # Profiles (`tstlan/devices/device_profile.py`, `devsim/signals.py`, `build_simulated` of `devsim/server.py`)

A profile is a document with the variables of a device and the specifications of their signals. The random sources
that are made from it are new objects of a heap. -/
namespace Tstlan.Simulation
open Foundations
set_option autoImplicit false

/-- A mapping of parameters, with the list under `plus`, which is empty where the key is missing. -/
inductive SignalSpec
  | mk (params : Dict String PyValue) (plus : List SignalSpec)

/-- `initial` is a number, as `NetVar` annotates its value. -/
structure RawVariable where
  name : String
  ctype : String
  mode : Option String := none
  initial : Number := .int 0
  signal : Option SignalSpec := none

structure RawProfile where
  name : String
  deviceType : String := "Эмулятор"
  vars : List RawVariable

structure DeviceProfile where
  name : String
  deviceType : String
  vars : List NetVar
  signals : Dict String SignalSpec

/-! ## `load_profile` -/

/-- `_mode`: a variable with a signal is a sensor unless the document says otherwise. -/
def modeOf (rawMode : Option String) (signal : Option SignalSpec) : Except PyError NetVarMode :=
  match rawMode with
  | some "r" => .ok .R
  | some "w" => .ok .W
  | some "rw" => .ok .RW
  | some _ => .error .valueError
  | none => .ok (if signal.isSome then .R else .RW)

def loadVariables (signals : Dict String SignalSpec) :
    List RawVariable → Except PyError (List NetVar × Dict String SignalSpec)
  | [] => .ok ([], signals)
  | raw :: rest => do
    let ctype ← Ini2yaml.ctypeOfText raw.ctype.toList
    let mode ← modeOf raw.mode raw.signal
    let signals := match raw.signal with
      | none => signals
      | some spec => signals.set raw.name spec
    let (vars, signals) ← loadVariables signals rest
    return (⟨raw.name, ctype, mode, raw.initial⟩ :: vars, signals)

def loadProfile (raw : RawProfile) : Except PyError DeviceProfile := do
  let (vars, signals) ← loadVariables .empty raw.vars
  return ⟨raw.name, raw.deviceType, vars, signals⟩

def deviceFromProfile (profile : DeviceProfile) (deviceId : String) : Device :=
  ⟨deviceId, profile.name, profile.deviceType, true, .OK, profile.vars⟩

/-! ## `build_signal` -/

/-- The `Noise` and `RandomWalk` objects made so far. -/
structure Heap (R : Type) where
  next : ℕ
  cells : ℕ → Cell R

section
variable {R : Type} (P : Platform R)

/-- A new object with a generator of its own; a generator takes no container as its seed, and entropy for none. -/
def newObject (value seed : PyValue) : EStateM PyError (Heap R) ℕ := do
  if seed = .other then throw .typeError
  let heap ← get
  let rng := if seed = .null then P.entropy heap.next else P.seed seed
  set (⟨heap.next + 1, Function.update heap.cells heap.next ⟨value, rng⟩⟩ : Heap R)
  return heap.next

/-- A call with keyword arguments refuses names that the signature does not have. -/
def checkNames (names : List String) (params : Dict String PyValue) : Except PyError Unit :=
  if ∀ name ∈ params.keys, name ∈ names then .ok () else .error .typeError

def argument (params : Dict String PyValue) (name : String) (default : Option PyValue := none) :
    Except PyError PyValue :=
  match (params.get? name).or default with
  | some value => .ok value
  | none => .error .typeError

/-- The default parameters are doubles. -/
def half : PyValue := .number (.float 0x3FE0000000000000)
def one : PyValue := .number (.float 0x3FF0000000000000)
def zero : PyValue := .number (.float 0)

/-- `_FACTORIES[kind](params)` -/
def makeSource (kind : String) (params : Dict String PyValue) : EStateM PyError (Heap R) Source :=
  match kind with
  | "constant" => fromExcept do
    checkNames ["value"] params
    return .constant (← argument params "value")
  | "sine" => fromExcept do
    checkNames ["amplitude", "period", "offset", "phase"] params
    return .sine (← argument params "amplitude") (← argument params "period") (← argument params "offset" zero)
      (← argument params "phase" zero)
  | "sawtooth" => fromExcept do
    checkNames ["period", "low", "high"] params
    return .sawtooth (← argument params "period") (← argument params "low" zero) (← argument params "high" one)
  | "square" => fromExcept do
    checkNames ["period", "low", "high", "duty"] params
    return .square (← argument params "period") (← argument params "low" zero) (← argument params "high" one)
      (← argument params "duty" half)
  | "ramp" => fromExcept do
    checkNames ["rate", "start"] params
    return .ramp (← argument params "rate") (← argument params "start" zero)
  | "noise" => do
    fromExcept (checkNames ["amplitude", "seed"] params)
    let amplitude ← fromExcept (argument params "amplitude")
    let seed ← fromExcept (argument params "seed" (some (.number (.int 0))))
    let object ← newObject P .null seed
    return .noise object amplitude
  | "random_walk" => do
    fromExcept (checkNames ["start", "step", "low", "high", "seed"] params)
    let start ← fromExcept (argument params "start")
    let step ← fromExcept (argument params "step")
    let low ← fromExcept (argument params "low")
    let high ← fromExcept (argument params "high")
    let seed ← fromExcept (argument params "seed" (some (.number (.int 0))))
    let object ← newObject P start seed
    return .randomWalk object step low high
  | _ => throw .keyError

/-- `params.pop("kind")` and the lookup of the factory. -/
def sourceOf (params : Dict String PyValue) : EStateM PyError (Heap R) Source :=
  match params.get? "kind" with
  | some (.text kind) => makeSource P kind (params.erase "kind")
  | some .other => throw .typeError
  | _ => throw .keyError

mutual

def buildSignal : SignalSpec → EStateM PyError (Heap R) (Signal Source)
  | .mk params plus => do
    let source ← sourceOf P params
    addTerms (.source source) plus

/-- Each term makes a sum of two with what there is so far. -/
def addTerms (signal : Signal Source) : List SignalSpec → EStateM PyError (Heap R) (Signal Source)
  | [] => return signal
  | term :: terms => do
    let other ← buildSignal term
    addTerms (.sum [signal, other]) terms

end

/-! ## `build_simulated` -/

def buildSignals : List (String × SignalSpec) → EStateM PyError (Heap R) (List (String × Signal Source))
  | [] => return []
  | (name, spec) :: rest => do
    let signal ← buildSignal P spec
    let signals ← buildSignals rest
    return (name, signal) :: signals

def buildSimulated (profile : DeviceProfile) (deviceId : String := "sim") : EStateM PyError (Heap R) SimulatedDevice := do
  let signals ← buildSignals P profile.signals.entries
  return ⟨deviceFromProfile profile deviceId, Dict.ofList signals, devsimHandle⟩

/-- The objects that the engine starts from. -/
def SimulatedDevice.initialObjects (d : SimulatedDevice) (heap : Heap R) : Objects R where
  values register :=
    if register.handle = d.handle then (d.device.vars[register.index]?.map NetVar.value).getD (.int 0) else .int 0
  cells := heap.cells

end
end Tstlan.Simulation
