import Tstlan.Devices.Service

/-! # Devices on one seam

A bench is a list of devices with distinct handles, which is what `from_devices` and the catalogue of
simulated devices bind. All accessors of a bench, also those that a later device or variable of the same
name hides, have disjoint places. -/
namespace Tstlan
open Foundations
set_option autoImplicit false

structure Bench where
  devices : List (Device × ℤ)
  handles : (devices.map Prod.snd).Nodup

namespace Bench

def accessors (bench : Bench) : List NetVarAccessor :=
  bench.devices.flatMap (fun d => buildScheme d.2 d.1.vars)

def service (bench : Bench) : DeviceService :=
  DeviceService.ofRuntimes (bench.devices.map (fun d => attachDevice d.1 d.2))

/-- The device the service has under an id, with its handle. -/
def device? (bench : Bench) (deviceId : String) : Option (Device × ℤ) :=
  bench.devices.reverse.find? (fun d => d.1.id = deviceId)

/-- The variable a request addresses: the first one of that name in the device of that id. -/
def addressed (bench : Bench) (deviceId name : String) : Option NetVarAccessor :=
  match bench.device? deviceId with
  | none => none
  | some (device, handle) =>
    (buildScheme handle device.vars).find? (fun acc => acc.var.name = name)

theorem accessors_independent (bench : Bench) : Independent bench.accessors := by
  constructor
  · intro acc hacc
    obtain ⟨d, -, hin⟩ := List.mem_flatMap.mp hacc
    exact (buildScheme_independent d.2 d.1.vars).wf acc hin
  · have hdistinct : bench.devices.Pairwise (fun d e => d.2 ≠ e.2) :=
      List.pairwise_map.mp bench.handles
    rw [accessors, List.pairwise_flatMap]
    refine ⟨fun d _ => (buildScheme_independent d.2 d.1.vars).disjoint, hdistinct.imp ?_⟩
    intro d e hne a ha b hb
    refine .inl ?_
    rwa [handle_of_mem_buildScheme ha, handle_of_mem_buildScheme hb]

theorem service_get? (bench : Bench) (deviceId : String) :
    bench.service.devices.get? deviceId =
      (bench.device? deviceId).map (fun d => attachDevice d.1 d.2) := by
  rw [service, DeviceService.ofRuntimes, Dict.get?_ofList, device?, List.map_map, ← List.map_reverse,
    List.find?_map, Option.map_map]
  rfl

theorem mem_of_device? {bench : Bench} {deviceId : String} {d : Device × ℤ}
    (h : bench.device? deviceId = some d) : d ∈ bench.devices :=
  List.mem_reverse.mp (List.mem_of_find?_eq_some h)

theorem mem_accessors {bench : Bench} {d : Device × ℤ} (hd : d ∈ bench.devices) {acc : NetVarAccessor}
    (h : acc ∈ buildScheme d.2 d.1.vars) : acc ∈ bench.accessors :=
  List.mem_flatMap.mpr ⟨d, hd, h⟩

theorem id_of_device? {bench : Bench} {deviceId : String} {d : Device × ℤ}
    (h : bench.device? deviceId = some d) : d.1.id = deviceId := by
  simpa using List.find?_some h

/-- Looking a variable up among the accessors is looking it up among the variables. -/
theorem find?_buildScheme (handle : ℤ) (vars : List NetVar) (name : String) :
    ((buildScheme handle vars).find? (fun acc => acc.var.name = name)).map NetVarAccessor.var =
      vars.find? (fun var => var.name = name) := by
  conv_rhs => rw [← buildScheme_var handle vars, List.find?_map]
  rfl

theorem mem_of_scheme_get? {device : Device} {handle : ℤ} {name : String} {acc : NetVarAccessor}
    (h : (attachDevice device handle).scheme.get? name = some acc) :
    acc ∈ buildScheme handle device.vars := by
  obtain ⟨a, ha, he⟩ := List.mem_map.mp (Dict.mem_of_get?_ofList h)
  cases he
  exact ha

theorem mem_of_addressed {bench : Bench} {deviceId name : String} {acc : NetVarAccessor}
    (h : bench.addressed deviceId name = some acc) : acc ∈ bench.accessors := by
  rw [addressed] at h
  cases hd : bench.device? deviceId with
  | none => rw [hd] at h; cases h
  | some d =>
    rw [hd] at h
    exact mem_accessors (mem_of_device? hd) (List.mem_of_find?_eq_some h)

/-- The bench of `from_devices`, which counts the handles from one. -/
def enumerate (devices : List Device) : Bench where
  devices := (devices.zipIdx 1).map (fun d => (d.1, (d.2 : ℤ)))
  handles := by
    rw [List.map_map]
    have hcast : Prod.snd ∘ (fun d : Device × ℕ => (d.1, (d.2 : ℤ))) = (fun n : ℕ => (n : ℤ)) ∘ Prod.snd := rfl
    rw [hcast, ← List.map_map, List.zipIdx_map_snd]
    exact (List.nodup_range' ..).map (fun a b h => by exact_mod_cast h)

end Bench
end Tstlan
