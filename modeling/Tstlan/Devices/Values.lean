import Tstlan.Devices.Reading

/-! # What a read of all values returns

Over a seam that is a byte memory every read of a device of the bench returns, and the values are those
that its accessors show of the memory. -/
namespace Tstlan
open Foundations
set_option autoImplicit false

/-- The value the accessor reads; every memory can be read. -/
def NetVarAccessor.shown (acc : NetVarAccessor) (m : ByteMemory ℤ) : Number := (acc.value m).toOption.getD (.int 0)

theorem NetVarAccessor.value_eq_shown (acc : NetVarAccessor) (m : ByteMemory ℤ) :
    acc.value m = .ok (acc.shown m) := by
  obtain ⟨v, hv⟩ := value_ok acc m
  rw [shown, hv]
  rfl

/-- The variable with the value that its name's accessor shows. -/
def DeviceRuntime.shown (runtime : DeviceRuntime) (m : ByteMemory ℤ) (var : NetVar) : NetVar :=
  match runtime.scheme.get? var.name with
  | none => var
  | some acc => { var with value := acc.shown m }

/-- The list a read of the values returns from one memory. -/
def DeviceRuntime.readable (runtime : DeviceRuntime) (m : ByteMemory ℤ) : List NetVar :=
  (runtime.device.vars.filter (fun var => var.mode ≠ .W)).map (runtime.shown m)

/-- Every variable of a device has an accessor under its name. -/
theorem scheme_get?_of_mem {device : Device} (handle : ℤ) {var : NetVar} (h : var ∈ device.vars) :
    ∃ acc, (attachDevice device handle).scheme.get? var.name = some acc := by
  rw [← buildScheme_var handle device.vars] at h
  obtain ⟨acc, hacc, rfl⟩ := List.mem_map.mp h
  have hsome : ((attachDevice device handle).scheme.get? acc.var.name).isSome := by
    rw [attachDevice, Dict.get?_ofList, Option.isSome_map, List.find?_isSome]
    refine ⟨(acc.var.name, acc), List.mem_reverse.mpr (List.mem_map_of_mem hacc), ?_⟩
    exact decide_eq_true rfl
  exact Option.isSome_iff_exists.mp hsome

/-- A read of all values is a read of the variables that are not write-only. -/
theorem DeviceService.readValues_eq_snapshots {σ : Type} [UnidriverIo σ] {root : LogLevel} {bench : Bench}
    {deviceId : String} {d : Device × ℤ} (hd : bench.device? deviceId = some d) :
    (bench.service.readValues root deviceId : EStateM DeviceError σ (List NetVar)) =
      snapshots (attachDevice d.1 d.2) (d.1.vars.filter (fun var => var.mode ≠ .W)) := by
  have hruntime : bench.service.devices.get? deviceId = some (attachDevice d.1 d.2) := by
    rw [Bench.service_get?, hd, Option.map_some]
  unfold readValues runtimeOf
  simp (disch := decide) only [hruntime, logEvent_bind, pure_bind]
  exact bind_pure _

section
variable {σ : Type} [UnidriverIo σ] [LawfulUnidriverIo σ] {root : LogLevel} {bench : Bench}
open LawfulUnidriverIo (memory)

namespace DeviceService

theorem snapshot_run {d : Device × ℤ} (hd : d ∈ bench.devices) {var : NetVar} (hvar : var ∈ d.1.vars) (s : σ) :
    ∃ s', (snapshot (attachDevice d.1 d.2) var).run s = .ok ((attachDevice d.1 d.2).shown (memory s) var) s' ∧
      memory s' = memory s := by
  obtain ⟨acc, hacc⟩ := scheme_get?_of_mem d.2 hvar
  have hw : acc.Wf :=
    bench.accessors_independent.wf acc (Bench.mem_accessors hd (Bench.mem_of_scheme_get? hacc))
  obtain ⟨v, s', hrun, hv, hmem⟩ := NetVarAccessor.get_run hw s
  rw [NetVarAccessor.value_eq_shown, Except.ok.injEq] at hv
  refine ⟨s', ?_, hmem⟩
  rw [DeviceRuntime.shown]
  simp only [snapshot, hacc]
  rw [EStateM.run_bind, EStateM.run_adaptExcept, hrun, hv]
  rfl

theorem snapshots_run {d : Device × ℤ} (hd : d ∈ bench.devices) {vars : List NetVar}
    (hvars : ∀ var ∈ vars, var ∈ d.1.vars) (s : σ) :
    ∃ s', (snapshots (attachDevice d.1 d.2) vars).run s =
      .ok (vars.map ((attachDevice d.1 d.2).shown (memory s))) s' ∧ memory s' = memory s := by
  induction vars generalizing s with
  | nil => exact ⟨s, rfl, rfl⟩
  | cons var vars ih =>
    obtain ⟨hvar, hrest⟩ := List.forall_mem_cons.mp hvars
    obtain ⟨s1, hrun1, hmem1⟩ := snapshot_run hd hvar s
    obtain ⟨s2, hrun2, hmem2⟩ := ih hrest s1
    refine ⟨s2, ?_, hmem2.trans hmem1⟩
    rw [snapshots, run_bind_ok hrun1, run_bind_ok hrun2, hmem1]
    rfl

/-- A read of all values returns those of the memory, which it leaves. -/
theorem readValues_run (root : LogLevel) {deviceId : String} {d : Device × ℤ} (hd : bench.device? deviceId = some d)
    (s : σ) :
    ∃ s', (bench.service.readValues root deviceId).run s = .ok ((attachDevice d.1 d.2).readable (memory s)) s' ∧
      memory s' = memory s := by
  have hvars : ∀ var ∈ d.1.vars.filter (fun var => var.mode ≠ .W), var ∈ d.1.vars :=
    fun _ hvar => List.mem_of_mem_filter hvar
  obtain ⟨s', hrun, hmem⟩ := snapshots_run (Bench.mem_of_device? hd) hvars s
  rw [readValues_eq_snapshots hd]
  exact ⟨s', hrun, hmem⟩

end DeviceService

theorem DeviceRoutes.readValues_run {deviceId : String} {d : Device × ℤ} (hd : bench.device? deviceId = some d) (s : σ) :
    ∃ s', (DeviceRoutes.readValues root bench.service deviceId).run s =
      .ok (((attachDevice d.1 d.2).readable (memory s)).map VariableValue.fromVar) s' ∧ memory s' = memory s := by
  obtain ⟨s', hrun, hmem⟩ : ∃ s', (bench.service.readValues root deviceId).run s =
      .ok ((attachDevice d.1 d.2).readable (memory s)) s' ∧ memory s' = memory s :=
    DeviceService.readValues_run root hd s
  refine ⟨s', ?_, hmem⟩
  rw [DeviceRoutes.readValues, EStateM.run_bind, EStateM.run_adaptExcept, hrun]
  rfl

end
end Tstlan
