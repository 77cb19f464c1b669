import Tstlan.Devices.Bench
import Tstlan.Devices.Routes

/-! # Reading changes no value

The endpoints that read a device leave every value of every device as it was: reading may make a buffer
longer, but not in the memory that it stands for. -/
namespace Tstlan
open Foundations
set_option autoImplicit false

variable {σ : Type} {root : LogLevel} {service : DeviceService}

theorem DeviceService.silent_runtimeOf (deviceId : String) :
    Silent (service.runtimeOf root deviceId : EStateM DeviceError σ DeviceRuntime) := by
  unfold runtimeOf
  cases service.devices.get? deviceId with
  | none => exact (silent_log _ _).bind (fun _ => .throw _)
  | some runtime => exact .pure runtime

theorem DeviceService.silent_variableOf (runtime : DeviceRuntime) (name : String) :
    Silent (variableOf root runtime name : EStateM DeviceError σ NetVar) := by
  unfold variableOf
  cases runtime.device.vars.find? (fun var => var.name = name) with
  | none => exact (silent_log _ _).bind (fun _ => .throw _)
  | some var => exact .pure var

theorem DeviceService.silent_getDevice (deviceId : String) :
    Silent (service.getDevice root deviceId : EStateM DeviceError σ Device) :=
  (silent_runtimeOf deviceId).bind (fun _ => .pure _)

theorem DeviceRoutes.silent_requireWriter (user : User) :
    Silent (requireWriter root user : EStateM DeviceRouteError σ User) := by
  unfold requireWriter
  split
  · exact (silent_log _ _).bind (fun _ => .throw _)
  · exact .pure user

theorem DeviceRoutes.requireWriter_ok {user writer : User} {s t : σ}
    (h : (requireWriter root user).run s = .ok writer t) : writer = user ∧ user.role ∈ [Role.DEV, Role.ADMIN] := by
  unfold requireWriter at h
  split at h
  · obtain ⟨_, _, -, hthrow⟩ := bind_eq_ok h
    cases hthrow
  · next hrole =>
    cases h
    exact ⟨rfl, not_not.mp hrole⟩

/-! ## Reads of a bench -/

/-- A device side in which reading changes no value, also when it raises. -/
class ObservableIo (σ : Type) [UnidriverIo σ] where
  memory : σ → ByteMemory ℤ
  readBytes_keeps (s : σ) (handle : ℤ) (index size : ℕ) :
    memory (final ((UnidriverIo.readBytes handle index size).run s)) = memory s
  readBit_keeps (s : σ) (handle : ℤ) (byteIndex bitIndex : ℕ) (hk : bitIndex < 8) :
    memory (final ((UnidriverIo.readBit handle byteIndex bitIndex).run s)) = memory s

instance [UnidriverIo σ] [LawfulUnidriverIo σ] : ObservableIo σ where
  memory := LawfulUnidriverIo.memory
  readBytes_keeps s handle index size := by
    obtain ⟨s', hrun, hmem⟩ := LawfulUnidriverIo.readBytes_run s handle index size
    rw [hrun]
    exact hmem
  readBit_keeps s handle byteIndex bitIndex hk := by
    obtain ⟨s', hrun, hmem⟩ := LawfulUnidriverIo.readBit_run s handle byteIndex bitIndex hk
    rw [hrun]
    exact hmem

variable [UnidriverIo σ] [ObservableIo σ] {bench : Bench}

/-- The devices show this memory. -/
def ShowsMemory (m : ByteMemory ℤ) (s : σ) : Prop := ObservableIo.memory s = m

variable {m : ByteMemory ℤ}

theorem NetVarAccessor.keeps_get {acc : NetVarAccessor} (hw : acc.Wf) :
    Keeps (ShowsMemory m) (acc.get : EStateM PyError σ Number) := by
  rcases bit_or_format acc with hbit | ⟨f, hf⟩
  · obtain ⟨k, hlt, hk, -, -⟩ := place_of_bit hw hbit
    rw [get, if_pos hbit, hk]
    refine Keeps.bind (fun s hs => ?_) (fun _ => .pure _ _)
    exact (ObservableIo.readBit_keeps s _ _ k hlt).trans hs
  · rw [get, if_neg (ctype_ne_bit hf)]
    refine Keeps.bind (fun s hs => (ObservableIo.readBytes_keeps s _ _ _).trans hs) (fun bytes => ?_)
    rw [hf]
    exact (Silent.fromExcept _).keeps _

namespace DeviceService

theorem keeps_snapshot {deviceId : String} {runtime : DeviceRuntime}
    (hruntime : bench.service.devices.get? deviceId = some runtime) (var : NetVar) :
    Keeps (ShowsMemory m) (snapshot runtime var : EStateM DeviceError σ NetVar) := by
  rw [Bench.service_get?] at hruntime
  obtain ⟨d, hd, rfl⟩ := Option.map_eq_some_iff.mp hruntime
  unfold snapshot
  cases hacc : (attachDevice d.1 d.2).scheme.get? var.name with
  | none => exact .throw _ _
  | some acc =>
    have hin := Bench.mem_accessors (Bench.mem_of_device? hd) (Bench.mem_of_scheme_get? hacc)
    have hget : Keeps (ShowsMemory m) (acc.get : EStateM PyError σ Number) :=
      NetVarAccessor.keeps_get (bench.accessors_independent.wf acc hin)
    exact Keeps.bind (Keeps.adaptExcept hget _) (fun _ => .pure _ _)

theorem keeps_snapshots {deviceId : String} {runtime : DeviceRuntime}
    (hruntime : bench.service.devices.get? deviceId = some runtime) (vars : List NetVar) :
    Keeps (ShowsMemory m) (snapshots runtime vars : EStateM DeviceError σ (List NetVar)) := by
  induction vars with
  | nil => exact .pure _ _
  | cons var vars ih => exact (keeps_snapshot hruntime var).bind (fun _ => ih.bind (fun _ => .pure _ _))

/-- What is done with a device of the bench. -/
theorem keeps_runtimeOf {α : Type} {deviceId : String} {f : DeviceRuntime → EStateM DeviceError σ α}
    (hf : ∀ runtime, bench.service.devices.get? deviceId = some runtime → Keeps (ShowsMemory m) (f runtime)) :
    Keeps (ShowsMemory m) (bench.service.runtimeOf root deviceId >>= f) := by
  unfold runtimeOf
  cases hruntime : bench.service.devices.get? deviceId with
  | none =>
    simp (disch := decide) only [logEvent_bind]
    exact fun _ hs => hs
  | some runtime => exact hf runtime hruntime

theorem keeps_readValues (deviceId : String) :
    Keeps (ShowsMemory m) (bench.service.readValues root deviceId : EStateM DeviceError σ (List NetVar)) :=
  keeps_runtimeOf (fun _ hruntime =>
    (keeps_snapshots hruntime _).bind (fun _ => ((silent_log _ _).bind (fun _ => .pure _)).keeps _))

theorem keeps_readValue (deviceId name : String) :
    Keeps (ShowsMemory m) (bench.service.readValue root deviceId name : EStateM DeviceError σ NetVar) := by
  refine keeps_runtimeOf (fun runtime hruntime => ((silent_variableOf runtime name).keeps _).bind (fun var => ?_))
  split
  · exact ((silent_log _ _).bind (fun _ => .throw _)).keeps _
  · exact (keeps_snapshot hruntime var).bind (fun _ => ((silent_log _ _).bind (fun _ => .pure _)).keeps _)

end DeviceService

namespace DeviceRoutes

theorem keeps_readValues (deviceId : String) :
    Keeps (ShowsMemory m) (readValues root bench.service deviceId : EStateM DeviceRouteError σ _) :=
  (Keeps.adaptExcept (DeviceService.keeps_readValues deviceId) _).bind (fun _ => .pure _ _)

theorem keeps_readValue (deviceId name : String) :
    Keeps (ShowsMemory m) (readValue root bench.service deviceId name : EStateM DeviceRouteError σ _) :=
  (Keeps.adaptExcept (DeviceService.keeps_readValue deviceId name) _).bind (fun _ => .pure _ _)

theorem keeps_streamValues (deviceId : String) (n : ℕ) :
    Keeps (ShowsMemory m) (streamValues root bench.service deviceId n : EStateM DeviceRouteError σ _) := by
  have hstream : Keeps (ShowsMemory m)
      (valueEventStream root bench.service deviceId n : EStateM DeviceRouteError σ _) := by
    induction n with
    | zero => exact .pure _ _
    | succ n ih =>
      intro s hs
      have hread : ShowsMemory m (final ((readValues root bench.service deviceId).run s)) :=
        keeps_readValues deviceId s hs
      show ShowsMemory m (final (valueEventStream root bench.service deviceId (n + 1) s))
      unfold valueEventStream
      cases hrun : (readValues root bench.service deviceId).run s with
      | ok snapshot t =>
        rw [hrun] at hread
        exact Keeps.bind ih (fun _ => .pure _ _) t hread
      | error e t =>
        rw [hrun] at hread
        exact hread
  exact ((Silent.adaptExcept (DeviceService.silent_getDevice deviceId) _).keeps _).bind
    (fun _ => ((silent_log _ _).keeps _).bind (fun _ => hstream))

end DeviceRoutes
end Tstlan
